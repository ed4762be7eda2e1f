import Mathlib.Data.List.Basic
import Mathlib.Logic.Basic

/-!
# Transition systems and their traces

A system steps from state to state and emits events. A trace is the events of
a finite run in order; every result about "each run" is an induction on it,
packaged here once. `Trace.invariant` carries a predicate along a run,
`Trace.pairwise` orders the events of one run, and `Trace.project` moves a run
to a smaller system that keeps only some of the events.

Executable systems are step functions: `exec` runs one on a list of inputs and
`lts` is the relation it computes, restricted to the inputs a guard admits.
-/

namespace Bartok.Foundation

variable {σ τ ε α : Type*}

/-- `T s es s'`: one step from `s` to `s'` that emits `es`. -/
abbrev Lts (σ ε : Type*) := σ → List ε → σ → Prop

/-- Finite runs from `s₀`, with all the events emitted on the way. -/
inductive Trace (T : Lts σ ε) (s₀ : σ) : List ε → σ → Prop
  | refl : Trace T s₀ [] s₀
  | tail {tr s es s'} : Trace T s₀ tr s → T s es s' → Trace T s₀ (tr ++ es) s'

namespace Trace

variable {T U : Lts σ ε} {s₀ s₁ s : σ} {tr tr' : List ε}

theorem single {es : List ε} {s' : σ} (h : T s es s') : Trace T s es s' := by
  simpa using Trace.refl.tail h

theorem trans (h : Trace T s₀ tr s₁) (h' : Trace T s₁ tr' s) :
    Trace T s₀ (tr ++ tr') s := by
  induction h' with
  | refl => simpa using h
  | tail _ hstep ih =>
      rw [← List.append_assoc]
      exact ih.tail hstep

theorem mono (hTU : ∀ s es s', T s es s' → U s es s') (h : Trace T s₀ tr s) :
    Trace U s₀ tr s := by
  induction h with
  | refl => exact .refl
  | tail _ hstep ih => exact ih.tail (hTU _ _ _ hstep)

/-- A predicate on the state and the events so far that one step preserves
holds after every run. -/
theorem invariant {I : σ → List ε → Prop} (h0 : I s₀ [])
    (hstep : ∀ s tr es s', I s tr → T s es s' → I s' (tr ++ es))
    (h : Trace T s₀ tr s) : I s tr := by
  induction h with
  | refl => exact h0
  | tail _ ht ih => exact hstep _ _ _ _ ih ht

/-- The same for a predicate on the state alone. -/
theorem stateInvariant {I : σ → Prop} (h0 : I s₀)
    (hstep : ∀ s es s', I s → T s es s' → I s') (h : Trace T s₀ tr s) : I s :=
  h.invariant (I := fun s _ => I s) h0 fun s _ es s' hI ht => hstep s es s' hI ht

/-- A run keeps to the states of an invariant. -/
theorem restrict {I : σ → Prop} (h0 : I s₀) (hstep : ∀ s es s', I s → T s es s' → I s')
    (h : Trace T s₀ tr s) : Trace (fun s es s' => I s ∧ T s es s') s₀ tr s := by
  induction h with
  | refl => exact .refl
  | tail hrun ht ih => exact ih.tail ⟨hrun.stateInvariant h0 hstep, ht⟩

/-- Every step of a run emits events of the run only. -/
theorem mono_mem (hTU : ∀ s es s', T s es s' → (∀ e ∈ es, e ∈ tr) → U s es s')
    (h : Trace T s₀ tr s) : Trace U s₀ tr s := by
  induction h with
  | refl => exact .refl
  | tail _ ht ih =>
      refine (ih fun s es s' hstep hes => hTU s es s' hstep fun e he => ?_).tail
        (hTU _ _ _ ht fun e he => ?_)
      · exact List.mem_append_left _ (hes e he)
      · exact List.mem_append_right _ he

/-- Ordering the events of a run. `S e s` is what the state `s` remembers of an
event `e` that has happened; steps keep it, and from it no step may emit an
event `e'` that must not follow `e`. -/
theorem pairwise {P : ε → ε → Prop} {S : ε → σ → Prop}
    (hnew : ∀ s es s', T s es s' → ∀ e ∈ es, S e s')
    (hkeep : ∀ s es s' e, T s es s' → S e s → S e s')
    (hord : ∀ s es s' e, T s es s' → S e s → ∀ e' ∈ es, P e e')
    (hin : ∀ s es s', T s es s' → es.Pairwise P)
    (h : Trace T s₀ tr s) : tr.Pairwise P ∧ ∀ e ∈ tr, S e s := by
  induction h with
  | refl => simp
  | tail _ ht ih =>
      obtain ⟨hp, hseen⟩ := ih
      constructor
      · rw [List.pairwise_append]
        exact ⟨hp, hin _ _ _ ht, fun e he e' he' => hord _ _ _ e ht (hseen e he) e' he'⟩
      · intro e he
        rcases List.mem_append.mp he with he | he
        · exact hkeep _ _ _ e ht (hseen e he)
        · exact hnew _ _ _ ht e he

/-- Where each step emits at most one event that `f` keeps, the first kept events of a run are
those of a run to a state on the way. -/
theorem cut {f : ε → Option α} (hone : ∀ s es s', T s es s' → (es.filterMap f).length ≤ 1)
    (h : Trace T s₀ tr s) {pre : List α} (hpre : pre <+: tr.filterMap f) :
    ∃ tr₁ tr₂ s₁, tr = tr₁ ++ tr₂ ∧ Trace T s₀ tr₁ s₁ ∧ Trace T s₁ tr₂ s ∧
      tr₁.filterMap f = pre := by
  induction h with
  | refl => exact ⟨[], [], s₀, rfl, .refl, .refl, (List.prefix_nil.mp hpre).symm⟩
  | @tail tr s es s' hrun hstep ih =>
      by_cases hearlier : pre <+: tr.filterMap f
      · obtain ⟨tr₁, tr₂, s₁, rfl, hrun₁, hrun₂, hkept⟩ := ih hearlier
        exact ⟨tr₁, tr₂ ++ es, s₁, List.append_assoc _ _ _, hrun₁, hrun₂.tail hstep, hkept⟩
      · refine ⟨tr ++ es, [], s', (List.append_nil _).symm, hrun.tail hstep, .refl, ?_⟩
        rw [List.filterMap_append] at hpre ⊢
        have hlen := hpre.length_le
        have hlonger : (tr.filterMap f).length < pre.length := by
          by_contra hle
          exact hearlier (List.prefix_of_prefix_length_le hpre (List.prefix_append _ _)
            (Nat.not_lt.mp hle))
        have hes := hone s es s' hstep
        rw [List.length_append] at hlen
        exact (hpre.eq_of_length (by rw [List.length_append]; omega)).symm

/-- **Forward simulation along an abstraction.** When each step from a state of
the invariant `I` is, through `abs`, a run of `V` with the events that are kept,
so is each run. -/
theorem project {V : Lts τ ε} {I : σ → Prop} (abs : σ → τ) (keep : ε → Bool)
    (hstep : ∀ s es s', I s → T s es s' → I s' ∧ Trace V (abs s) (es.filter keep) (abs s'))
    (h0 : I s₀) (h : Trace T s₀ tr s) : I s ∧ Trace V (abs s₀) (tr.filter keep) (abs s) := by
  induction h with
  | refl => exact ⟨h0, .refl⟩
  | tail _ ht ih =>
      obtain ⟨hI, htr⟩ := ih
      obtain ⟨hI', htr'⟩ := hstep _ _ _ hI ht
      refine ⟨hI', ?_⟩
      rw [List.filter_append]
      exact htr.trans htr'

end Trace

/-! ## Events that cannot repeat -/

/-- If no two events satisfying `p` may follow each other, at most one occurs. -/
theorem countP_le_one_of_pairwise {P : ε → ε → Prop} {p : ε → Bool}
    (hp : ∀ e e', p e = true → p e' = true → ¬ P e e') :
    ∀ {tr : List ε}, tr.Pairwise P → tr.countP p ≤ 1
  | [], _ => by simp
  | e :: tr, h => by
      rw [List.pairwise_cons] at h
      have ih := countP_le_one_of_pairwise hp h.2
      by_cases he : p e = true
      · have hnone : tr.countP p = 0 := by
          rw [List.countP_eq_zero]
          exact fun e' he' hpe' => hp e e' he hpe' (h.1 e' he')
        rw [List.countP_cons_of_pos he]
        omega
      · rw [List.countP_cons_of_neg he]
        exact ih

/-! ## What precedes an event -/

/-- `p pre e` holds of each event `e` of the trace and the events before it. -/
def Before (p : List ε → ε → Prop) (tr : List ε) : Prop :=
  ∀ pre e post, tr = pre ++ e :: post → p pre e

section Before

variable {p : List ε → ε → Prop} {e : ε} {tr tr' : List ε}

@[simp] theorem before_nil : Before p [] := by simp [Before]

@[simp] theorem before_cons : Before p (e :: tr) ↔ p [] e ∧ Before (fun pre => p (e :: pre)) tr := by
  constructor
  · intro h
    refine ⟨h [] e tr rfl, fun pre e' post heq => ?_⟩
    exact h (e :: pre) e' post (by rw [heq, List.cons_append])
  · rintro ⟨h0, h⟩ pre e' post heq
    cases pre with
    | nil =>
        obtain ⟨rfl, -⟩ := List.cons.inj heq
        exact h0
    | cons a pre =>
        obtain ⟨rfl, htr⟩ := List.cons.inj heq
        exact h pre e' post htr

instance Before.decidable (p : List ε → ε → Prop) [∀ pre e, Decidable (p pre e)] :
    ∀ tr, Decidable (Before p tr)
  | [] => isTrue before_nil
  | e :: tr =>
      have := Before.decidable (fun pre => p (e :: pre)) tr
      decidable_of_iff _ before_cons.symm

theorem before_append :
    Before p (tr ++ tr') ↔ Before p tr ∧ Before (fun pre => p (tr ++ pre)) tr' := by
  induction tr generalizing p with
  | nil => simp
  | cons e tr ih => simp only [List.cons_append, before_cons, ih, and_assoc]

theorem before_of_forall (h : ∀ e ∈ tr, ∀ pre, p pre e) : Before p tr := by
  rintro pre e post rfl
  exact h e (by simp) pre

end Before

/-! ## Step functions -/

/-- The steps a function computes on the inputs that `ok` admits. -/
def lts (step : σ → α → Option (σ × List ε)) (ok : σ → α → Prop) : Lts σ ε :=
  fun s es s' => ∃ a, ok s a ∧ step s a = some (s', es)

/-- Run a step function on a list of inputs; `none` when one is not enabled. -/
def exec (step : σ → α → Option (σ × List ε)) : σ → List α → Option (σ × List ε)
  | s, [] => some (s, [])
  | s, a :: as =>
      match step s a with
      | none => none
      | some (s', es) => (exec step s' as).map fun r => (r.1, es ++ r.2)

/-- Every input of the list is admitted in the state it arrives in. -/
def okAlong (step : σ → α → Option (σ × List ε)) (ok : σ → α → Prop) : σ → List α → Prop
  | _, [] => True
  | s, a :: as => ok s a ∧
      match step s a with
      | none => True
      | some (s', _) => okAlong step ok s' as

instance okAlong.decidable (step : σ → α → Option (σ × List ε)) (ok : σ → α → Prop)
    [∀ s a, Decidable (ok s a)] : ∀ s as, Decidable (okAlong step ok s as)
  | _, [] => isTrue trivial
  | s, a :: as =>
      have : Decidable (match step s a with
          | none => True
          | some (s', _) => okAlong step ok s' as) :=
        match step s a with
        | none => isTrue trivial
        | some (s', _) => okAlong.decidable step ok s' as
      inferInstanceAs (Decidable (_ ∧ _))

theorem okAlong_of_forall {step : σ → α → Option (σ × List ε)} {ok : σ → α → Prop}
    (h : ∀ s a, ok s a) : ∀ (as : List α) (s : σ), okAlong step ok s as
  | [], _ => trivial
  | a :: as, s => by
      refine ⟨h s a, ?_⟩
      split
      · trivial
      · exact okAlong_of_forall h as _

theorem trace_of_exec {step : σ → α → Option (σ × List ε)} {ok : σ → α → Prop} :
    ∀ {as : List α} {s s' : σ} {tr : List ε}, okAlong step ok s as →
      exec step s as = some (s', tr) → Trace (lts step ok) s tr s'
  | [], s, s', tr, _, h => by
      simp only [exec, Option.some.injEq, Prod.mk.injEq] at h
      obtain ⟨rfl, rfl⟩ := h
      exact .refl
  | a :: as, s, s', tr, hok, h => by
      obtain ⟨ha, hrest⟩ := hok
      cases hs : step s a with
      | none => simp [exec, hs] at h
      | some r =>
          obtain ⟨s₁, es⟩ := r
          rw [hs] at hrest
          simp only [exec, hs, Option.map_eq_some_iff] at h
          obtain ⟨⟨s₂, tr₂⟩, hex, heq⟩ := h
          obtain ⟨rfl, rfl⟩ := Prod.mk.inj heq
          exact (Trace.single ⟨a, ha, hs⟩).trans (trace_of_exec hrest hex)

/-- `J` holds in every state along an input list exactly if each input is admitted, when
`ok` admits the inputs after which `J` still holds. -/
theorem prefixes_iff_okAlong {step : σ → α → Option (σ × List ε)} {ok : σ → α → Prop}
    {I J : σ → Prop} {p : α → Prop} (hJ : ∀ s, I s → J s)
    (hok : ∀ s a, I s → p a → (∀ r, step s a = some r → J r.1) → ok s a)
    (hnext : ∀ s a r, I s → p a → ok s a → step s a = some r → I r.1) :
    ∀ {as : List α} {s : σ}, I s → (∀ a ∈ as, p a) →
      ((∀ pre, pre <+: as → ∀ r, exec step s pre = some r → J r.1) ↔ okAlong step ok s as)
  | [], s, hs, _ => by
      refine iff_of_true (fun pre hpre r hr => ?_) trivial
      obtain rfl := List.prefix_nil.mp hpre
      obtain rfl := Option.some.inj hr
      exact hJ s hs
  | a :: as, s, hs, hp => by
      have ha := hp a List.mem_cons_self
      have hrest := fun b hb => hp b (List.mem_cons_of_mem a hb)
      constructor
      · intro h
        have hfirst : ok s a := by
          refine hok s a hs ha fun r hr => h [a] (by simp) r ?_
          simp [exec, hr]
        refine ⟨hfirst, ?_⟩
        cases hstep : step s a with
        | none => trivial
        | some r =>
            apply (prefixes_iff_okAlong hJ hok hnext (hnext s a r hs ha hfirst hstep) hrest).mp
            intro pre hpre r' hr'
            refine h (a :: pre) (List.cons_prefix_cons.mpr ⟨rfl, hpre⟩) (r'.1, r.2 ++ r'.2) ?_
            simp [exec, hstep, hr']
      · rintro ⟨hfirst, hlater⟩ pre hpre r hr
        cases pre with
        | nil =>
            obtain rfl := Option.some.inj hr
            exact hJ s hs
        | cons b pre =>
            obtain ⟨rfl, hprefix⟩ := List.cons_prefix_cons.mp hpre
            cases hstep : step s b with
            | none => simp [exec, hstep] at hr
            | some r₁ =>
                rw [hstep] at hlater
                simp only [exec, hstep, Option.map_eq_some_iff] at hr
                obtain ⟨r₂, hr₂, rfl⟩ := hr
                exact (prefixes_iff_okAlong hJ hok hnext (hnext s b r₁ hs ha hfirst hstep)
                  hrest).mpr hlater pre hprefix r₂ hr₂

/-- The run of an input list whose every step is enabled. -/
theorem trace_exec (step : σ → α → Option (σ × List ε)) (ok : σ → α → Prop) (s : σ) (as : List α)
    (hok : okAlong step ok s as) (h : (exec step s as).isSome) :
    Trace (lts step ok) s ((exec step s as).get h).2 ((exec step s as).get h).1 :=
  trace_of_exec hok (Option.some_get h).symm

end Bartok.Foundation
