import Bartok.Foundation.Trace
import Mathlib.Data.List.Induction

/-!
# One at a time, in turn

What a queue of tasks promises to the ones who call it. A task is called, started, ended
with an outcome and answered, and has the number of its call. The events of a run are in
turn when each task that starts is the first that was called and has not started, and
starts when all the others that started have ended, and each caller is told the outcome of
its own task, after those who called before.
-/

namespace Bartok.Foundation

variable {τ ω : Type*}

inductive Turn (τ ω : Type*)
  | called (task : τ)
  | started (k : ℕ) (task : τ)
  | ended (k : ℕ) (outcome : ω)
  | answered (k : ℕ) (outcome : ω)
deriving DecidableEq

namespace Turn

@[simp] def call? : Turn τ ω → Option τ
  | called t => some t
  | _ => none

@[simp] def start? : Turn τ ω → Option τ
  | started _ t => some t
  | _ => none

@[simp] def end? : Turn τ ω → Option ω
  | ended _ o => some o
  | _ => none

@[simp] def answer? : Turn τ ω → Option ω
  | answered _ o => some o
  | _ => none

def calls (tr : List (Turn τ ω)) : List τ := tr.filterMap call?

def starts (tr : List (Turn τ ω)) : List τ := tr.filterMap start?

def ends (tr : List (Turn τ ω)) : List ω := tr.filterMap end?

def answers (tr : List (Turn τ ω)) : List ω := tr.filterMap answer?

/-- The event may follow these. -/
def InTurn (pre : List (Turn τ ω)) : Turn τ ω → Prop
  | called _ => True
  | started k t => k = (starts pre).length ∧ (calls pre)[k]? = some t ∧ (ends pre).length = k
  | ended k _ => k = (ends pre).length ∧ (starts pre).length = k + 1
  | answered k o => k = (answers pre).length ∧ (ends pre)[k]? = some o

section Lists

variable {tr tr' : List (Turn τ ω)}

@[simp] theorem calls_append : calls (tr ++ tr') = calls tr ++ calls tr' :=
  List.filterMap_append

@[simp] theorem starts_append : starts (tr ++ tr') = starts tr ++ starts tr' :=
  List.filterMap_append

@[simp] theorem ends_append : ends (tr ++ tr') = ends tr ++ ends tr' :=
  List.filterMap_append

@[simp] theorem answers_append : answers (tr ++ tr') = answers tr ++ answers tr' :=
  List.filterMap_append

theorem prefix_concat_of_getElem? {α : Type*} {l l' : List α} {a : α} (h : l <+: l')
    (ha : l'[l.length]? = some a) : l ++ [a] <+: l' := by
  obtain ⟨rest, rfl⟩ := h
  cases rest with
  | nil => simp at ha
  | cons b rest =>
      obtain rfl : b = a := by simpa using ha
      exact ⟨rest, by simp⟩

/-- **In turn.** The tasks start in the order of the calls, the answers come in the order
of the outcomes, and at most one task that has started has not ended. -/
theorem inTurn_run (h : Before InTurn tr) :
    starts tr <+: calls tr ∧ answers tr <+: ends tr ∧
      (ends tr).length ≤ (starts tr).length ∧ (starts tr).length ≤ (ends tr).length + 1 := by
  induction tr using List.reverseRecOn with
  | nil => simp [starts, calls, answers, ends]
  | append_singleton tr e ih =>
      obtain ⟨hpre, hlast⟩ := before_append.mp h
      obtain ⟨hstarts, hanswers, hle, hge⟩ := ih hpre
      have hturn : InTurn tr e := by simpa using (before_cons.mp hlast).1
      simp only [calls_append, starts_append, ends_append, answers_append, List.length_append]
      cases e with
      | called t =>
          show starts tr ++ [] <+: calls tr ++ [t] ∧ answers tr ++ [] <+: ends tr ++ [] ∧ _
          simp only [List.append_nil]
          exact ⟨hstarts.trans (List.prefix_append _ _), hanswers, hle, hge⟩
      | started k t =>
          obtain ⟨rfl, hcall, hlen⟩ := hturn
          show starts tr ++ [t] <+: calls tr ++ [] ∧ answers tr ++ [] <+: ends tr ++ [] ∧
            (ends tr).length + 0 ≤ (starts tr).length + 1 ∧
              (starts tr).length + 1 ≤ (ends tr).length + 0 + 1
          simp only [List.append_nil]
          exact ⟨prefix_concat_of_getElem? hstarts hcall, hanswers, by omega, by omega⟩
      | ended k o =>
          obtain ⟨rfl, hlen⟩ := hturn
          show starts tr ++ [] <+: calls tr ++ [] ∧ answers tr ++ [] <+: ends tr ++ [o] ∧
            (ends tr).length + 1 ≤ (starts tr).length + 0 ∧
              (starts tr).length + 0 ≤ (ends tr).length + 1 + 1
          simp only [List.append_nil]
          exact ⟨hstarts, hanswers.trans (List.prefix_append _ _), by omega, by omega⟩
      | answered k o =>
          obtain ⟨rfl, hend⟩ := hturn
          show starts tr ++ [] <+: calls tr ++ [] ∧ answers tr ++ [o] <+: ends tr ++ [] ∧ _
          simp only [List.append_nil]
          exact ⟨hstarts, prefix_concat_of_getElem? hanswers hend, hle, hge⟩

end Lists

end Turn

end Bartok.Foundation
