import Mathlib.Data.Finset.Basic
import Mathlib.Order.Interval.Finset.Nat

/-!
# Positions of a text

A text of which some positions are shown. Two texts that agree on these positions show
the same, whatever stands elsewhere.
-/

namespace Bartok.Foundation

variable {α : Type*}

/-- A range of positions. -/
structure Span where
  start : ℕ
  stop : ℕ
deriving DecidableEq

namespace Span

def positions (s : Span) : Finset ℕ := Finset.Ico s.start s.stop

/-- What stands there. -/
def text (s : Span) (b : List α) : List α := (b.drop s.start).take (s.stop - s.start)

theorem mem_positions {s : Span} {i : ℕ} : i ∈ s.positions ↔ s.start ≤ i ∧ i < s.stop :=
  Finset.mem_Ico

theorem getElem?_text (s : Span) (b : List α) (i : ℕ) :
    (s.text b)[i]? = if i < s.stop - s.start then b[s.start + i]? else none := by
  rw [text, List.getElem?_take]
  split_ifs with hi
  · rw [List.getElem?_drop]
  · rfl

theorem text_append (a b c : List α) :
    (Span.mk a.length (a.length + b.length)).text (a ++ (b ++ c)) = b := by
  rw [text, List.drop_left, Nat.add_sub_cancel_left, List.take_left]

end Span

/-- The two texts hold the same at each of these positions. -/
def AgreeOn (b b' : List α) (s : Finset ℕ) : Prop := Set.EqOn (b[·]?) (b'[·]?) (s : Set ℕ)

/-- All the positions of these sets. -/
def allOf (sets : List (Finset ℕ)) : Finset ℕ := sets.foldl (· ∪ ·) ∅

/-- Each element of a text that begins at `k`, and whether it is shown. -/
def shownFrom (s : Finset ℕ) (k : ℕ) (b : List α) : List (α × Bool) :=
  b.mapIdx fun i x => (x, decide (k + i ∈ s))

section Agree

variable {b b' : List α} {s s' : Finset ℕ} {sets : List (Finset ℕ)}

theorem AgreeOn.mono (h : AgreeOn b b' s) (hs : s' ⊆ s) : AgreeOn b b' s' :=
  Set.EqOn.mono (Finset.coe_subset.mpr hs) h

theorem AgreeOn.text {s : Span} (h : AgreeOn b b' s.positions) : s.text b = s.text b' := by
  refine List.ext_getElem? fun i => ?_
  rw [Span.getElem?_text, Span.getElem?_text]
  split_ifs with hi
  · exact h (Finset.mem_coe.mpr (Span.mem_positions.mpr (by omega)))
  · rfl

instance [DecidableEq α] : Decidable (AgreeOn b b' s) :=
  inferInstanceAs (Decidable (∀ i ∈ s, b[i]? = b'[i]?))

theorem mem_foldl_union {i : ℕ} :
    i ∈ sets.foldl (· ∪ ·) s ↔ i ∈ s ∨ ∃ t ∈ sets, i ∈ t := by
  induction sets generalizing s with
  | nil => simp
  | cons t sets ih => rw [List.foldl_cons, ih, Finset.mem_union, List.exists_mem_cons_iff, or_assoc]

theorem mem_allOf {i : ℕ} : i ∈ allOf sets ↔ ∃ s ∈ sets, i ∈ s := by
  rw [allOf, mem_foldl_union]
  simp

theorem agreeOn_allOf : AgreeOn b b' (allOf sets) ↔ ∀ s ∈ sets, AgreeOn b b' s := by
  constructor
  · intro h s hs
    exact h.mono fun i hi => mem_allOf.mpr ⟨s, hs, hi⟩
  · intro h i hi
    obtain ⟨s, hs, hi⟩ := mem_allOf.mp (Finset.mem_coe.mp hi)
    exact h s hs hi

end Agree

section Shown

variable {a b c : List α} {s : Finset ℕ} {k : ℕ}

theorem shownFrom_append :
    shownFrom s k (a ++ b) = shownFrom s k a ++ shownFrom s (k + a.length) b := by
  simp [shownFrom, List.mapIdx_append, Nat.add_left_comm, Nat.add_comm]

/-- A part that is shown as a whole, or not at all. -/
theorem shownFrom_all {shown : Bool}
    (h : ∀ i, k ≤ i → i < k + b.length → (i ∈ s ↔ shown = true)) :
    shownFrom s k b = b.map (·, shown) := by
  apply List.ext_getElem
  · simp [shownFrom]
  · intro i hi _
    have hlt : i < b.length := by simpa [shownFrom] using hi
    have hshown := h (k + i) (Nat.le_add_right k i) (Nat.add_lt_add_left hlt k)
    simp [shownFrom, hshown]

/-- A text of three parts, of which the middle one is shown or none is. -/
theorem shownFrom_middle {shown : Bool}
    (h : ∀ i, k ≤ i → i < k + a.length + b.length + c.length →
      (i ∈ s ↔ shown = true ∧ k + a.length ≤ i ∧ i < k + a.length + b.length)) :
    shownFrom s k (a ++ (b ++ c)) = a.map (·, false) ++ (b.map (·, shown) ++ c.map (·, false)) := by
  have ha : shownFrom s k a = a.map (·, false) := by
    apply shownFrom_all
    intro i hi hlt
    rw [h i hi (by omega)]
    simp
    omega
  have hb : shownFrom s (k + a.length) b = b.map (·, shown) := by
    apply shownFrom_all
    intro i hi hlt
    rw [h i (by omega) (by omega)]
    exact and_iff_left ⟨hi, hlt⟩
  have hc : shownFrom s (k + a.length + b.length) c = c.map (·, false) := by
    apply shownFrom_all
    intro i hi hlt
    rw [h i (by omega) hlt]
    simp
    omega
  rw [shownFrom_append, shownFrom_append, ha, hb, hc]

end Shown

end Bartok.Foundation
