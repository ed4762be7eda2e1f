import Mathlib.Algebra.GroupWithZero.Nat
import Mathlib.Data.List.Infix
import Mathlib.Data.Nat.Notation
import Mathlib.Tactic.Common

/-!
# The longest suffix within a budget

A memory of bounded size keeps the newest elements of a list: as many as the budget
pays for, and the newest one in any case. `keepLoop` finds them by one walk from the end.
-/

namespace Bartok.Foundation

section Budget

variable {α : Type*} (cost : α → ℕ) (budget : ℕ)

/-- What the elements cost together. -/
def totalCost (l : List α) : ℕ := (l.map cost).sum

/-- Within the budget, or a single element whatever it costs. -/
def Affordable (l : List α) : Prop := totalCost cost l ≤ budget ∨ l.length = 1

structure LongestSuffix (l kept : List α) : Prop where
  suffix : kept <:+ l
  nonempty : kept ≠ []
  affordable : Affordable cost budget kept
  maximal : ∀ x, x :: kept <:+ l → budget < cost x + totalCost cost kept

/-- The walk over the elements from the newest to the oldest; whether it stops early. -/
def keepLoop : List α → List α → ℕ → List α × Bool
  | [], kept, _ => (kept, false)
  | x :: older, kept, size =>
      if size + cost x > budget ∧ 0 < kept.length then (kept, true)
      else keepLoop older (x :: kept) (size + cost x)

variable {cost budget} {l kept kept' s older : List α} {x y : α}

@[simp] theorem totalCost_nil : totalCost cost [] = 0 := rfl

@[simp] theorem totalCost_cons : totalCost cost (x :: l) = cost x + totalCost cost l :=
  List.sum_cons

theorem totalCost_append : totalCost cost (s ++ l) = totalCost cost s + totalCost cost l := by
  rw [totalCost, List.map_append, List.sum_append, totalCost, totalCost]

/-- Every affordable suffix is one of the longest. -/
theorem LongestSuffix.greatest (h : LongestSuffix cost budget l kept) (hs : s <:+ l)
    (haffordable : Affordable cost budget s) : s <:+ kept := by
  rcases List.suffix_or_suffix_of_suffix hs h.suffix with hle | ⟨t, rfl⟩
  · exact hle
  · cases t using List.reverseRecOn with
    | nil => exact List.suffix_rfl
    | append_singleton t x =>
        -- one more element is already too much
        exfalso
        have hpos : 0 < kept.length := List.length_pos_of_ne_nil h.nonempty
        rw [List.append_assoc, List.singleton_append] at hs haffordable
        have hover := h.maximal x ((List.suffix_append t _).trans hs)
        rcases haffordable with hfits | hone
        · rw [totalCost_append, totalCost_cons] at hfits
          omega
        · rw [List.length_append, List.length_cons] at hone
          omega

/-- There is only one. -/
theorem LongestSuffix.unique (h : LongestSuffix cost budget l kept)
    (h' : LongestSuffix cost budget l kept') : kept = kept' :=
  List.IsSuffix.eq_of_length_le (h'.greatest h.suffix h.affordable)
    (h.greatest h'.suffix h'.affordable).length_le

/-- The element in front of a suffix is determined by the list. -/
theorem next_older (h : x :: kept <:+ s ++ y :: kept) : x = y := by
  obtain ⟨t, ht⟩ := h
  have happend : (t ++ [x]) ++ kept = (s ++ [y]) ++ kept := by simpa using ht
  have hsplit : t ++ [x] = s ++ [y] := List.append_cancel_right happend
  exact (List.append_inj' hsplit rfl).2 |> List.head_eq_of_cons_eq

/-- The walk finds it, and stops early exactly if it leaves elements out. -/
theorem keepLoop_longest : ∀ {older kept : List α} {size : ℕ}, size = totalCost cost kept →
    (kept ≠ [] → Affordable cost budget kept) → older.reverse ++ kept ≠ [] →
      LongestSuffix cost budget (older.reverse ++ kept) (keepLoop cost budget older kept size).1 ∧
        ((keepLoop cost budget older kept size).2 = true ↔
          (keepLoop cost budget older kept size).1.length < (older.reverse ++ kept).length)
  | [], kept, size, _, hkept, hne => by
      refine ⟨⟨List.suffix_rfl, hne, hkept hne, fun x hx => ?_⟩, by simp [keepLoop]⟩
      exact absurd hx.length_le (by simp [keepLoop])
  | x :: older, kept, size, hsize, hkept, _ => by
      have hsplit : (x :: older).reverse ++ kept = older.reverse ++ x :: kept := by simp
      rw [hsplit, keepLoop]
      split
      · next hstop =>
          obtain ⟨hover, hpos⟩ := hstop
          have hne : kept ≠ [] := List.length_pos_iff.mp hpos
          refine ⟨⟨⟨older.reverse ++ [x], by simp⟩, hne, hkept hne, fun x' hx' => ?_⟩, ?_⟩
          · obtain rfl := next_older hx'
            rw [Nat.add_comm, ← hsize]
            exact hover
          · refine iff_of_true rfl (show kept.length < _ from ?_)
            rw [List.length_append, List.length_cons]
            omega
      · next hgo =>
          refine keepLoop_longest (by rw [totalCost_cons, hsize, Nat.add_comm]) (fun _ => ?_) (by simp)
          rw [not_and', Nat.not_lt] at hgo
          rcases Nat.eq_zero_or_pos kept.length with hzero | hpos
          · exact .inr (by rw [List.length_cons, hzero])
          · refine .inl ?_
            rw [totalCost_cons, Nat.add_comm, ← hsize]
            exact hgo hpos

end Budget

end Bartok.Foundation
