import Bartok.Foundation.SlotMap
import Mathlib.Algebra.BigOperators.Group.List.Basic
import Mathlib.Algebra.Order.BigOperators.Group.List
import Mathlib.Algebra.Order.Ring.Nat

/-!
# Sums over a slot map

A sum over every entry that was ever inserted, in the map or not. Deleting an entry
does not change it, a write changes it by what it adds to the one object, and a copy of
some of the entries has no more.
-/

namespace Bartok.Foundation

namespace SlotMap

variable {κ ν : Type*} {m : SlotMap κ ν} {f : ν → ℕ}

def total (m : SlotMap κ ν) (f : ν → ℕ) : ℕ := (m.slots.map fun s => f s.val).sum

@[simp] theorem total_empty : (empty : SlotMap κ ν).total f = 0 := rfl

theorem total_filterSlots_le {p : Slot κ ν → Bool} : (m.filterSlots p).total f ≤ m.total f :=
  (List.filter_sublist.map fun s : Slot κ ν => f s.val).sum_le_sum fun _ _ => Nat.zero_le _

theorem total_compact_le : m.compact.total f ≤ m.total f := total_filterSlots_le

section Decidable

variable [DecidableEq κ] {k : κ} {v : ν} {g : ν → ν} {s : Slot κ ν}

theorem total_push (h : m.slot? k = none) : (m.push k v).total f = m.total f + f v := by
  rw [push, dif_neg (slot?_eq_none.mp h), total]
  simp [total]

omit [DecidableEq κ] in
theorem total_mapSlots {h : Slot κ ν → Slot κ ν} (hkey : ∀ s, (h s).key = s.key)
    (hval : ∀ s ∈ m.slots, f (h s).val = f s.val) : (m.mapSlots h hkey).total f = m.total f := by
  show ((m.slots.map h).map fun s => f s.val).sum = _
  rw [List.map_map]
  exact congrArg List.sum (List.map_congr_left hval)

@[simp] theorem total_delete : (m.delete k).total f = m.total f := by
  apply total_mapSlots
  intro s _
  split <;> rfl

theorem total_modify_of_eq (hg : ∀ v, f (g v) = f v) : (m.modify k g).total f = m.total f := by
  apply total_mapSlots
  intro s _
  split
  · exact hg s.val
  · rfl

/-- A write that adds to one object adds as much to the sum. -/
theorem total_modify {n : ℕ} (h : m.slot? k = some s) (hg : f (g s.val) = f s.val + n) :
    (m.modify k g).total f = m.total f + n := by
  obtain ⟨slots, nodup⟩ := m
  induction slots with
  | nil => cases h
  | cons a rest ih =>
      rw [List.map_cons, List.nodup_cons] at nodup
      have hsum : ∀ l : List (Slot κ ν), ∀ hl, (SlotMap.modify ⟨l, hl⟩ k g).total f =
          ((l.map fun s => if s.key = k then { s with val := g s.val } else s).map
            fun s => f s.val).sum := fun _ _ => rfl
      rw [hsum]
      by_cases hk : a.key = k
      · have hself : (⟨a :: rest, List.nodup_cons.mpr nodup⟩ : SlotMap κ ν).slot? k = some a := by
          simp [slot?, hk]
        obtain rfl : a = s := Option.some.inj (hself.symm.trans h)
        have hrest : rest.map (fun s => if s.key = k then { s with val := g s.val } else s) =
            rest := by
          refine (List.map_congr_left fun s hs => if_neg ?_).trans (List.map_id' rest)
          rintro rfl
          exact nodup.1 (hk ▸ List.mem_map_of_mem hs)
        simp only [List.map_cons, if_pos hk, hrest, List.sum_cons, hg, total]
        omega
      · have hrest : (⟨rest, nodup.2⟩ : SlotMap κ ν).slot? k = some s := by
          simpa [slot?, hk] using h
        have hlater := ih nodup.2 hrest
        rw [hsum] at hlater
        simp only [List.map_cons, if_neg hk, List.sum_cons, total] at hlater ⊢
        omega

end Decidable

end SlotMap

end Bartok.Foundation
