import Mathlib.Data.List.Nodup
import Mathlib.Data.Nat.Notation
import Mathlib.Tactic.Common

/-!
# Insertion-ordered maps

The entries of a map in the order in which their keys came. Setting an entry leaves it in
its place, so that the order says nothing about when an entry was last used. The oldest
entries are taken away at the front.
-/

namespace Bartok.Foundation

variable {κ ν : Type*}

structure OrderedMap (κ ν : Type*) where
  entries : List (κ × ν)
  nodup : (entries.map Prod.fst).Nodup

namespace OrderedMap

def empty : OrderedMap κ ν := ⟨[], List.nodup_nil⟩

def keys (m : OrderedMap κ ν) : List κ := m.entries.map Prod.fst

def size (m : OrderedMap κ ν) : ℕ := m.entries.length

/-- Without the first `n` entries. -/
def dropFirst (m : OrderedMap κ ν) (n : ℕ) : OrderedMap κ ν :=
  ⟨m.entries.drop n, by
    rw [List.map_drop]
    exact m.nodup.sublist (List.drop_sublist _ _)⟩

theorem length_keys (m : OrderedMap κ ν) : m.keys.length = m.size := List.length_map _

section Decidable

variable [DecidableEq κ] {k k' : κ} {v : ν} {es : List (κ × ν)} {m : OrderedMap κ ν} {n : ℕ}

def setEntry (k : κ) (v : ν) : List (κ × ν) → List (κ × ν)
  | [] => [(k, v)]
  | (k', v') :: es => if k' = k then (k, v) :: es else (k', v') :: setEntry k v es

theorem keys_setEntry : (setEntry k v es).map Prod.fst =
    if k ∈ es.map Prod.fst then es.map Prod.fst else es.map Prod.fst ++ [k] := by
  induction es with
  | nil => rfl
  | cons e es ih =>
      obtain ⟨k', v'⟩ := e
      rw [setEntry]
      by_cases hk : k' = k
      · simp [hk]
      · rw [if_neg hk, List.map_cons, ih]
        have hne : k ≠ k' := fun h => hk h.symm
        by_cases hmem : k ∈ es.map Prod.fst <;> simp [hmem, hne]

theorem nodup_setEntry (h : (es.map Prod.fst).Nodup) : ((setEntry k v es).map Prod.fst).Nodup := by
  rw [keys_setEntry]
  split
  · exact h
  · next hnew => exact h.append (List.nodup_singleton k) (by simpa using hnew)

theorem lookup_cons_if {e : κ × ν} :
    (e :: es).lookup k' = if k' = e.1 then some e.2 else es.lookup k' := by
  rw [List.lookup_cons]
  by_cases h : k' = e.1
  · rw [beq_iff_eq.mpr h, if_pos h]
  · rw [beq_eq_false_iff_ne.mpr h, if_neg h]

theorem lookup_setEntry :
    (setEntry k v es).lookup k' = if k' = k then some v else es.lookup k' := by
  induction es with
  | nil => exact lookup_cons_if
  | cons e es ih =>
      obtain ⟨k₁, v₁⟩ := e
      rw [setEntry]
      by_cases hk : k₁ = k
      · subst hk
        rw [if_pos rfl, lookup_cons_if, lookup_cons_if]
        by_cases hk' : k' = k₁ <;> simp [hk']
      · rw [if_neg hk, lookup_cons_if, lookup_cons_if, ih]
        by_cases hk' : k' = k₁
        · simp [hk', hk]
        · simp [hk']

def get? (m : OrderedMap κ ν) (k : κ) : Option ν := m.entries.lookup k

def set (m : OrderedMap κ ν) (k : κ) (v : ν) : OrderedMap κ ν :=
  ⟨setEntry k v m.entries, nodup_setEntry m.nodup⟩

theorem keys_set : (m.set k v).keys = if k ∈ m.keys then m.keys else m.keys ++ [k] := keys_setEntry

theorem size_set : (m.set k v).size = if k ∈ m.keys then m.size else m.size + 1 := by
  rw [← length_keys, keys_set]
  split
  · exact length_keys m
  · rw [List.length_append, length_keys, List.length_singleton]

/-- A new key comes after those that are there. -/
theorem take_keys_set (h : n ≤ m.size) : (m.set k v).keys.take n = m.keys.take n := by
  rw [keys_set]
  split
  · rfl
  · exact List.take_append_of_le_length (by rw [length_keys]; exact h)

theorem get?_set : (m.set k v).get? k' = if k' = k then some v else m.get? k' := lookup_setEntry

theorem get?_eq_none : m.get? k = none ↔ k ∉ m.keys := by
  rw [get?, List.lookup_eq_none_iff, keys, List.mem_map]
  constructor
  · rintro h ⟨e, he, rfl⟩
    simpa using h e he
  · intro h e he
    simp only [bne_iff_ne, ne_eq]
    rintro rfl
    exact h ⟨e, he, rfl⟩

/-- An entry among the first is gone, and the others are as before. -/
theorem get?_dropFirst : (m.dropFirst n).get? k =
    if k ∈ m.keys.take n then none else m.get? k := by
  rw [keys, ← List.map_take]
  have hsplit : m.entries.take n ++ m.entries.drop n = m.entries := List.take_append_drop _ _
  have hkeys : ((m.entries.take n).map Prod.fst ++ (m.entries.drop n).map Prod.fst).Nodup := by
    rw [← List.map_append, hsplit]
    exact m.nodup
  split
  · next hmem => exact get?_eq_none.mpr fun hrest => List.disjoint_of_nodup_append hkeys hmem hrest
  · next hmem =>
      let front : OrderedMap κ ν := ⟨m.entries.take n, (List.nodup_append.mp hkeys).1⟩
      have hnone : front.get? k = none := get?_eq_none.mpr hmem
      rw [get?] at hnone
      rw [get?, get?, ← hsplit, List.lookup_append, hnone]
      simp [dropFirst]

end Decidable

end OrderedMap

end Bartok.Foundation
