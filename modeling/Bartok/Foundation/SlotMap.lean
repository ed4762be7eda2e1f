import Mathlib.Data.List.Nodup
import Mathlib.Logic.Basic

/-!
# Insertion-ordered maps with live iteration

A map keeps its entries in the order they were inserted. Deleting an entry only
marks its slot: an iterator that walks the slots by position skips it, and code
that still holds a reference to the entry's object can go on reading and
writing it. Keys are never reused, which the `nodup` field records.

`slot?` is the one observation the lemmas below speak about: it finds the slot
of a key, whether the entry is still in the map or not.
-/

namespace Bartok.Foundation

variable {κ ν : Type*}

/-- One entry: its object, and whether the map still contains it. -/
structure Slot (κ ν : Type*) where
  key : κ
  val : ν
  live : Bool
deriving DecidableEq

structure SlotMap (κ ν : Type*) where
  slots : List (Slot κ ν)
  nodup : (slots.map Slot.key).Nodup

namespace SlotMap

def empty : SlotMap κ ν := ⟨[], List.nodup_nil⟩

def keys (m : SlotMap κ ν) : List κ := m.slots.map Slot.key

section Decidable

variable [DecidableEq κ]

/-- The slot of `k`, deleted or not. -/
def slot? (m : SlotMap κ ν) (k : κ) : Option (Slot κ ν) :=
  m.slots.find? fun s => s.key = k

/-- The object inserted under `k`, also after its deletion. -/
def obj? (m : SlotMap κ ν) (k : κ) : Option ν := (m.slot? k).map Slot.val

/-- What the map answers for `k`: nothing once the entry is deleted. -/
def get? (m : SlotMap κ ν) (k : κ) : Option ν :=
  (m.slot? k).bind fun s => if s.live then some s.val else none

/-- Insert under a key that was never used. -/
def push (m : SlotMap κ ν) (k : κ) (v : ν) : SlotMap κ ν :=
  if h : k ∈ m.keys then m
  else ⟨m.slots ++ [⟨k, v, true⟩], by
    rw [List.map_append]
    exact m.nodup.append (List.nodup_singleton k) (by simpa [keys] using h)⟩

/-- Apply `f` to every slot; no slot's key changes. -/
def mapSlots (m : SlotMap κ ν) (f : Slot κ ν → Slot κ ν) (hf : ∀ s, (f s).key = s.key) :
    SlotMap κ ν :=
  ⟨m.slots.map f, by
    have : (m.slots.map f).map Slot.key = m.slots.map Slot.key := by
      simp [Function.comp_def, hf]
    rw [this]
    exact m.nodup⟩

/-- Write to the object of `k`. -/
def modify (m : SlotMap κ ν) (k : κ) (f : ν → ν) : SlotMap κ ν :=
  m.mapSlots (fun s => if s.key = k then { s with val := f s.val } else s)
    (fun s => by split <;> rfl)

def delete (m : SlotMap κ ν) (k : κ) : SlotMap κ ν :=
  m.mapSlots (fun s => if s.key = k then { s with live := false } else s)
    (fun s => by split <;> rfl)

end Decidable

/-- The slots that satisfy `p`. -/
def filterSlots (m : SlotMap κ ν) (p : Slot κ ν → Bool) : SlotMap κ ν :=
  ⟨m.slots.filter p, (List.filter_sublist.map Slot.key).nodup m.nodup⟩

/-- The entries still in the map, in a fresh map: what a copy by value holds. -/
def compact (m : SlotMap κ ν) : SlotMap κ ν := m.filterSlots Slot.live

/-- The first live slot at position `i` or later whose object satisfies `p`. -/
def next? (m : SlotMap κ ν) (i : ℕ) (p : ν → Bool) : Option (Slot κ ν × ℕ) :=
  (m.slots.zipIdx.drop i).find? fun x => x.1.live && p x.1.val

/-! ## Reading a slot after an operation -/

section Lemmas

variable [DecidableEq κ] {m : SlotMap κ ν} {k k' : κ} {v : ν} {f : ν → ν} {s : Slot κ ν}

theorem slot?_key (h : m.slot? k = some s) : s.key = k := by
  simpa using List.find?_some h

theorem slot?_mem (h : m.slot? k = some s) : s ∈ m.slots := List.mem_of_find?_eq_some h

theorem slot?_eq_none : m.slot? k = none ↔ k ∉ m.keys := by
  simp only [slot?, keys, List.find?_eq_none, List.mem_map, decide_eq_true_eq]
  grind

/-- Keys are unique, so a slot of the list is the one found under its key. -/
theorem slot?_of_mem : s ∈ m.slots → m.slot? s.key = some s := by
  obtain ⟨slots, nodup⟩ := m
  simp only [slot?]
  induction slots with
  | nil => simp
  | cons a rest ih =>
      rw [List.map_cons, List.nodup_cons] at nodup
      intro hs
      rcases List.mem_cons.mp hs with rfl | hs
      · simp
      · have hne : a.key ≠ s.key := by
          intro heq
          exact nodup.1 (heq ▸ List.mem_map_of_mem hs)
        rw [List.find?_cons_of_neg (by simpa using hne)]
        exact ih nodup.2 hs

theorem slot?_mapSlots {g : Slot κ ν → Slot κ ν} (hg : ∀ s, (g s).key = s.key) :
    (m.mapSlots g hg).slot? k = (m.slot? k).map g := by
  have hkey : (fun s : Slot κ ν => decide (s.key = k)) ∘ g = fun s => decide (s.key = k) :=
    funext fun s => by simp [hg]
  show (m.slots.map g).find? (fun s => decide (s.key = k)) = _
  rw [List.find?_map, hkey]
  rfl

/-- A write to the slot of one key is seen under that key only. -/
theorem slot?_mapSlots_ite {g : Slot κ ν → Slot κ ν}
    (hg : ∀ s : Slot κ ν, (if s.key = k then g s else s).key = s.key) :
    (m.mapSlots (fun s => if s.key = k then g s else s) hg).slot? k' =
      if k' = k then (m.slot? k).map g else m.slot? k' := by
  rw [slot?_mapSlots]
  by_cases h : k' = k
  · subst h
    rw [if_pos rfl]
    exact Option.map_congr fun s hs => by rw [if_pos (slot?_key hs)]
  · rw [if_neg h]
    refine (Option.map_congr (g := id) fun s hs => ?_).trans (by simp)
    rw [if_neg (by rw [slot?_key hs]; exact h), id]

@[simp] theorem slot?_modify :
    (m.modify k f).slot? k' =
      if k' = k then (m.slot? k).map (fun s => { s with val := f s.val })
      else m.slot? k' :=
  slot?_mapSlots_ite _

@[simp] theorem slot?_delete :
    (m.delete k).slot? k' =
      if k' = k then (m.slot? k).map (fun s => { s with live := false })
      else m.slot? k' :=
  slot?_mapSlots_ite _

theorem slot?_push (h : m.slot? k = none) :
    (m.push k v).slot? k' = if k' = k then some ⟨k, v, true⟩ else m.slot? k' := by
  have hk : k ∉ m.keys := slot?_eq_none.mp h
  rw [push, dif_neg hk]
  simp only [slot?, List.find?_append] at h ⊢
  by_cases hkk : k' = k
  · subst hkk
    simp [h]
  · simp [hkk, Ne.symm hkk]

theorem slot?_filterSlots {p : Slot κ ν → Bool} :
    (m.filterSlots p).slot? k = (m.slot? k).filter p := by
  have hmem : ∀ s, s ∈ (m.filterSlots p).slots ↔ s ∈ m.slots ∧ p s = true :=
    fun s => List.mem_filter
  cases h : m.slot? k with
  | none =>
      rw [slot?_eq_none] at h
      rw [Option.filter_none, slot?_eq_none]
      intro hk
      obtain ⟨s, hs, rfl⟩ := List.mem_map.mp hk
      exact h (List.mem_map_of_mem ((hmem s).mp hs).1)
  | some s =>
      have hkey := slot?_key h
      subst hkey
      cases hp : p s with
      | true =>
          rw [slot?_of_mem ((hmem s).mpr ⟨slot?_mem h, hp⟩), Option.filter_some, if_pos hp]
      | false =>
          rw [Option.filter_some, if_neg (by simp [hp]), slot?_eq_none]
          intro hk
          obtain ⟨s', hs', hkey⟩ := List.mem_map.mp hk
          obtain ⟨hs', hp'⟩ := (hmem s').mp hs'
          have hslot := slot?_of_mem hs'
          rw [hkey, h] at hslot
          rw [← Option.some.inj hslot, hp] at hp'
          cases hp'

theorem slot?_compact : m.compact.slot? k = (m.slot? k).filter Slot.live := slot?_filterSlots

theorem get?_eq_some : m.get? k = some v ↔ ∃ s, m.slot? k = some s ∧ s.live = true ∧ s.val = v := by
  simp only [get?, Option.bind_eq_some_iff]
  constructor
  · rintro ⟨s, hs, h⟩
    by_cases hl : s.live = true
    · exact ⟨s, hs, hl, by simpa [hl] using h⟩
    · simp [hl] at h
  · rintro ⟨s, hs, hl, rfl⟩
    exact ⟨s, hs, by simp [hl]⟩

theorem get?_eq_none (h : m.slot? k = some s) : m.get? k = none ↔ s.live = false := by
  simp [get?, h]

theorem get?_modify : (m.modify k f).get? k' =
    if k' = k then (m.get? k').map f else m.get? k' := by
  simp only [get?, slot?_modify]
  split
  · next h =>
      subst h
      cases m.slot? k' with
      | none => rfl
      | some s => cases hs : s.live <;> simp [hs]
  · rfl

theorem get?_delete : (m.delete k).get? k = none := by
  simp only [get?, slot?_delete, if_pos]
  cases m.slot? k <;> rfl

theorem get?_compact : m.compact.get? k = m.get? k := by
  simp only [get?, slot?_compact]
  cases m.slot? k with
  | none => rfl
  | some s => cases hlive : s.live <;> simp [Option.filter, hlive]

theorem modify_modify {g : ν → ν} : (m.modify k f).modify k g = m.modify k (g ∘ f) := by
  simp only [modify, mapSlots, List.map_map]
  congr 1
  apply List.map_congr_left
  intro s _
  by_cases h : s.key = k <;> simp [h]

/-! ## Positions and iteration

A key keeps its position, whatever is written, deleted or inserted. -/

@[simp] theorem keys_modify : (m.modify k f).keys = m.keys := by
  simp only [modify, mapSlots, keys, List.map_map]
  exact List.map_congr_left fun s _ => by simp only [Function.comp]; split <;> rfl

@[simp] theorem keys_delete : (m.delete k).keys = m.keys := by
  simp only [delete, mapSlots, keys, List.map_map]
  exact List.map_congr_left fun s _ => by simp only [Function.comp]; split <;> rfl

theorem keys_push : m.keys <+: (m.push k v).keys := by
  rw [push]
  split
  · exact List.prefix_rfl
  · simp [keys]

/-- The entry at a key's position is the entry of the key. -/
theorem slots_getElem? {j : ℕ} (hj : m.keys[j]? = some k) : m.slots[j]? = m.slot? k := by
  rw [keys, List.getElem?_map, Option.map_eq_some_iff] at hj
  obtain ⟨s, hs, rfl⟩ := hj
  rw [hs, slot?_of_mem (List.mem_of_getElem? hs)]

variable {p : ν → Bool} {i j : ℕ}

/-- The iterator answers an entry it may visit, at its position. -/
theorem next?_some (h : m.next? i p = some (s, j)) :
    m.keys[j]? = some s.key ∧ m.slot? s.key = some s ∧ s.live = true ∧ p s.val = true := by
  have hmem := List.mem_of_mem_drop (List.mem_of_find?_eq_some h)
  have hslot := List.mem_zipIdx_iff_getElem?.mp hmem
  have hp := List.find?_some h
  rw [Bool.and_eq_true] at hp
  refine ⟨?_, slot?_of_mem (List.mem_of_getElem? hslot), hp⟩
  rw [keys, List.getElem?_map, hslot]
  rfl

/-- The iterator passes no entry that it may visit. -/
theorem next?_le (hj : m.keys[j]? = some k) (hs : m.slot? k = some s) (hlive : s.live = true)
    (hp : p s.val = true) (hi : i ≤ j) : ∃ s' j', m.next? i p = some (s', j') ∧ j' ≤ j := by
  have hslot : m.slots[j]? = some s := (slots_getElem? hj).trans hs
  have hget : (m.slots.zipIdx.drop i)[j - i]? = some (s, j) := by
    rw [List.getElem?_drop, List.getElem?_zipIdx, Nat.add_sub_cancel' hi, hslot]
    simp
  obtain ⟨hlt, hget⟩ := List.getElem?_eq_some_iff.mp hget
  rw [next?]
  cases h : (m.slots.zipIdx.drop i).find? fun x => x.1.live && p x.1.val with
  | none =>
      have := List.find?_eq_none.mp h (s, j) (hget ▸ List.getElem_mem hlt)
      simp [hlive, hp] at this
  | some x =>
      refine ⟨x.1, x.2, rfl, ?_⟩
      rw [List.find?_eq_some_iff_getElem] at h
      obtain ⟨-, n, hn, hx, hfirst⟩ := h
      have hxj : x.2 = i + n := by
        rw [List.getElem_drop, List.getElem_zipIdx] at hx
        rw [← hx]
        simp
      by_contra hlate
      have := hfirst (j - i) (by omega)
      rw [hget] at this
      simp [hlive, hp] at this

omit [DecidableEq κ] in
theorem next?_ge (h : m.next? i p = some (s, j)) : i ≤ j := by
  obtain ⟨n, hn⟩ := List.mem_iff_getElem?.mp (List.mem_of_find?_eq_some h)
  rw [List.getElem?_drop, List.getElem?_zipIdx, Option.map_eq_some_iff] at hn
  obtain ⟨_, _, hx⟩ := hn
  have := congrArg Prod.snd hx
  simp only [Nat.zero_add] at this
  omega

end Lemmas

end SlotMap

end Bartok.Foundation
