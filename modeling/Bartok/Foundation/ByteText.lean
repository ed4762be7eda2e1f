import Bartok.Foundation.JsonCompact

/-!
# Texts by byte offsets

Rust finds and slices in a string by the offsets of its bytes, and a slice that does not
end between two characters panics. An offset that is the length of what stands in front
never does.
-/

namespace Bartok.Foundation

namespace Text

open Json (byteLength byteLength_append byteLength_cons)

/-- `s.find(pat)`. -/
def find? (pat : Text) : Text → Option ℕ
  | [] => if pat = [] then some 0 else none
  | c :: s => if pat.isPrefixOf (c :: s) then some 0 else (find? pat s).map (byteLength [c] + ·)

/-- `&s[n..]`. -/
def sliceFrom? : Text → ℕ → Option Text
  | s, 0 => some s
  | [], _ + 1 => none
  | c :: s, n + 1 => if byteLength [c] ≤ n + 1 then sliceFrom? s (n + 1 - byteLength [c]) else none

/-- `&s[..n]`. -/
def sliceTo? : Text → ℕ → Option Text
  | _, 0 => some []
  | [], _ + 1 => none
  | c :: s, n + 1 =>
      if byteLength [c] ≤ n + 1 then (sliceTo? s (n + 1 - byteLength [c])).map (c :: ·) else none

/-- `&s[m..n]`. -/
def slice? (s : Text) (m n : ℕ) : Option Text :=
  if m ≤ n then (sliceFrom? s m).bind (sliceTo? · (n - m)) else none

/-- `s.char_indices()`, for a text that starts at this offset. -/
def charIndices : ℕ → Text → List (ℕ × Char)
  | _, [] => []
  | i, c :: s => (i, c) :: charIndices (i + byteLength [c]) s

section Offsets

variable {pat s a b d : Text} {c : Char} {m n : ℕ}

theorem byteLength_pos (c : Char) : 0 < byteLength [c] := by
  rw [byteLength, encodeUtf8, List.flatMap_singleton]
  unfold encodeChar
  dsimp only
  split_ifs <;> exact Nat.succ_pos _

theorem length_le_byteLength (s : Text) : s.length ≤ byteLength s := by
  induction s with
  | nil => exact Nat.zero_le _
  | cons c s ih =>
      rw [byteLength_cons, List.length_cons, Nat.add_comm]
      exact Nat.add_le_add (byteLength_pos c) ih

/-- The length of `c :: s` is a successor, and what it exceeds `c` by is that of `s`. -/
theorem byteLength_cons_eq (c : Char) (s : Text) :
    ∃ n, byteLength (c :: s) = n + 1 ∧ byteLength [c] ≤ n + 1 ∧
      n + 1 - byteLength [c] = byteLength s := by
  have hpos := byteLength_pos c
  have hcons := byteLength_cons c s
  exact ⟨byteLength (c :: s) - 1, by omega, by omega, by omega⟩

theorem sliceFrom?_append : sliceFrom? (a ++ b) (byteLength a) = some b := by
  induction a with
  | nil => cases b <;> rfl
  | cons c a ih =>
      obtain ⟨n, hn, hle, hrest⟩ := byteLength_cons_eq c a
      rw [hn, List.cons_append, sliceFrom?, if_pos hle, hrest, ih]

theorem sliceTo?_append : sliceTo? (a ++ b) (byteLength a) = some a := by
  induction a with
  | nil => cases b <;> rfl
  | cons c a ih =>
      obtain ⟨n, hn, hle, hrest⟩ := byteLength_cons_eq c a
      rw [hn, List.cons_append, sliceTo?, if_pos hle, hrest, ih, Option.map_some]

theorem slice?_append :
    slice? (a ++ (b ++ d)) (byteLength a) (byteLength a + byteLength b) = some b := by
  rw [slice?, if_pos (Nat.le_add_right _ _), sliceFrom?_append, Option.bind_some,
    Nat.add_sub_cancel_left, sliceTo?_append]

/-- A text is found where `after?` finds it. -/
theorem find?_eq_none : find? pat s = none ↔ after? pat s = none := by
  induction s with
  | nil => simp [find?, after?]
  | cons c s ih =>
      rw [find?, after?]
      split
      · simp
      · rw [Option.map_eq_none_iff, ih]

theorem find?_eq_some (h : find? pat s = some n) :
    ∃ a b, s = a ++ (pat ++ b) ∧ byteLength a = n ∧ after? pat s = some b := by
  induction s generalizing n with
  | nil =>
      rw [find?, Option.ite_none_right_eq_some] at h
      obtain ⟨rfl, h⟩ := h
      exact ⟨[], [], rfl, Option.some.inj h, rfl⟩
  | cons c s ih =>
      rw [find?] at h
      rw [after?]
      split at h
      · next hpre =>
          refine ⟨[], (c :: s).drop pat.length, ?_, Option.some.inj h, if_pos hpre⟩
          exact (List.prefix_iff_eq_append.mp (List.isPrefixOf_iff_prefix.mp hpre)).symm
      · next hpre =>
          obtain ⟨k, hk, rfl⟩ := Option.map_eq_some_iff.mp h
          obtain ⟨a, b, rfl, rfl, hb⟩ := ih hk
          exact ⟨c :: a, b, rfl, byteLength_cons c a, (if_neg hpre).trans hb⟩

/-- The search for one character stops where `dropWhile` stops. -/
theorem find?_char : (find? [c] s = none ∧ s.dropWhile (· ≠ c) = []) ∨
    ∃ a t, s = a ++ c :: t ∧ find? [c] s = some (byteLength a) ∧
      s.dropWhile (· ≠ c) = c :: t := by
  induction s with
  | nil => exact .inl ⟨rfl, rfl⟩
  | cons x s ih =>
      rw [find?]
      by_cases hx : x = c
      · subst hx
        exact .inr ⟨[], s, rfl, by simp [byteLength, encodeUtf8], by simp⟩
      · rw [if_neg (by simp [Ne.symm hx]), List.dropWhile_cons_of_pos (by simpa using hx)]
        rcases ih with ⟨hnone, hdrop⟩ | ⟨a, t, rfl, hsome, hdrop⟩
        · exact .inl ⟨by rw [hnone, Option.map_none], hdrop⟩
        · exact .inr ⟨x :: a, t, rfl, by rw [hsome, Option.map_some, ← byteLength_cons], hdrop⟩

end Offsets

end Text

end Bartok.Foundation
