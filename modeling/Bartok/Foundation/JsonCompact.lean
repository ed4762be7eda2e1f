import Bartok.Foundation.JsonValue
import Mathlib.Algebra.GroupWithZero.Nat

/-!
# JSON on one line

What `JSON.stringify` writes has no control character in it, so that a line break can
separate one value from the next. Its layout does not depend on the depth, and an array
takes one byte more for each element than the elements themselves.
-/

namespace Bartok.Foundation

open Text

namespace Json

/-- `JSON.stringify(value)`. -/
def stringify (j : Json) : Text := print compact 0 j

/-! ## The depth -/

mutual

theorem print_compact : ∀ (j : Json) (d : ℕ), print compact d j = stringify j
  | .null, _ => rfl
  | .bool true, _ => rfl
  | .bool false, _ => rfl
  | .num _, _ => rfl
  | .str _, _ => rfl
  | .arr [], _ => rfl
  | .arr (v :: vs), d => by
      simp only [stringify, print]
      rw [print_compact v (d + 1), print_compact v (0 + 1), printElems_compact vs (d + 1),
        printElems_compact vs (0 + 1)]
      rfl
  | .obj [], _ => rfl
  | .obj ((k, v) :: ms), d => by
      simp only [stringify, print]
      rw [print_compact v (d + 1), print_compact v (0 + 1), printMembers_compact ms (d + 1),
        printMembers_compact ms (0 + 1)]
      rfl

theorem printElems_compact : ∀ (vs : List Json) (d : ℕ),
    printElems compact d vs = printElems compact 0 vs
  | [], _ => rfl
  | v :: vs, d => by
      simp only [printElems]
      rw [print_compact v d, print_compact v 0, printElems_compact vs d]
      rfl

theorem printMembers_compact : ∀ (ms : List (Utf16 × Json)) (d : ℕ),
    printMembers compact d ms = printMembers compact 0 ms
  | [], _ => rfl
  | (k, v) :: ms, d => by
      simp only [printMembers]
      rw [print_compact v d, print_compact v 0, printMembers_compact ms d]
      rfl

end

theorem stringify_obj (ms : List (Utf16 × Json)) :
    ∃ inner, stringify (.obj ms) = '{' :: (inner ++ ['}']) := by
  cases ms with
  | nil => exact ⟨[], rfl⟩
  | cons m ms =>
      obtain ⟨k, v⟩ := m
      rw [stringify, print]
      exact ⟨_, rfl⟩

/-! ## The size -/

/-- The length of the UTF-8 encoding. -/
def byteLength (t : Text) : ℕ := (encodeUtf8 t).length

@[simp] theorem byteLength_append (s t : Text) :
    byteLength (s ++ t) = byteLength s + byteLength t := by
  rw [byteLength, encodeUtf8, List.flatMap_append, List.length_append]
  rfl

theorem byteLength_cons (c : Char) (t : Text) :
    byteLength (c :: t) = byteLength [c] + byteLength t := byteLength_append [c] t

/-- No control character of ASCII. -/
def Printable (t : Text) : Prop := ∀ c ∈ t, 0x20 ≤ c.toNat

instance (t : Text) : Decidable (Printable t) := inferInstanceAs (Decidable (∀ c ∈ t, _))

section Printable

variable {s t : Text} {c : Char} {u : UInt16}

theorem printable_nil : Printable [] := by
  rintro c ⟨⟩

/-- The test for a text that is written out. -/
theorem printable_of_all (h : t.all (fun c => Nat.ble 0x20 c.toNat) = true) : Printable t :=
  fun c hc => Nat.le_of_ble_eq_true (List.all_eq_true.mp h c hc)

theorem printable_append : Printable (s ++ t) ↔ Printable s ∧ Printable t := List.forall_mem_append

theorem printable_cons : Printable (c :: t) ↔ 0x20 ≤ c.toNat ∧ Printable t := List.forall_mem_cons

theorem printable_scanNum {q : NumState} {s t rest : Text} (h : scanNum q s = some (t, rest)) :
    Printable t := by
  intro c hc
  obtain ⟨q, q', hq⟩ := scanNum_next h c hc
  rcases NumState.next_some hq with hdigit | hsign
  · have := isDigit_bounds hdigit
    omega
  · have hsigns : Printable ['-', '+', '.', 'e', 'E'] := printable_of_all rfl
    exact hsigns c hsign

theorem printable_hexDigit {n : ℕ} (h : n < 16) : 0x20 ≤ (hexDigit n).toNat := by
  have hall : ∀ n : Fin 16, 0x20 ≤ (hexDigit n).toNat := by decide
  exact hall ⟨n, h⟩

theorem printable_hexEscape : Printable (hexEscape u) := by
  have hu : u.toNat < 65536 := u.toNat_lt
  simp only [hexEscape, printable_cons]
  refine ⟨by decide, by decide, printable_hexDigit ?_, printable_hexDigit ?_, printable_hexDigit ?_,
    printable_hexDigit ?_, printable_nil⟩ <;> omega

theorem printable_shortEscape {n : ℕ} (h : shortEscape n = some c) : 0x20 ≤ c.toNat := by
  unfold shortEscape at h
  split at h
  all_goals first
    | cases h; done
    | obtain rfl := Option.some.inj h
      decide

theorem printable_quoteUnit : Printable (quoteUnit u) := by
  unfold quoteUnit
  split
  · next c hc =>
      exact printable_cons.mpr ⟨by decide, printable_cons.mpr ⟨printable_shortEscape hc, printable_nil⟩⟩
  · split
    · exact printable_hexEscape
    · next hplain =>
        simp only [isHighSurrogate, isLowSurrogate, Bool.and_eq_true, decide_eq_true_eq, not_or,
          not_and, Nat.not_lt, Nat.not_le] at hplain
        obtain ⟨hlow, hhigh, hsur⟩ := hplain
        have hu : u.toNat < 65536 := u.toNat_lt
        refine printable_cons.mpr ⟨?_, printable_nil⟩
        rwa [toNat_ofNat (by omega)]

theorem printable_pairChar {v : UInt16} (h : (isHighSurrogate u && isLowSurrogate v) = true) :
    0x20 ≤ (pairChar u v).toNat := by
  simp only [isHighSurrogate, isLowSurrogate, Bool.and_eq_true, decide_eq_true_eq] at h
  obtain ⟨⟨hu, hu'⟩, hv, hv'⟩ := h
  rw [pairChar, toNat_ofNat (by omega)]
  omega

theorem printable_quote (us : Utf16) : Printable (quote us) := by
  induction us using quote.induct with
  | case1 => exact printable_nil
  | case2 u => exact printable_quoteUnit
  | case3 u v s hpair ih =>
      rw [quote, if_pos hpair]
      exact printable_cons.mpr ⟨printable_pairChar hpair, ih⟩
  | case4 u v s hpair ih =>
      rw [quote, if_neg hpair]
      exact printable_append.mpr ⟨printable_quoteUnit, ih⟩

/-- A member of an object, up to what follows it. -/
theorem printable_member (k : Utf16) (ht : Printable t) :
    Printable ('"' :: (quote k ++ '"' :: ':' :: t)) :=
  printable_cons.mpr ⟨by decide, printable_append.mpr ⟨printable_quote k,
    printable_cons.mpr ⟨by decide, printable_cons.mpr ⟨by decide, ht⟩⟩⟩⟩

mutual

/-- **What `JSON.stringify` writes is printable.** -/
theorem printable_print : ∀ (j : Json) (d : ℕ), Printable (print compact d j)
  | .null, _ => by rw [print]; exact printable_of_all rfl
  | .bool true, _ => by rw [print]; exact printable_of_all rfl
  | .bool false, _ => by rw [print]; exact printable_of_all rfl
  | .num n, _ => printable_scanNum n.ok
  | .str s, _ => printable_cons.mpr ⟨by decide, printable_append.mpr
      ⟨printable_quote s, printable_cons.mpr ⟨by decide, printable_nil⟩⟩⟩
  | .arr [], _ => by rw [print]; exact printable_of_all rfl
  | .arr (v :: vs), d => by
      rw [print]
      refine printable_cons.mpr ⟨by decide, printable_append.mpr ⟨?_, printable_of_all rfl⟩⟩
      refine printable_append.mpr ⟨printable_append.mpr ⟨?_, printable_printElems vs (d + 1)⟩,
        printable_nil⟩
      exact printable_append.mpr ⟨printable_nil, printable_print v (d + 1)⟩
  | .obj [], _ => by rw [print]; exact printable_of_all rfl
  | .obj ((k, v) :: ms), d => by
      rw [print]
      refine printable_cons.mpr ⟨by decide, printable_append.mpr ⟨?_, printable_of_all rfl⟩⟩
      refine printable_append.mpr ⟨printable_append.mpr ⟨?_, printable_printMembers ms (d + 1)⟩,
        printable_nil⟩
      exact printable_append.mpr ⟨printable_nil, printable_member k (printable_print v (d + 1))⟩

theorem printable_printElems : ∀ (vs : List Json) (d : ℕ), Printable (printElems compact d vs)
  | [], _ => printable_nil
  | v :: vs, d => by
      rw [printElems]
      refine printable_cons.mpr ⟨by decide, printable_append.mpr ⟨?_, printable_printElems vs d⟩⟩
      exact printable_append.mpr ⟨printable_nil, printable_print v d⟩

theorem printable_printMembers : ∀ (ms : List (Utf16 × Json)) (d : ℕ),
    Printable (printMembers compact d ms)
  | [], _ => printable_nil
  | (k, v) :: ms, d => by
      rw [printMembers]
      refine printable_cons.mpr ⟨by decide, printable_append.mpr ⟨?_, printable_printMembers ms d⟩⟩
      exact printable_append.mpr ⟨printable_nil, printable_member k (printable_print v d)⟩

end

/-- So that a line holds one value. -/
theorem newline_not_mem_stringify (j : Json) : '\n' ∉ stringify j := by
  intro h
  exact absurd (printable_print j 0 _ h) (by decide)

end Printable

end Json

end Bartok.Foundation
