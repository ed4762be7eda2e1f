import Bartok.Foundation.JsonCompact
import Bartok.Foundation.JsonValue
import Bartok.Foundation.Unicode

/-!
# Object literals as JSON

What a program writes as JSON are mostly object literals: fixed names, texts, whole numbers.
A natural number below `10 ^ 21` is written with all its digits. A reader of the text has
the fields back by their names.
-/

namespace Bartok.Foundation

open Text

section Digits

variable {q q' : NumState} {s : Text} {n : ℕ}

/-- A text that leads to where a number may end is a number. -/
theorem scanNum_eq_some (h : s.foldlM NumState.next q = some q') (hq : q'.accepting = true) :
    scanNum q s = some (s, []) := by
  induction s generalizing q with
  | nil =>
      obtain rfl := Option.some.inj h
      rw [scanNum, if_pos hq]
  | cons c s ih =>
      rw [List.foldlM_cons] at h
      obtain ⟨q₁, hnext, hrest⟩ := Option.bind_eq_some_iff.mp h
      rw [scanNum, hnext]
      dsimp only
      rw [ih hrest]
      rfl

/-- Behind a first digit that is no zero there are digits only. -/
theorem foldlM_toDigits (hpos : 0 < n) :
    (Nat.toDigits 10 n).foldlM NumState.next .start = some .int := by
  have hfirst : ∀ d < 10, 0 < d → NumState.next .start (Nat.digitChar d) = some .int := by decide
  have hdigit : ∀ d < 10, NumState.next .int (Nat.digitChar d) = some .int := by decide
  induction n using Nat.strongRecOn with
  | ind n ih =>
      by_cases hlt : n < 10
      · rw [Nat.toDigits_of_lt_base hlt, List.foldlM_cons, hfirst n hlt hpos]
        rfl
      · have hrest : (Nat.toDigits 10 (n / 10)).foldlM NumState.next .start = some .int :=
          ih (n / 10) (by omega) (by omega)
        rw [Nat.toDigits_of_base_le (by omega) (by omega), List.foldlM_append, hrest]
        show List.foldlM NumState.next .int [(n % 10).digitChar] = _
        rw [List.foldlM_cons, hdigit (n % 10) (Nat.mod_lt n (by omega))]
        rfl

theorem scanNum_toDigits (n : ℕ) :
    scanNum .start (Nat.toDigits 10 n) = some (Nat.toDigits 10 n, []) := by
  rcases Nat.eq_zero_or_pos n with rfl | hpos
  · rfl
  · exact scanNum_eq_some (foldlM_toDigits hpos) rfl

end Digits

namespace NumLit

def ofNat (n : ℕ) : NumLit := ⟨Nat.toDigits 10 n, scanNum_toDigits n⟩

/-- The number, where only digits are written. -/
def whole (x : NumLit) : Option ℕ := if x.text.all Char.isDigit then some (numeral x.text) else none

@[simp] theorem whole_ofNat (n : ℕ) : (ofNat n).whole = some n := by
  have hall : (Nat.toDigits 10 n).all Char.isDigit = true :=
    List.all_eq_true.mpr fun _ hc => Nat.isDigit_of_mem_toDigits (by decide) (by decide) hc
  have hvalue : numeral (Nat.toDigits 10 n) = n := Nat.ofDigitChars_ten_toDigits
  rw [whole, ofNat, if_pos hall, hvalue]

end NumLit

namespace Json

def ofNat (n : ℕ) : Json := .num (.ofNat n)

def whole : Json → Option ℕ
  | .num x => x.whole
  | _ => none

@[simp] theorem whole_ofNat (n : ℕ) : (ofNat n).whole = some n := NumLit.whole_ofNat n

def ofText (s : String) : Json := .str (utf16 s)

/-- An object literal. -/
def object (fields : List (String × Json)) : Json := .obj (fields.map fun f => (utf16 f.1, f.2))

theorem utf16_injective : Function.Injective utf16 :=
  flatMap_units_injective.comp fun _ _ => String.toList_inj.mp

/-- A field is found by its name. -/
theorem get_object (fields : List (String × Json)) (name : String) :
    (object fields).get name = some ((fields.reverse.find? (·.1 = name)).map Prod.snd) := by
  have hname : ∀ f : String × Json, decide (utf16 f.1 = utf16 name) = decide (f.1 = name) :=
    fun f => decide_eq_decide.mpr utf16_injective.eq_iff
  have hpred : (fun e : Utf16 × Json => decide (e.1 = utf16 name)) ∘
      (fun f : String × Json => (utf16 f.1, f.2)) = fun f => decide (f.1 = name) := by
    funext f
    exact hname f
  rw [object, get, lookup, ← List.map_reverse, List.find?_map, Option.map_map, hpred]
  rfl

theorem parse_stringify_object (fields : List (String × Json)) :
    parse (stringify (object fields)) = some (object fields) := parse_print compact _

end Json

end Bartok.Foundation
