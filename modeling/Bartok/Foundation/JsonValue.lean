import Mathlib.Algebra.Group.Nat.Defs
import Bartok.Foundation.Json

/-!
# JSON values in JavaScript

What a program can ask of a value it has parsed, before it knows its type: whether it
is truthy, the member of a name, the entries of a loop over it.
-/

namespace Bartok.Foundation

/-- The code units of a text. -/
def utf16 (s : String) : Utf16 := s.toList.flatMap Text.units

namespace NumLit

variable (n : NumLit)

def numeral (digits : Text) : ℕ := digits.foldl (fun n c => 10 * n + (c.toNat - '0'.toNat)) 0

def isExponent (c : Char) : Bool := c = 'e' || c = 'E'

/-- All digits in front of the exponent, as one number. -/
def mantissa : ℕ := numeral ((n.text.takeWhile (!isExponent ·)).filter Char.isDigit)

/-- The number of digits after the point. -/
def fraction : ℕ :=
  (((n.text.takeWhile (!isExponent ·)).dropWhile (· ≠ '.')).filter Char.isDigit).length

/-- The exponent as written. -/
def exponent : ℤ :=
  let e := (n.text.dropWhile (!isExponent ·)).drop 1
  if e.head? = some '-' then -(numeral (e.filter Char.isDigit) : ℤ)
  else numeral (e.filter Char.isDigit)

/-- The double of this number is a zero: its value is at most half the least positive
double, which is `2 ^ (-1074)`. -/
def isZero : Bool :=
  let e := n.exponent - n.fraction
  n.mantissa * 10 ^ e.toNat * 2 ^ 1075 ≤ 10 ^ (-e).toNat

end NumLit

namespace Json

def truthy : Json → Bool
  | .null => false
  | .bool b => b
  | .num n => !n.isZero
  | .str s => !s.isEmpty
  | .arr _ | .obj _ => true

/-- The member of this name; of several the last, as `JSON.parse` keeps it. -/
def lookup (name : String) (ms : List (Utf16 × Json)) : Option Json :=
  (ms.reverse.find? (·.1 = utf16 name)).map Prod.snd

/-- `value[name]`, for a name that no value inherits: `none` when reading it throws,
`some none` for `undefined`. -/
def get (name : String) : Json → Option (Option Json)
  | .null => none
  | .obj ms => some (lookup name ms)
  | .bool _ | .num _ | .str _ | .arr _ => some none

def index (i : ℕ) : Utf16 := utf16 (toString i)

/-- `Object.entries(value)`; `none` when it throws. -/
def entries : Json → Option (List (Utf16 × Json))
  | .null => none
  | .bool _ | .num _ => some []
  | .str s => some (s.mapIdx fun i u => (index i, .str [u]))
  | .arr vs => some (vs.mapIdx fun i v => (index i, v))
  | .obj ms => some ms

/-- `String(value)`; `none` when it throws. A parsed `toString` is not a function and hides
the one every object inherits, and arrays can be nested too deep for the stack. -/
def toText (numText : NumLit → Utf16) : ℕ → Json → Option Utf16
  | _, .null => some (utf16 "null")
  | _, .bool b => some (utf16 (if b then "true" else "false"))
  | _, .num n => some (numText n)
  | _, .str s => some s
  | 0, .arr _ => none
  | depth + 1, .arr vs =>
      (vs.mapM fun v : Json =>
        match v with
        | .null => some []
        | v => toText numText depth v).map (List.intercalate (utf16 ","))
  | _, .obj ms => if (lookup "toString" ms).isSome then none else some (utf16 "[object Object]")

theorem toText_str (numText : NumLit → Utf16) (depth : ℕ) (s : Utf16) :
    toText numText depth (.str s) = some s := by
  rw [toText]

/-- An array of strings is joined with commas. -/
theorem toText_strings (numText : NumLit → Utf16) (depth : ℕ) (strs : List Utf16) :
    toText numText (depth + 1) (.arr (strs.map .str)) =
      some (List.intercalate (utf16 ",") strs) := by
  have hstrs : ∀ f : Json → Option Utf16, (∀ s, f (.str s) = some s) →
      (strs.map Json.str).mapM f = some strs := by
    intro f hf
    induction strs with
    | nil => rfl
    | cons s strs ih =>
        rw [List.map_cons, List.mapM_cons, hf, ih]
        rfl
  rw [toText, hstrs, Option.map_some]
  exact toText_str numText depth

end Json

end Bartok.Foundation
