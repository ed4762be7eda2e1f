import Mathlib.Data.List.DropRight
import Mathlib.Data.Nat.Notation

/-!
# Text

Strings are lists of characters, and the functions of the Rust standard library
that read them are written out: lossy UTF-8 decoding, trimming, searching,
parsing a `u64` and hexadecimal encoding.
-/

namespace Bartok.Foundation

abbrev Text := List Char

namespace Text

/-! ## Searching and trimming -/

/-- What follows the first occurrence of `pat`. -/
def after? (pat : Text) : Text → Option Text
  | [] => if pat = [] then some [] else none
  | c :: s => if pat.isPrefixOf (c :: s) then some ((c :: s).drop pat.length) else after? pat s

/-- `s.includes(pat)`. -/
def includes (pat s : Text) : Bool := (after? pat s).isSome

/-- The characters of the Unicode class `White_Space`. -/
def isWhitespace (c : Char) : Bool :=
  c.toNat ∈ [0x09, 0x0A, 0x0B, 0x0C, 0x0D, 0x20, 0x85, 0xA0, 0x1680, 0x2028, 0x2029, 0x202F,
    0x205F, 0x3000] || (0x2000 ≤ c.toNat && c.toNat ≤ 0x200A)

def trimStart (s : Text) : Text := s.dropWhile isWhitespace

def trim (s : Text) : Text := (trimStart s).rdropWhile isWhitespace

theorem mem_intercalate {c sep : Char} {parts : List Text} (h : c ∈ [sep].intercalate parts) :
    c = sep ∨ ∃ part ∈ parts, c ∈ part := by
  induction parts with
  | nil => cases h
  | cons part parts ih =>
      by_cases hparts : parts = []
      · subst hparts
        rw [List.intercalate_singleton] at h
        exact .inr ⟨part, List.mem_cons_self, h⟩
      · rw [List.intercalate_cons_of_ne_nil hparts, List.append_assoc, List.mem_append,
          List.singleton_append, List.mem_cons] at h
        rcases h with h | rfl | h
        · exact .inr ⟨part, List.mem_cons_self, h⟩
        · exact .inl rfl
        · exact (ih h).imp_right fun ⟨p, hp, hc⟩ => ⟨p, List.mem_cons_of_mem _ hp, hc⟩

/-! ## Numbers -/

/-- `str::parse::<u64>`: decimal digits, with an optional plus sign. -/
def parseU64 (s : Text) : Option UInt64 :=
  let digits : Text := match s with
    | '+' :: rest => rest
    | _ => s
  let n : ℕ := digits.foldl (fun n c => 10 * n + (c.toNat - '0'.toNat)) 0
  if digits ≠ [] ∧ digits.all Char.isDigit = true ∧ n < UInt64.size then some (UInt64.ofNat n) else none

section Decimal

variable {c : Char} {n : ℕ} {s : Text}

theorem isDigit_bounds (h : c.isDigit = true) : 48 ≤ c.toNat ∧ c.toNat ≤ 57 := by
  rw [Char.isDigit, Bool.and_eq_true, decide_eq_true_eq, decide_eq_true_eq] at h
  exact h

theorem isWhitespace_of_isDigit (h : c.isDigit = true) : isWhitespace c = false := by
  obtain ⟨hlow, hhigh⟩ := isDigit_bounds h
  simp only [isWhitespace, List.mem_cons, List.not_mem_nil, or_false, Bool.or_eq_false_iff,
    decide_eq_false_iff_not, Bool.and_eq_false_iff]
  omega

theorem trim_eq_self (h : ∀ c ∈ s, isWhitespace c = false) : trim s = s := by
  have hstart : trimStart s = s := by
    cases s with
    | nil => rfl
    | cons c s => exact List.dropWhile_cons_of_neg (by simp [h c])
  rw [trim, hstart, List.rdropWhile_eq_self_iff]
  exact fun hne => by simp [h _ (List.getLast_mem hne)]

/-- A number in decimal is read back, if it fits. -/
theorem parseU64_toDigits :
    parseU64 (Nat.toDigits 10 n) = if n < UInt64.size then some (UInt64.ofNat n) else none := by
  have hdigit : ∀ c ∈ Nat.toDigits 10 n, c.isDigit = true := fun c hc =>
    Nat.isDigit_of_mem_toDigits (by decide) (by decide) hc
  have hall : (Nat.toDigits 10 n).all Char.isDigit = true := List.all_eq_true.mpr hdigit
  have hvalue : (Nat.toDigits 10 n).foldl (fun n c => 10 * n + (c.toNat - '0'.toNat)) 0 = n :=
    Nat.ofDigitChars_ten_toDigits
  have hsign : ∀ rest, Nat.toDigits 10 n ≠ '+' :: rest := by
    intro rest heq
    have := hdigit '+' (heq ▸ List.mem_cons_self)
    cases this
  rw [parseU64]
  · simp only [ne_eq, Nat.toDigits_ne_nil, not_false_eq_true, hall, true_and, hvalue]
  · exact hsign

end Decimal

def hexDigit (n : ℕ) : Char := Char.ofNat (if n < 10 then '0'.toNat + n else 'a'.toNat + (n - 10))

def hexValue (c : Char) : Option ℕ :=
  if c.isDigit then some (c.toNat - '0'.toNat)
  else if 'a' ≤ c ∧ c ≤ 'f' then some (c.toNat - 'a'.toNat + 10)
  else if 'A' ≤ c ∧ c ≤ 'F' then some (c.toNat - 'A'.toNat + 10)
  else none

/-- `hex::encode`. -/
def hexEncode (bytes : List UInt8) : Text :=
  bytes.flatMap fun b => [hexDigit (b.toNat / 16), hexDigit (b.toNat % 16)]

/-! ## Lossy decoding -/

/-- A multi-byte character of which `need` bytes are missing; the next one lies
in `[low, high]`. -/
structure Utf8Pending where
  code : ℕ
  need : ℕ
  low : ℕ
  high : ℕ

/-- What the first byte of a character announces. -/
def utf8Start (b : ℕ) : Option Utf8Pending :=
  if 0xC2 ≤ b ∧ b ≤ 0xDF then some ⟨b - 0xC0, 1, 0x80, 0xBF⟩
  else if b = 0xE0 then some ⟨0, 2, 0xA0, 0xBF⟩
  else if b = 0xED then some ⟨0xD, 2, 0x80, 0x9F⟩
  else if 0xE1 ≤ b ∧ b ≤ 0xEF then some ⟨b - 0xE0, 2, 0x80, 0xBF⟩
  else if b = 0xF0 then some ⟨0, 3, 0x90, 0xBF⟩
  else if 0xF1 ≤ b ∧ b ≤ 0xF3 then some ⟨b - 0xF0, 3, 0x80, 0xBF⟩
  else if b = 0xF4 then some ⟨4, 3, 0x80, 0x8F⟩
  else none

def replacement : Char := '\uFFFD'

/-- A byte that starts a character: what is decoded, and what is then pending. -/
def utf8First (b : ℕ) : Text × Option Utf8Pending :=
  if b < 0x80 then ([Char.ofNat b], none)
  else
    match utf8Start b with
    | some p => ([], some p)
    | none => ([replacement], none)

/-- One byte. A byte that cannot continue the pending character replaces it and
is read again. -/
def utf8Byte (b : ℕ) : Option Utf8Pending → Text × Option Utf8Pending
  | none => utf8First b
  | some p =>
      if p.low ≤ b ∧ b ≤ p.high then
        let code := 64 * p.code + (b - 0x80)
        if p.need = 1 then ([Char.ofNat code], none) else ([], some ⟨code, p.need - 1, 0x80, 0xBF⟩)
      else
        let (s, q) := utf8First b
        (replacement :: s, q)

def utf8Decode : Option Utf8Pending → List UInt8 → Text
  | none, [] => []
  | some _, [] => [replacement]
  | p, b :: bytes => (utf8Byte b.toNat p).1 ++ utf8Decode (utf8Byte b.toNat p).2 bytes

/-- `String::from_utf8_lossy`. -/
def fromUtf8Lossy (bytes : List UInt8) : Text := utf8Decode none bytes

end Text

end Bartok.Foundation
