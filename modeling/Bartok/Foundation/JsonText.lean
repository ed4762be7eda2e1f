import Bartok.Foundation.Text

/-!
# Numbers and strings of JSON

The two tokens of JSON that take more than one character to recognise. A number is
kept as the text it was written with; a string is a list of UTF-16 code units, as in
JavaScript, and is quoted the way `JSON.stringify` does it.

Each scanner is proved to read back what is printed, and to give the same answer on
a longer text.
-/

namespace Bartok.Foundation

abbrev Utf16 := List UInt16

namespace Text

/-! ## Numbers -/

/-- How much of a number has been read. -/
inductive NumState
  | start
  | minus
  | zero
  | int
  | point
  | frac
  | exp
  | expSign
  | expDigits
deriving DecidableEq

namespace NumState

def next : NumState → Char → Option NumState
  | .start, c =>
      if c = '-' then some .minus
      else if c = '0' then some .zero
      else if c.isDigit then some .int
      else none
  | .minus, c =>
      if c = '0' then some .zero
      else if c.isDigit then some .int
      else none
  | .zero, c =>
      if c = '.' then some .point
      else if c = 'e' ∨ c = 'E' then some .exp
      else none
  | .int, c =>
      if c.isDigit then some .int
      else if c = '.' then some .point
      else if c = 'e' ∨ c = 'E' then some .exp
      else none
  | .point, c => if c.isDigit then some .frac else none
  | .frac, c =>
      if c.isDigit then some .frac
      else if c = 'e' ∨ c = 'E' then some .exp
      else none
  | .exp, c =>
      if c = '+' ∨ c = '-' then some .expSign
      else if c.isDigit then some .expDigits
      else none
  | .expSign, c => if c.isDigit then some .expDigits else none
  | .expDigits, c => if c.isDigit then some .expDigits else none

/-- A number may end here. -/
def accepting : NumState → Bool
  | .zero | .int | .frac | .expDigits => true
  | _ => false

/-- A character of a number. -/
theorem next_some {q q' : NumState} {c : Char} (h : q.next c = some q') :
    c.isDigit = true ∨ c ∈ ['-', '+', '.', 'e', 'E'] := by
  have hzero : c = '0' → c.isDigit = true := by
    rintro rfl
    rfl
  cases q <;> simp only [next] at h <;> grind

end NumState

/-- The longest number at the front, and what follows it; `none` when that would be
half a number. -/
def scanNum : NumState → Text → Option (Text × Text)
  | q, [] => if q.accepting then some ([], []) else none
  | q, c :: s =>
      match q.next c with
      | some q => (scanNum q s).map fun r => (c :: r.1, r.2)
      | none => if q.accepting then some ([], c :: s) else none

/-- The text cannot continue a number. -/
def EndsNumber (s : Text) : Prop := ∀ c ∈ s.head?, ∀ q, NumState.next q c = none

section Numbers

variable {s t u rest : Text} {q : NumState} {c : Char}

theorem endsNumber_cons (hdigit : c.isDigit = false) (hc : c ∉ ['-', '+', '.', 'e', 'E']) :
    EndsNumber (c :: s) := by
  intro c' hc' q
  obtain rfl := Option.some.inj hc'
  cases hq : q.next c with
  | none => rfl
  | some q' =>
      rcases NumState.next_some hq with h | h
      · rw [hdigit] at h
        cases h
      · exact absurd h hc

theorem scanNum_append (h : scanNum q s = some (t, [])) (hu : EndsNumber u) :
    scanNum q (s ++ u) = some (t, u) := by
  induction s generalizing q t with
  | nil =>
      simp only [scanNum, Option.ite_none_right_eq_some, Option.some.injEq, Prod.mk.injEq] at h
      obtain ⟨hq, rfl, -⟩ := h
      cases u with
      | nil => simp [scanNum, hq]
      | cons c u => simp [scanNum, hu c rfl q, hq]
  | cons c s ih =>
      simp only [scanNum, List.cons_append] at h ⊢
      cases hq : q.next c with
      | none => simp [hq] at h
      | some q' =>
          simp only [hq, Option.map_eq_some_iff] at h ⊢
          obtain ⟨⟨t', rest⟩, hr, heq⟩ := h
          obtain ⟨rfl, rfl⟩ := Prod.mk.inj heq
          exact ⟨_, ih hr, rfl⟩

/-- A number that ends in the text ends there in a longer one. -/
theorem scanNum_stable (h : scanNum q s = some (t, rest)) (hrest : rest ≠ []) :
    scanNum q (s ++ u) = some (t, rest ++ u) := by
  induction s generalizing q t with
  | nil =>
      simp only [scanNum, Option.ite_none_right_eq_some, Option.some.injEq, Prod.mk.injEq] at h
      exact absurd h.2.2.symm hrest
  | cons c s ih =>
      simp only [scanNum, List.cons_append] at h ⊢
      cases hq : q.next c with
      | none =>
          simp only [hq, Option.ite_none_right_eq_some, Option.some.injEq, Prod.mk.injEq] at h ⊢
          obtain ⟨hacc, rfl, rfl⟩ := h
          exact ⟨hacc, rfl, rfl⟩
      | some q' =>
          simp only [hq, Option.map_eq_some_iff] at h ⊢
          obtain ⟨⟨t', rest'⟩, hr, heq⟩ := h
          obtain ⟨rfl, rfl⟩ := Prod.mk.inj heq
          exact ⟨_, ih hr, rfl⟩

theorem scanNum_suffix (h : scanNum q s = some (t, rest)) : rest <:+ s := by
  induction s generalizing q t with
  | nil =>
      simp only [scanNum, Option.ite_none_right_eq_some, Option.some.injEq, Prod.mk.injEq] at h
      obtain ⟨-, -, rfl⟩ := h
      exact List.suffix_rfl
  | cons c s ih =>
      simp only [scanNum] at h
      cases hq : q.next c with
      | none =>
          simp only [hq, Option.ite_none_right_eq_some, Option.some.injEq, Prod.mk.injEq] at h
          obtain ⟨-, -, rfl⟩ := h
          exact List.suffix_rfl
      | some q' =>
          simp only [hq, Option.map_eq_some_iff] at h
          obtain ⟨⟨t', rest'⟩, hr, heq⟩ := h
          obtain ⟨rfl, rfl⟩ := Prod.mk.inj heq
          exact (ih hr).trans (List.suffix_cons c s)

/-- What is read as a number goes on with one, character by character. -/
theorem scanNum_next (h : scanNum q s = some (t, rest)) :
    ∀ c ∈ t, ∃ q q' : NumState, q.next c = some q' := by
  induction s generalizing q t with
  | nil =>
      simp only [scanNum, Option.ite_none_right_eq_some, Option.some.injEq, Prod.mk.injEq] at h
      obtain ⟨-, rfl, -⟩ := h
      exact nofun
  | cons c s ih =>
      simp only [scanNum] at h
      cases hq : q.next c with
      | none =>
          simp only [hq, Option.ite_none_right_eq_some, Option.some.injEq, Prod.mk.injEq] at h
          obtain ⟨-, rfl, -⟩ := h
          exact nofun
      | some q' =>
          simp only [hq, Option.map_eq_some_iff] at h
          obtain ⟨⟨t', rest'⟩, hr, heq⟩ := h
          obtain ⟨rfl, rfl⟩ := Prod.mk.inj heq
          exact List.forall_mem_cons.mpr ⟨⟨q, q', hq⟩, ih hr⟩

end Numbers

end Text

/-- A number of JSON, as written. -/
structure NumLit where
  text : Text
  ok : Text.scanNum .start text = some (text, [])
deriving DecidableEq

namespace Text

/-! ## Strings -/

/-- The escapes of one letter that `JSON.stringify` writes. -/
def shortEscape : ℕ → Option Char
  | 0x08 => some 'b'
  | 0x09 => some 't'
  | 0x0A => some 'n'
  | 0x0C => some 'f'
  | 0x0D => some 'r'
  | 0x22 => some '"'
  | 0x5C => some '\\'
  | _ => none

def isHighSurrogate (u : UInt16) : Bool := 0xD800 ≤ u.toNat && u.toNat ≤ 0xDBFF

def isLowSurrogate (u : UInt16) : Bool := 0xDC00 ≤ u.toNat && u.toNat ≤ 0xDFFF

def hexEscape (u : UInt16) : Text :=
  ['\\', 'u', hexDigit (u.toNat / 4096), hexDigit (u.toNat / 256 % 16), hexDigit (u.toNat / 16 % 16),
    hexDigit (u.toNat % 16)]

/-- A code unit that is not half of a pair. -/
def quoteUnit (u : UInt16) : Text :=
  match shortEscape u.toNat with
  | some c => ['\\', c]
  | none =>
      if u.toNat < 0x20 ∨ isHighSurrogate u ∨ isLowSurrogate u then hexEscape u
      else [Char.ofNat u.toNat]

/-- The character of a surrogate pair. -/
def pairChar (high low : UInt16) : Char :=
  Char.ofNat (0x10000 + 0x400 * (high.toNat - 0xD800) + (low.toNat - 0xDC00))

/-- The inside of a quoted string. -/
def quote : Utf16 → Text
  | [] => []
  | [u] => quoteUnit u
  | u :: v :: s =>
      if isHighSurrogate u && isLowSurrogate v then pairChar u v :: quote s
      else quoteUnit u ++ quote (v :: s)

/-- The code units of a character. -/
def units (c : Char) : Utf16 :=
  if c.toNat < 0x10000 then [UInt16.ofNat c.toNat]
  else [UInt16.ofNat (0xD800 + (c.toNat - 0x10000) / 0x400),
    UInt16.ofNat (0xDC00 + (c.toNat - 0x10000) % 0x400)]

def unescape (c : Char) : Option UInt16 :=
  if c = '"' then some 0x22
  else if c = '\\' then some 0x5C
  else if c = '/' then some 0x2F
  else if c = 'b' then some 0x08
  else if c = 'f' then some 0x0C
  else if c = 'n' then some 0x0A
  else if c = 'r' then some 0x0D
  else if c = 't' then some 0x09
  else none

/-- Where in a string the scanner is: between characters, after a backslash, or with
some of the four digits of `\u` still to come. -/
inductive StrState
  | plain
  | escape
  | hex (missing value : ℕ)
deriving DecidableEq

/-- The code units a character completes, and the next state; no state after the
closing quote. -/
def StrState.next : StrState → Char → Option (Utf16 × Option StrState)
  | .plain, c =>
      if c = '"' then some ([], none)
      else if c = '\\' then some ([], some .escape)
      else if c.toNat < 0x20 then none
      else some (units c, some .plain)
  | .escape, c =>
      if c = 'u' then some ([], some (.hex 4 0))
      else (unescape c).map fun u => ([u], some .plain)
  | .hex missing value, c =>
      (hexValue c).map fun d =>
        if missing = 1 then ([UInt16.ofNat (16 * value + d)], some .plain)
        else ([], some (.hex (missing - 1) (16 * value + d)))

/-- What stands in front of what has been read. -/
def prepend (us : Utf16) (r : Utf16 × Text) : Utf16 × Text := (us ++ r.1, r.2)

/-- The rest of a string, and what follows its closing quote. -/
def scanStr : StrState → Text → Option (Utf16 × Text)
  | _, [] => none
  | q, c :: s =>
      match q.next c with
      | none => none
      | some (us, none) => some (us, s)
      | some (us, some q) => (scanStr q s).map (prepend us)

section Strings

variable {s rest t : Text} {u v : UInt16} {us : Utf16} {c : Char}

theorem hexValue_hexDigit {n : ℕ} (h : n < 16) : hexValue (hexDigit n) = some n := by
  have hall : ∀ n : Fin 16, hexValue (hexDigit n) = some n.val := by decide
  exact hall ⟨n, h⟩

/-- The short escapes are read back. -/
theorem unescape_shortEscape {n : ℕ} (h : shortEscape n = some c) :
    c ≠ 'u' ∧ unescape c = some (UInt16.ofNat n) := by
  unfold shortEscape at h
  split at h
  all_goals first
    | cases h; done
    | obtain rfl := Option.some.inj h
      exact ⟨by decide, rfl⟩

theorem toNat_ofNat {n : ℕ} (h : n < 0xD800 ∨ 0xDFFF < n ∧ n < 0x110000) :
    (Char.ofNat n).toNat = n := by
  have hv : n.isValidChar := h
  rw [Char.ofNat, dif_pos hv]
  rfl

/-- One character of a string that goes on. -/
theorem scanStr_cons {q q' : StrState} (h : q.next c = some (us, some q')) :
    scanStr q (c :: s) = (scanStr q' s).map (prepend us) := by
  rw [scanStr, h]

/-- The same when it completes no code unit. -/
theorem scanStr_skip {q q' : StrState} (h : q.next c = some ([], some q')) :
    scanStr q (c :: s) = scanStr q' s := by
  rw [scanStr_cons h]
  exact Option.map_id_apply

/-- Reading a character that needs no escape. -/
theorem scanStr_plain (hquote : c ≠ '"') (hslash : c ≠ '\\') (hc : 0x20 ≤ c.toNat) :
    scanStr .plain (c :: s) = (scanStr .plain s).map (prepend (units c)) :=
  scanStr_cons (by simp [StrState.next, hquote, hslash, Nat.not_lt_of_le hc])

theorem next_backslash : StrState.plain.next '\\' = some ([], some .escape) := rfl

theorem next_hex (missing value : ℕ) {n : ℕ} (hn : n < 16) :
    (StrState.hex missing value).next (hexDigit n) =
      some (if missing = 1 then ([UInt16.ofNat (16 * value + n)], some .plain)
        else ([], some (.hex (missing - 1) (16 * value + n)))) := by
  rw [StrState.next, hexValue_hexDigit hn, Option.map_some]

theorem scanStr_hexEscape :
    scanStr .plain (hexEscape u ++ s) = (scanStr .plain s).map (prepend [u]) := by
  have hu : u.toNat < 65536 := u.toNat_lt
  have hsum : 16 * (16 * (16 * (16 * 0 + u.toNat / 4096) + u.toNat / 256 % 16) +
      u.toNat / 16 % 16) + u.toNat % 16 = u.toNat := by omega
  have hlast := next_hex 1
    (16 * (16 * (16 * 0 + u.toNat / 4096) + u.toNat / 256 % 16) + u.toNat / 16 % 16)
    (show u.toNat % 16 < 16 by omega)
  have hu' : StrState.escape.next 'u' = some ([], some (.hex 4 0)) := rfl
  rw [if_pos rfl, hsum, UInt16.ofNat_toNat] at hlast
  show scanStr .plain ('\\' :: 'u' :: _ :: _ :: _ :: _ :: s) = _
  rw [scanStr_skip next_backslash, scanStr_skip hu', scanStr_skip (next_hex _ _ (by omega)),
    scanStr_skip (next_hex _ _ (by omega)), scanStr_skip (next_hex _ _ (by omega)),
    scanStr_cons hlast]

theorem scanStr_quoteUnit :
    scanStr .plain (quoteUnit u ++ t) = (scanStr .plain t).map (prepend [u]) := by
  unfold quoteUnit
  split
  · next c hc =>
      obtain ⟨hne, hun⟩ := unescape_shortEscape hc
      show scanStr .plain ('\\' :: c :: t) = _
      have hnext : StrState.escape.next c = some ([u], some .plain) := by
        simp [StrState.next, hne, hun]
      rw [scanStr_skip next_backslash, scanStr_cons hnext]
  · next hc =>
      split
      · exact scanStr_hexEscape
      · next hplain =>
          simp only [isHighSurrogate, isLowSurrogate, Bool.and_eq_true, decide_eq_true_eq, not_or,
            not_and, Nat.not_lt, Nat.not_le] at hplain
          obtain ⟨hlow, hhigh, hsur⟩ := hplain
          have hu : u.toNat < 65536 := u.toNat_lt
          have hnat : (Char.ofNat u.toNat).toNat = u.toNat := toNat_ofNat (by omega)
          have hunits : units (Char.ofNat u.toNat) = [u] := by
            rw [units, hnat, if_pos (by omega), UInt16.ofNat_toNat]
          rw [List.singleton_append, scanStr_plain, hunits]
          · intro h
            rw [show u.toNat = 0x22 by rw [← hnat, h]; rfl] at hc
            cases hc
          · intro h
            rw [show u.toNat = 0x5C by rw [← hnat, h]; rfl] at hc
            cases hc
          · rwa [hnat]

theorem scanStr_pair (h : (isHighSurrogate u && isLowSurrogate v) = true) :
    scanStr .plain (pairChar u v :: t) = (scanStr .plain t).map (prepend [u, v]) := by
  simp only [isHighSurrogate, isLowSurrogate, Bool.and_eq_true, decide_eq_true_eq] at h
  obtain ⟨⟨hu, hu'⟩, hv, hv'⟩ := h
  have hnat : (pairChar u v).toNat = 0x10000 + 0x400 * (u.toNat - 0xD800) + (v.toNat - 0xDC00) :=
    toNat_ofNat (by omega)
  have hunits : units (pairChar u v) = [u, v] := by
    rw [units, if_neg (by omega), hnat,
      show 0xD800 + (0x10000 + 0x400 * (u.toNat - 0xD800) + (v.toNat - 0xDC00) - 0x10000) / 0x400 =
        u.toNat by omega,
      show 0xDC00 + (0x10000 + 0x400 * (u.toNat - 0xD800) + (v.toNat - 0xDC00) - 0x10000) % 0x400 =
        v.toNat by omega, UInt16.ofNat_toNat, UInt16.ofNat_toNat]
  have hbig : 0x10000 ≤ (pairChar u v).toNat := by omega
  rw [scanStr_plain, hunits]
  · intro h
    rw [h] at hbig
    revert hbig
    decide
  · intro h
    rw [h] at hbig
    revert hbig
    decide
  · omega

/-- **A quoted string is read back.** -/
theorem scanStr_quote (us : Utf16) : scanStr .plain (quote us ++ '"' :: rest) = some (us, rest) := by
  induction us using quote.induct with
  | case1 => simp [quote, scanStr, StrState.next]
  | case2 u =>
      rw [quote, scanStr_quoteUnit]
      simp [scanStr, StrState.next, prepend]
  | case3 u v s hpair ih =>
      rw [quote, if_pos hpair, List.cons_append, scanStr_pair hpair, ih]
      rfl
  | case4 u v s hpair ih =>
      rw [quote, if_neg hpair, List.append_assoc, scanStr_quoteUnit, ih]
      rfl

/-- A string that is closed in the text is the same in a longer one. -/
theorem scanStr_stable {q : StrState} (h : scanStr q s = some (us, rest)) :
    scanStr q (s ++ t) = some (us, rest ++ t) := by
  induction s generalizing q us with
  | nil => cases h
  | cons c s ih =>
      simp only [scanStr, List.cons_append] at h ⊢
      split at h
      · cases h
      · obtain ⟨rfl, rfl⟩ := Prod.mk.inj (Option.some.inj h)
        rfl
      · obtain ⟨⟨us', rest'⟩, hr, heq⟩ := Option.map_eq_some_iff.mp h
        obtain ⟨rfl, rfl⟩ := Prod.mk.inj heq
        rw [ih hr]
        rfl

theorem scanStr_suffix {q : StrState} (h : scanStr q s = some (us, rest)) : rest <:+ s := by
  induction s generalizing q us with
  | nil => cases h
  | cons c s ih =>
      simp only [scanStr] at h
      split at h
      · cases h
      · obtain ⟨rfl, rfl⟩ := Prod.mk.inj (Option.some.inj h)
        exact List.suffix_cons c s
      · obtain ⟨⟨us', rest'⟩, hr, heq⟩ := Option.map_eq_some_iff.mp h
        obtain ⟨rfl, rfl⟩ := Prod.mk.inj heq
        exact (ih hr).trans (List.suffix_cons c s)

end Strings

end Text

end Bartok.Foundation
