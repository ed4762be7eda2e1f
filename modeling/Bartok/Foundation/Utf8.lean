import Bartok.Foundation.Text

/-!
# Cutting UTF-8

A file that is cut in the middle of a write ends at any byte, in a character or
between two. Decoded with replacement, it is a prefix of the text, or one with a
replacement character for the character that was cut.
-/

namespace Bartok.Foundation

namespace Text

/-- The UTF-8 encoding of a character. -/
def encodeChar (c : Char) : List UInt8 :=
  let v := c.toNat
  if v < 0x80 then [UInt8.ofNat v]
  else if v < 0x800 then [UInt8.ofNat (0xC0 + v / 64), UInt8.ofNat (0x80 + v % 64)]
  else if v < 0x10000 then
    [UInt8.ofNat (0xE0 + v / 4096), UInt8.ofNat (0x80 + v / 64 % 64), UInt8.ofNat (0x80 + v % 64)]
  else
    [UInt8.ofNat (0xF0 + v / 262144), UInt8.ofNat (0x80 + v / 4096 % 64),
      UInt8.ofNat (0x80 + v / 64 % 64), UInt8.ofNat (0x80 + v % 64)]

def encodeUtf8 (s : Text) : List UInt8 := s.flatMap encodeChar

section Decode

variable {c : Char} {b : ℕ} {p : Utf8Pending} {bytes : List UInt8}

theorem toNat_byte (h : b < 256) : (UInt8.ofNat b).toNat = b := UInt8.toNat_ofNat_of_lt' h

theorem utf8First_start (h : 0x80 ≤ b) (hp : utf8Start b = some p) :
    utf8First b = ([], some p) := by
  rw [utf8First, if_neg (Nat.not_lt_of_le h), hp]

theorem utf8Byte_cont (hlow : p.low ≤ b) (hhigh : b ≤ p.high) (hneed : p.need ≠ 1) :
    utf8Byte b (some p) = ([], some ⟨64 * p.code + (b - 0x80), p.need - 1, 0x80, 0xBF⟩) := by
  simp [utf8Byte, hlow, hhigh, hneed]

theorem utf8Byte_last (hlow : p.low ≤ b) (hhigh : b ≤ p.high) (hneed : p.need = 1) :
    utf8Byte b (some p) = ([Char.ofNat (64 * p.code + (b - 0x80))], none) := by
  simp [utf8Byte, hlow, hhigh, hneed]

/-- A code point that is no surrogate. -/
theorem char_toNat (c : Char) : c.toNat < 0xD800 ∨ 0xDFFF < c.toNat ∧ c.toNat < 0x110000 := c.valid

/-- The first byte of a character of two bytes. -/
theorem utf8Start_two {v : ℕ} (hlow : 0x80 ≤ v) (hhigh : v < 0x800) :
    utf8Start (0xC0 + v / 64) = some ⟨v / 64, 1, 0x80, 0xBF⟩ := by
  rw [utf8Start, if_pos (by omega), Nat.add_sub_cancel_left]

/-- The first byte of a character of three bytes, and what it asks of the second. -/
theorem utf8Start_three (hlow : 0x800 ≤ c.toNat) (hhigh : c.toNat < 0x10000) :
    ∃ low high, utf8Start (0xE0 + c.toNat / 4096) = some ⟨c.toNat / 4096, 2, low, high⟩ ∧
      low ≤ 0x80 + c.toNat / 64 % 64 ∧ 0x80 + c.toNat / 64 % 64 ≤ high := by
  have hc := char_toNat c
  unfold utf8Start
  split_ifs with h1 h2 h3 h4
  all_goals try omega
  · exact ⟨0xA0, 0xBF, by rw [show c.toNat / 4096 = 0 by omega], by omega, by omega⟩
  · exact ⟨0x80, 0x9F, by rw [show c.toNat / 4096 = 0xD by omega], by omega, by omega⟩
  · exact ⟨0x80, 0xBF, by rw [Nat.add_sub_cancel_left], by omega, by omega⟩

/-- The same for four bytes. -/
theorem utf8Start_four (hlow : 0x10000 ≤ c.toNat) :
    ∃ low high, utf8Start (0xF0 + c.toNat / 262144) = some ⟨c.toNat / 262144, 3, low, high⟩ ∧
      low ≤ 0x80 + c.toNat / 4096 % 64 ∧ 0x80 + c.toNat / 4096 % 64 ≤ high := by
  have hc := char_toNat c
  unfold utf8Start
  split_ifs with h1 h2 h3 h4 h5 h6 h7
  all_goals try omega
  · exact ⟨0x90, 0xBF, by rw [show c.toNat / 262144 = 0 by omega], by omega, by omega⟩
  · exact ⟨0x80, 0xBF, by rw [Nat.add_sub_cancel_left], by omega, by omega⟩
  · exact ⟨0x80, 0x8F, by rw [show c.toNat / 262144 = 4 by omega], by omega, by omega⟩

/-! ### Byte by byte

What some bytes decode to, and what is pending after them: a reader that gets the bytes in
pieces carries it on. -/

def decodeChunk : Option Utf8Pending → List UInt8 → Text × Option Utf8Pending
  | q, [] => ([], q)
  | q, b :: bytes =>
      ((utf8Byte b.toNat q).1 ++ (decodeChunk (utf8Byte b.toNat q).2 bytes).1,
        (decodeChunk (utf8Byte b.toNat q).2 bytes).2)

theorem decodeChunk_append (bytes' : List UInt8) : ∀ (bytes : List UInt8) (q : Option Utf8Pending),
    decodeChunk q (bytes ++ bytes') =
      ((decodeChunk q bytes).1 ++ (decodeChunk (decodeChunk q bytes).2 bytes').1,
        (decodeChunk (decodeChunk q bytes).2 bytes').2)
  | [], _ => rfl
  | b :: bytes, q => by
      rw [List.cons_append, decodeChunk, decodeChunk_append bytes' bytes, decodeChunk,
        List.append_assoc]

theorem utf8Decode_step (q : Option Utf8Pending) (x : UInt8) :
    utf8Decode q (x :: bytes) =
      (utf8Byte x.toNat q).1 ++ utf8Decode (utf8Byte x.toNat q).2 bytes := by
  cases q <;> rfl

theorem utf8Decode_chunk (bytes' : List UInt8) : ∀ (bytes : List UInt8) (q : Option Utf8Pending),
    utf8Decode q (bytes ++ bytes') =
      (decodeChunk q bytes).1 ++ utf8Decode (decodeChunk q bytes).2 bytes'
  | [], _ => rfl
  | b :: bytes, q => by
      rw [List.cons_append, utf8Decode_step, utf8Decode_chunk bytes' bytes, decodeChunk,
        List.append_assoc]

theorem decodeChunk_cons {q : Option Utf8Pending} {b : ℕ} (hb : b < 256) :
    decodeChunk q (UInt8.ofNat b :: bytes) =
      ((utf8Byte b q).1 ++ (decodeChunk (utf8Byte b q).2 bytes).1,
        (decodeChunk (utf8Byte b q).2 bytes).2) := by
  rw [decodeChunk, toNat_byte hb]

/-- Two bytes: read whole, and cut after the first. -/
theorem decode_two (hlow : 0x80 ≤ c.toNat) (hhigh : c.toNat < 0x800) :
    decodeChunk none [UInt8.ofNat (0xC0 + c.toNat / 64), UInt8.ofNat (0x80 + c.toNat % 64)] =
        ([c], none) ∧
      ∃ p, decodeChunk none [UInt8.ofNat (0xC0 + c.toNat / 64)] = ([], some p) := by
  have hfirst : utf8Byte (0xC0 + c.toNat / 64) none = _ :=
    utf8First_start (by omega) (utf8Start_two hlow hhigh)
  have hcode : 64 * (c.toNat / 64) + (0x80 + c.toNat % 64 - 0x80) = c.toNat := by omega
  constructor
  · rw [decodeChunk_cons (by omega), hfirst, decodeChunk_cons (by omega),
      utf8Byte_last (by dsimp only; omega) (by dsimp only; omega) rfl]
    simp only [hcode, Char.ofNat_toNat, decodeChunk, List.nil_append, List.append_nil]
  · rw [decodeChunk_cons (by omega), hfirst]
    exact ⟨_, rfl⟩

theorem decode_three (hlow : 0x800 ≤ c.toNat) (hhigh : c.toNat < 0x10000) :
    let b0 := UInt8.ofNat (0xE0 + c.toNat / 4096)
    let b1 := UInt8.ofNat (0x80 + c.toNat / 64 % 64)
    decodeChunk none [b0, b1, UInt8.ofNat (0x80 + c.toNat % 64)] = ([c], none) ∧
      (∃ p, decodeChunk none [b0] = ([], some p)) ∧
      ∃ p, decodeChunk none [b0, b1] = ([], some p) := by
  obtain ⟨low, high, hstart, hl, hh⟩ := utf8Start_three hlow hhigh
  have hfirst : utf8Byte (0xE0 + c.toNat / 4096) none = _ := utf8First_start (by omega) hstart
  have hcode : 64 * (64 * (c.toNat / 4096) + (0x80 + c.toNat / 64 % 64 - 0x80)) +
      (0x80 + c.toNat % 64 - 0x80) = c.toNat := by omega
  refine ⟨?_, ?_, ?_⟩
  · rw [decodeChunk_cons (by omega), hfirst, decodeChunk_cons (by omega),
      utf8Byte_cont hl hh (by simp), decodeChunk_cons (by omega),
      utf8Byte_last (by dsimp only; omega) (by dsimp only; omega) rfl]
    simp only [hcode, Char.ofNat_toNat, decodeChunk, List.nil_append, List.append_nil]
  · rw [decodeChunk_cons (by omega), hfirst]
    exact ⟨_, rfl⟩
  · rw [decodeChunk_cons (by omega), hfirst, decodeChunk_cons (by omega),
      utf8Byte_cont hl hh (by simp)]
    exact ⟨_, rfl⟩

theorem decode_four (hlow : 0x10000 ≤ c.toNat) :
    let b0 := UInt8.ofNat (0xF0 + c.toNat / 262144)
    let b1 := UInt8.ofNat (0x80 + c.toNat / 4096 % 64)
    let b2 := UInt8.ofNat (0x80 + c.toNat / 64 % 64)
    decodeChunk none [b0, b1, b2, UInt8.ofNat (0x80 + c.toNat % 64)] = ([c], none) ∧
      (∃ p, decodeChunk none [b0] = ([], some p)) ∧
      (∃ p, decodeChunk none [b0, b1] = ([], some p)) ∧
      ∃ p, decodeChunk none [b0, b1, b2] = ([], some p) := by
  obtain ⟨low, high, hstart, hl, hh⟩ := utf8Start_four hlow
  have hc := char_toNat c
  have hfirst : utf8Byte (0xF0 + c.toNat / 262144) none = _ := utf8First_start (by omega) hstart
  have hcode : 64 * (64 * (64 * (c.toNat / 262144) + (0x80 + c.toNat / 4096 % 64 - 0x80)) +
      (0x80 + c.toNat / 64 % 64 - 0x80)) + (0x80 + c.toNat % 64 - 0x80) = c.toNat := by omega
  refine ⟨?_, ?_, ?_, ?_⟩
  · rw [decodeChunk_cons (by omega), hfirst, decodeChunk_cons (by omega),
      utf8Byte_cont hl hh (by simp), decodeChunk_cons (by omega),
      utf8Byte_cont (by dsimp only; omega) (by dsimp only; omega) (by simp),
      decodeChunk_cons (by omega), utf8Byte_last (by dsimp only; omega) (by dsimp only; omega) rfl]
    simp only [hcode, Char.ofNat_toNat, decodeChunk, List.nil_append, List.append_nil]
  · rw [decodeChunk_cons (by omega), hfirst]
    exact ⟨_, rfl⟩
  · rw [decodeChunk_cons (by omega), hfirst, decodeChunk_cons (by omega),
      utf8Byte_cont hl hh (by simp)]
    exact ⟨_, rfl⟩
  · rw [decodeChunk_cons (by omega), hfirst, decodeChunk_cons (by omega),
      utf8Byte_cont hl hh (by simp), decodeChunk_cons (by omega),
      utf8Byte_cont (by dsimp only; omega) (by dsimp only; omega) (by simp)]
    exact ⟨_, rfl⟩

/-- A character is decoded where it is whole. -/
theorem decodeChunk_encodeChar (c : Char) : decodeChunk none (encodeChar c) = ([c], none) := by
  unfold encodeChar
  dsimp only
  split
  · next h =>
      rw [decodeChunk_cons (by omega)]
      simp [utf8Byte, utf8First, h, decodeChunk]
  · next h =>
      split
      · next h2 => exact (decode_two (Nat.le_of_not_lt h) h2).1
      · next h2 =>
          split
          · next h3 => exact (decode_three (Nat.le_of_not_lt h2) h3).1
          · next h3 => exact (decode_four (Nat.le_of_not_lt h3)).1

/-- Where it is cut, it is pending. -/
theorem decodeChunk_take {j : ℕ} (hpos : 0 < j) (hlt : j < (encodeChar c).length) :
    ∃ p, decodeChunk none ((encodeChar c).take j) = ([], some p) := by
  unfold encodeChar at hlt ⊢
  dsimp only at hlt ⊢
  split_ifs at hlt ⊢ with h1 h2 h3
  · simp only [List.length_singleton] at hlt
    omega
  · obtain rfl : j = 1 := by simp only [List.length_cons, List.length_nil] at hlt; omega
    exact (decode_two (Nat.le_of_not_lt h1) h2).2
  · obtain ⟨hone, htwo⟩ := (decode_three (Nat.le_of_not_lt h2) h3).2
    obtain rfl | rfl : j = 1 ∨ j = 2 := by simp only [List.length_cons, List.length_nil] at hlt; omega
    · exact hone
    · exact htwo
  · obtain ⟨hone, htwo, hthree⟩ := (decode_four (Nat.le_of_not_lt h3)).2
    obtain rfl | rfl | rfl : j = 1 ∨ j = 2 ∨ j = 3 := by
      simp only [List.length_cons, List.length_nil] at hlt
      omega
    · exact hone
    · exact htwo
    · exact hthree

theorem decodeChunk_encodeUtf8 (s : Text) : decodeChunk none (encodeUtf8 s) = (s, none) := by
  induction s with
  | nil => rfl
  | cons c s ih =>
      rw [encodeUtf8, List.flatMap_cons, decodeChunk_append, decodeChunk_encodeChar]
      rw [encodeUtf8] at ih
      rw [ih, List.singleton_append]

theorem decode_encodeChar (c : Char) (bytes : List UInt8) :
    utf8Decode none (encodeChar c ++ bytes) = c :: utf8Decode none bytes := by
  rw [utf8Decode_chunk, decodeChunk_encodeChar, List.singleton_append]

/-- Where the text ends in the middle of a character, it is replaced. -/
theorem decode_take_encodeChar {j : ℕ} (hpos : 0 < j) (hlt : j < (encodeChar c).length) :
    utf8Decode none ((encodeChar c).take j) = [replacement] := by
  obtain ⟨p, hp⟩ := decodeChunk_take hpos hlt
  have h := utf8Decode_chunk [] ((encodeChar c).take j) none
  rw [hp, List.append_nil] at h
  exact h

theorem fromUtf8Lossy_encodeUtf8 (s : Text) : fromUtf8Lossy (encodeUtf8 s) = s := by
  have h := utf8Decode_chunk [] (encodeUtf8 s) none
  rw [decodeChunk_encodeUtf8, List.append_nil, utf8Decode, List.append_nil] at h
  exact h

theorem encodeUtf8_injective : Function.Injective encodeUtf8 :=
  Function.LeftInverse.injective fromUtf8Lossy_encodeUtf8

theorem encodeUtf8_append (s t : Text) : encodeUtf8 (s ++ t) = encodeUtf8 s ++ encodeUtf8 t :=
  List.flatMap_append

theorem fromUtf8Lossy_encodeUtf8_append (s : Text) (bytes : List UInt8) :
    fromUtf8Lossy (encodeUtf8 s ++ bytes) = s ++ fromUtf8Lossy bytes := by
  rw [fromUtf8Lossy, utf8Decode_chunk, decodeChunk_encodeUtf8]
  rfl

/-- **A text cut at a byte.** -/
theorem fromUtf8Lossy_take {s : Text} {k : ℕ} (hk : k < (encodeUtf8 s).length) :
    ∃ j < s.length, fromUtf8Lossy ((encodeUtf8 s).take k) = s.take j ∨
      fromUtf8Lossy ((encodeUtf8 s).take k) = s.take j ++ [replacement] := by
  induction s generalizing k with
  | nil => cases hk
  | cons c s ih =>
      rw [encodeUtf8, List.flatMap_cons] at hk ⊢
      rw [List.length_append] at hk
      by_cases hcut : k < (encodeChar c).length
      -- the cut is before this character or in it
      · refine ⟨0, by simp, ?_⟩
        rw [List.take_append_of_le_length (Nat.le_of_lt hcut)]
        rcases Nat.eq_zero_or_pos k with rfl | hpos
        · exact .inl rfl
        · exact .inr (decode_take_encodeChar hpos hcut)
      · obtain ⟨j, hj, h⟩ := ih (show k - (encodeChar c).length < (encodeUtf8 s).length by
          simp only [encodeUtf8]; omega)
        refine ⟨j + 1, by simpa using hj, ?_⟩
        rw [List.take_append, List.take_of_length_le (Nat.le_of_not_lt hcut), fromUtf8Lossy,
          decode_encodeChar, List.take_succ_cons]
        rcases h with h | h
        · exact .inl (congrArg (c :: ·) h)
        · exact .inr (congrArg (c :: ·) h)

theorem low_of_utf8Start (h : utf8Start b = some p) : 0x80 ≤ p.low := by
  unfold utf8Start at h
  split_ifs at h <;> simp only [Option.some.injEq] at h <;> subst h <;> simp

/-- Bytes of ASCII continue no character. -/
def AboveAscii (q : Option Utf8Pending) : Prop := ∀ p ∈ q, 0x80 ≤ p.low

theorem aboveAscii_none : AboveAscii none := by
  intro p hp
  cases hp

theorem aboveAscii_first : AboveAscii (utf8First b).2 := by
  intro p hp
  unfold utf8First at hp
  split at hp
  · cases hp
  · split at hp
    · next hstart =>
        obtain rfl := Option.some.inj hp
        exact low_of_utf8Start hstart
    · cases hp

theorem aboveAscii_byte (q : Option Utf8Pending) : AboveAscii (utf8Byte b q).2 := by
  cases q with
  | none => exact aboveAscii_first
  | some p =>
      unfold utf8Byte
      dsimp only
      split
      · split
        · exact aboveAscii_none
        · intro p' hp'
          obtain rfl := Option.some.inj hp'
          simp
      · exact aboveAscii_first

/-- A byte of ASCII ends what is pending. -/
theorem utf8Byte_ascii {q : Option Utf8Pending} (hq : AboveAscii q) (hb : b < 0x80) :
    (utf8Byte b q).2 = none := by
  have hfirst : utf8First b = ([Char.ofNat b], none) := if_pos hb
  cases q with
  | none => exact congrArg Prod.snd hfirst
  | some p =>
      have hlow := hq p rfl
      rw [utf8Byte, if_neg (by omega), hfirst]

/-- What comes after a byte of ASCII is decoded by itself. -/
theorem utf8Decode_append {x : UInt8} (hx : x.toNat < 0x80) (bytes' : List UInt8) :
    ∀ {bytes : List UInt8} {q : Option Utf8Pending}, AboveAscii q →
      utf8Decode q (bytes ++ x :: bytes') = utf8Decode q (bytes ++ [x]) ++ utf8Decode none bytes'
  | [], q, hq => by
      rw [List.nil_append, List.nil_append, utf8Decode_step, utf8Decode_step, utf8Byte_ascii hq hx]
      simp [utf8Decode]
  | y :: bytes, q, hq => by
      rw [List.cons_append, List.cons_append, utf8Decode_step, utf8Decode_step,
        utf8Decode_append hx bytes' (aboveAscii_byte q), List.append_assoc]

/-- A byte of ASCII at the end is its character. -/
theorem utf8Decode_snoc {x : UInt8} (hx : x.toNat < 0x80) :
    ∀ {bytes : List UInt8} {q : Option Utf8Pending}, AboveAscii q →
      utf8Decode q (bytes ++ [x]) = utf8Decode q bytes ++ [Char.ofNat x.toNat]
  | [], q, hq => by
      have hfirst : utf8First x.toNat = ([Char.ofNat x.toNat], none) := if_pos hx
      cases q with
      | none => simp [utf8Decode, utf8Byte, hfirst]
      | some p =>
          have hlow := hq p rfl
          simp [utf8Decode, utf8Byte, hfirst, show ¬ p.low ≤ x.toNat by omega]
  | y :: bytes, q, hq => by
      rw [List.cons_append, utf8Decode_step, utf8Decode_step,
        utf8Decode_snoc hx (aboveAscii_byte q), List.append_assoc]

theorem fromUtf8Lossy_ascii {x : UInt8} (hx : x.toNat < 0x80) (bytes bytes' : List UInt8) :
    fromUtf8Lossy (bytes ++ x :: bytes') =
      fromUtf8Lossy bytes ++ Char.ofNat x.toNat :: fromUtf8Lossy bytes' := by
  rw [fromUtf8Lossy, utf8Decode_append hx bytes' aboveAscii_none,
    utf8Decode_snoc hx aboveAscii_none, List.append_assoc]
  rfl

/-! ### Characters that are cut -/

/-- What a byte is decoded to when it comes alone. -/
def byteChar (x : UInt8) : Char := if x.toNat < 0x80 then Char.ofNat x.toNat else replacement

theorem fromUtf8Lossy_singleton (x : UInt8) : fromUtf8Lossy [x] = [byteChar x] := by
  rw [fromUtf8Lossy, utf8Decode_step, utf8Byte, utf8First, byteChar]
  split_ifs
  · rfl
  · split <;> rfl

/-- A byte that only continues characters. -/
def Continues (x : UInt8) : Prop := 0x80 ≤ x.toNat ∧ x.toNat < 0xC0

theorem decode_continuing (bytes' : List UInt8) (h : ∀ x ∈ bytes, Continues x) :
    utf8Decode none (bytes ++ bytes') =
      List.replicate bytes.length replacement ++ utf8Decode none bytes' := by
  induction bytes with
  | nil => rfl
  | cons x bytes ih =>
      obtain ⟨⟨hlow, hhigh⟩, hrest⟩ := List.forall_mem_cons.mp h
      have hstart : utf8Start x.toNat = none := by
        unfold utf8Start
        split_ifs <;> first | rfl | omega
      have hbyte : utf8Byte x.toNat none = ([replacement], none) := by
        rw [utf8Byte, utf8First, if_neg (by omega), hstart]
      rw [List.cons_append, utf8Decode_step, hbyte, ih hrest]
      rfl

theorem continues_ofNat (v : ℕ) : Continues (UInt8.ofNat (0x80 + v % 64)) := by
  rw [Continues, toNat_byte (by omega)]
  omega

/-- A character is its first byte and bytes that continue it. -/
theorem encodeChar_cons (c : Char) : ∃ x bytes, encodeChar c = x :: bytes ∧
    ∀ y ∈ bytes, Continues y := by
  unfold encodeChar
  dsimp only
  split_ifs
  · exact ⟨_, _, rfl, nofun⟩
  all_goals refine ⟨_, _, rfl, ?_⟩
  all_goals simp only [List.forall_mem_cons]
  · exact ⟨continues_ofNat _, nofun⟩
  · exact ⟨continues_ofNat _, continues_ofNat _, nofun⟩
  · exact ⟨continues_ofNat _, continues_ofNat _, continues_ofNat _, nofun⟩

/-- A character that is cut behind its first byte is as many replacements as it has bytes. -/
theorem decode_cut (h : 1 < (encodeChar c).length) (bytes' : List UInt8) :
    utf8Decode none ((encodeChar c).take 1) ++
        utf8Decode none ((encodeChar c).drop 1 ++ bytes') =
      List.replicate (encodeChar c).length replacement ++ utf8Decode none bytes' := by
  rw [decode_take_encodeChar Nat.one_pos h]
  obtain ⟨x, rest, hx, hrest⟩ := encodeChar_cons c
  rw [hx, List.drop_succ_cons, List.drop_zero, decode_continuing bytes' hrest, List.length_cons,
    List.replicate_succ]
  rfl

theorem encodeChar_ascii (h : c.toNat < 0x80) : encodeChar c = [UInt8.ofNat c.toNat] := if_pos h

end Decode

end Text

end Bartok.Foundation
