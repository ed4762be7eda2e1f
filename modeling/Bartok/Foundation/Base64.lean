import Bartok.Foundation.Text
import Mathlib.Data.List.DropRight

/-!
# Base64

The encoder of the standard alphabet with padding, and the forgiving decoder of the web
platform, which skips white space, takes at most two signs of padding off a text of full
length, and drops the bits that no byte has.
-/

namespace Bartok.Foundation

namespace Base64

def alphabet : Text :=
  "ABCDEFGHIJKLMNOPQRSTUVWXYZabcdefghijklmnopqrstuvwxyz0123456789+/".toList

def digit (n : ℕ) : Char := alphabet.getD n 'A'

def value (c : Char) : Option ℕ := alphabet.idxOf? c

/-- Six bits at a time; the last ones are filled up with zeros. -/
def sextets : List UInt8 → List ℕ
  | a :: b :: c :: bytes =>
      a.toNat / 4 :: (a.toNat % 4 * 16 + b.toNat / 16) :: (b.toNat % 16 * 4 + c.toNat / 64) ::
        c.toNat % 64 :: sextets bytes
  | [a, b] => [a.toNat / 4, a.toNat % 4 * 16 + b.toNat / 16, b.toNat % 16 * 4]
  | [a] => [a.toNat / 4, a.toNat % 4 * 16]
  | [] => []

def padding (n : ℕ) : Text := List.replicate ((3 - n % 3) % 3) '='

def encode (bytes : List UInt8) : Text := (sextets bytes).map digit ++ padding bytes.length

/-- ASCII white space. -/
def isSpace (c : Char) : Bool := c = '\t' || c = '\n' || c = '\x0C' || c = '\r' || c = ' '

/-- Without one sign of padding at the end. -/
def unpadOne (t : Text) : Text := if t.getLast? = some '=' then t.dropLast else t

/-- Four signs are three bytes, the rest are as many bytes as they have full. -/
def ofSextets : List ℕ → Option (List UInt8)
  | p :: q :: r :: s :: rest => do
      let bytes ← ofSextets rest
      return UInt8.ofNat (4 * p + q / 16) :: UInt8.ofNat (q % 16 * 16 + r / 4) ::
        UInt8.ofNat (r % 4 * 64 + s) :: bytes
  | [p, q, r] => some [UInt8.ofNat (4 * p + q / 16), UInt8.ofNat (q % 16 * 16 + r / 4)]
  | [p, q] => some [UInt8.ofNat (4 * p + q / 16)]
  | [_] => none
  | [] => some []

/-- `atob`, with the characters it answers as bytes; `none` when it throws. -/
def decode (t : Text) : Option (List UInt8) := do
  let t := t.filter fun c => !isSpace c
  let t := if t.length % 4 = 0 then unpadOne (unpadOne t) else t
  let values ← t.mapM value
  ofSextets values

section RoundTrip

variable {bytes : List UInt8} {t : Text} {n k : ℕ}

theorem value_digit : ∀ n < 64, value (digit n) = some n := by decide

theorem digit_plain : ∀ n < 64, isSpace (digit n) = false ∧ digit n ≠ '=' ∧
    (digit n).toNat < 0x80 := by decide +kernel

theorem sextets_lt (bytes : List UInt8) : ∀ n ∈ sextets bytes, n < 64 := by
  have hbyte : ∀ a : UInt8, a.toNat < 256 := UInt8.toNat_lt
  induction bytes using sextets.induct with
  | case1 a b c bytes ih =>
      have ha := hbyte a
      have hb := hbyte b
      have hc := hbyte c
      simp only [sextets, List.forall_mem_cons]
      exact ⟨by omega, by omega, by omega, by omega, ih⟩
  | case2 a b =>
      have ha := hbyte a
      have hb := hbyte b
      simp only [sextets, List.forall_mem_cons]
      exact ⟨by omega, by omega, by omega, nofun⟩
  | case3 a =>
      have ha := hbyte a
      simp only [sextets, List.forall_mem_cons]
      exact ⟨by omega, by omega, nofun⟩
  | case4 => exact nofun

theorem length_encode (bytes : List UInt8) : (encode bytes).length % 4 = 0 := by
  rw [encode, padding, List.length_append, List.length_map, List.length_replicate]
  induction bytes using sextets.induct with
  | case1 a b c bytes ih =>
      simp only [sextets, List.length_cons]
      omega
  | case2 a b => simp [sextets]
  | case3 a => simp [sextets]
  | case4 => rfl

theorem ofSextets_sextets (bytes : List UInt8) : ofSextets (sextets bytes) = some bytes := by
  have hbyte : ∀ a : UInt8, a.toNat < 256 := UInt8.toNat_lt
  have hsame : ∀ (a : UInt8) (n : ℕ), n = a.toNat → UInt8.ofNat n = a := by
    rintro a n rfl
    exact UInt8.ofNat_toNat
  induction bytes using sextets.induct with
  | case1 a b c bytes ih =>
      have ha := hbyte a
      have hb := hbyte b
      have hc := hbyte c
      rw [sextets, ofSextets, ih, hsame a _ (by omega), hsame b _ (by omega),
        hsame c _ (by omega)]
      rfl
  | case2 a b =>
      have ha := hbyte a
      have hb := hbyte b
      rw [sextets, ofSextets, hsame a _ (by omega), hsame b _ (by omega)]
  | case3 a =>
      have ha := hbyte a
      rw [sextets, ofSextets, hsame a _ (by omega)]
  | case4 => rfl

theorem mapM_value {ns : List ℕ} (h : ∀ n ∈ ns, n < 64) : (ns.map digit).mapM value = some ns := by
  induction ns with
  | nil => rfl
  | cons n ns ih =>
      obtain ⟨hn, hns⟩ := List.forall_mem_cons.mp h
      rw [List.map_cons, List.mapM_cons, value_digit n hn, ih hns]
      rfl

theorem unpadOne_concat : unpadOne (t ++ ['=']) = t := by
  rw [unpadOne, List.getLast?_concat, if_pos rfl, List.dropLast_concat]

theorem unpadOne_plain (h : ∀ c ∈ t, c ≠ '=') : unpadOne t = t := by
  rw [unpadOne, if_neg]
  intro hlast
  exact h '=' (List.mem_of_getLast? hlast) rfl

/-- Up to two signs of padding are taken off. -/
theorem unpad_padding (h : ∀ c ∈ t, c ≠ '=') : unpadOne (unpadOne (t ++ padding n)) = t := by
  have hpad : padding n = [] ∨ padding n = ['='] ∨ padding n = ['=', '='] := by
    have hcases : (3 - n % 3) % 3 = 0 ∨ (3 - n % 3) % 3 = 1 ∨ (3 - n % 3) % 3 = 2 := by omega
    unfold padding
    rcases hcases with hk | hk | hk
    · exact .inl (by rw [hk]; rfl)
    · exact .inr (.inl (by rw [hk]; rfl))
    · exact .inr (.inr (by rw [hk]; rfl))
  rcases hpad with hpad | hpad | hpad
  · rw [hpad, List.append_nil, unpadOne_plain h, unpadOne_plain h]
  · rw [hpad, unpadOne_concat, unpadOne_plain h]
  · rw [hpad, show t ++ ['=', '='] = t ++ ['='] ++ ['='] by simp, unpadOne_concat,
      unpadOne_concat]

theorem encode_plain (bytes : List UInt8) :
    ∀ c ∈ encode bytes, isSpace c = false ∧ c.toNat < 0x80 := by
  intro c hc
  rcases List.mem_append.mp hc with hc | hc
  · obtain ⟨n, hn, rfl⟩ := List.mem_map.mp hc
    have hplain := digit_plain n (sextets_lt bytes n hn)
    exact ⟨hplain.1, hplain.2.2⟩
  · obtain rfl := List.eq_of_mem_replicate hc
    decide

/-- **What is encoded is decoded.** -/
@[simp] theorem decode_encode (bytes : List UInt8) : decode (encode bytes) = some bytes := by
  have hfilter : (encode bytes).filter (fun c => !isSpace c) = encode bytes :=
    List.filter_eq_self.mpr fun c hc => by simp [(encode_plain bytes c hc).1]
  have hdigits : ∀ c ∈ (sextets bytes).map digit, c ≠ '=' := by
    intro c hc
    obtain ⟨n, hn, rfl⟩ := List.mem_map.mp hc
    exact (digit_plain n (sextets_lt bytes n hn)).2.1
  have hunpad : unpadOne (unpadOne (encode bytes)) = (sextets bytes).map digit :=
    unpad_padding hdigits
  rw [decode, hfilter, if_pos (length_encode bytes), hunpad, mapM_value (sextets_lt bytes)]
  exact ofSextets_sextets bytes

end RoundTrip

example : encode [0x72, 0x65, 0x66, 0x75, 0x6E, 0x64] = "cmVmdW5k".toList := by decide

end Base64

end Bartok.Foundation
