import Bartok.Foundation.Utf8

/-!
# Lines from pieces

A stream of bytes comes in pieces, cut anywhere. A decoder carries an unfinished character
from one piece to the next, and a reader carries an unfinished line; it hands a line over
when its end is there. The lines that are handed over are those of the whole text, however
the bytes were cut.
-/

namespace Bartok.Foundation

namespace Text

/-! ## The decoder -/

def byteOrderMark : Char := '\uFEFF'

/-- A UTF-8 decoder that keeps what is unfinished. A byte order mark at the very start is no
part of the text. -/
structure TextDecoder where
  pending : Option Utf8Pending
  started : Bool

def TextDecoder.new : TextDecoder := ⟨none, false⟩

def dropMark : Text → Text
  | [] => []
  | c :: s => if c = byteOrderMark then s else c :: s

/-- `decode(bytes, {stream: true})`. -/
def TextDecoder.decode (dec : TextDecoder) (bytes : List UInt8) : Text × TextDecoder :=
  let r := decodeChunk dec.pending bytes
  (if dec.started then r.1 else dropMark r.1, ⟨r.2, dec.started || !r.1.isEmpty⟩)

section Decoder

variable {dec : TextDecoder} {bytes bytes' : List UInt8} {s t : Text}

theorem dropMark_append : dropMark (s ++ t) = if s = [] then dropMark t else dropMark s ++ t := by
  cases s with
  | nil => rfl
  | cons c s =>
      rw [if_neg (List.cons_ne_nil c s), List.cons_append, dropMark, dropMark]
      split <;> rfl

theorem TextDecoder.decode_nil : dec.decode [] = ([], dec) := by
  obtain ⟨pending, started⟩ := dec
  cases started <;> rfl

/-- Two pieces are decoded as one. -/
theorem TextDecoder.decode_append : dec.decode (bytes ++ bytes') =
    ((dec.decode bytes).1 ++ ((dec.decode bytes).2.decode bytes').1,
      ((dec.decode bytes).2.decode bytes').2) := by
  obtain ⟨pending, started⟩ := dec
  simp only [decode, decodeChunk_append]
  cases started with
  | true => simp
  | false =>
      cases hfirst : (decodeChunk pending bytes).1 with
      | nil => simp [dropMark]
      | cons c s =>
          rw [List.cons_append, ← List.cons_append, dropMark_append, if_neg (List.cons_ne_nil c s)]
          simp

theorem TextDecoder.decode_encodeUtf8 (h : s.head? ≠ some byteOrderMark) :
    (TextDecoder.new.decode (encodeUtf8 s)).1 = s := by
  have hdrop : dropMark s = s := by
    cases s with
    | nil => rfl
    | cons c s => exact if_neg fun hc => h (congrArg some hc)
  simp only [decode, new, decodeChunk_encodeUtf8, hdrop]
  rfl

end Decoder

/-! ## The reader -/

section Lines

variable {σ ε : Type*} (onLine : σ → Text → Except ε σ)

/-- Hand over the lines whose ends are in the buffer, and keep the rest. -/
def readLines (s : σ) (buf : Text) : Except ε (σ × Text) :=
  match _h : buf.dropWhile (· ≠ '\n') with
  | [] => .ok (s, buf)
  | _ :: rest => onLine s (buf.takeWhile (· ≠ '\n')) >>= fun s' => readLines s' rest
termination_by buf.length
decreasing_by
  have hle := (List.dropWhile_suffix (l := buf) (· ≠ '\n')).length_le
  rw [_h, List.length_cons] at hle
  omega

variable {onLine} {s : σ} {buf line rest t : Text}

theorem readLines_of_not_mem (h : '\n' ∉ buf) : readLines onLine s buf = .ok (s, buf) := by
  have hnone : buf.dropWhile (· ≠ '\n') = [] :=
    List.dropWhile_eq_nil_iff.mpr fun c hc => by simpa using ne_of_mem_of_not_mem hc h
  rw [readLines]
  split
  · rfl
  · next heq => rw [hnone] at heq; cases heq

theorem readLines_line (h : '\n' ∉ line) : readLines onLine s (line ++ '\n' :: rest) =
    onLine s line >>= fun s' => readLines onLine s' rest := by
  have hline : ∀ c ∈ line, decide (c ≠ '\n') = true := fun c hc => by
    simpa using ne_of_mem_of_not_mem hc h
  have htake : (line ++ '\n' :: rest).takeWhile (· ≠ '\n') = line := by
    rw [List.takeWhile_append_of_pos hline]
    simp
  have hdrop : (line ++ '\n' :: rest).dropWhile (· ≠ '\n') = '\n' :: rest := by
    rw [List.dropWhile_append_of_pos hline]
    simp
  rw [readLines]
  split
  · next heq => rw [hdrop] at heq; cases heq
  · next heq =>
      rw [hdrop, List.cons.injEq] at heq
      rw [htake, heq.2]

/-- What comes later does not change which lines are handed over. -/
theorem readLines_append (buf t : Text) (s : σ) : readLines onLine s (buf ++ t) =
    readLines onLine s buf >>= fun r => readLines onLine r.1 (r.2 ++ t) := by
  by_cases h : '\n' ∈ buf
  · obtain ⟨line, rest, rfl, hline⟩ := List.eq_append_cons_of_mem h
    rw [List.append_assoc, List.cons_append, readLines_line hline, readLines_line hline, bind_assoc]
    exact bind_congr fun s' => readLines_append rest t s'
  · rw [readLines_of_not_mem h]
    rfl
termination_by buf.length

/-- No whole line stays in the buffer. -/
theorem readLines_rest (buf : Text) (s : σ) {s' : σ} (h : readLines onLine s buf = .ok (s', rest)) :
    '\n' ∉ rest := by
  by_cases hmem : '\n' ∈ buf
  · obtain ⟨line, rest', rfl, hline⟩ := List.eq_append_cons_of_mem hmem
    rw [readLines_line hline] at h
    cases hfirst : onLine s line with
    | error e =>
        rw [hfirst] at h
        cases h
    | ok s₁ =>
        rw [hfirst] at h
        exact readLines_rest rest' s₁ h
  · rw [readLines_of_not_mem hmem] at h
    cases h
    exact hmem
termination_by buf.length

/-- Each line with its end. -/
def joinLines (lines : List Text) : Text := lines.flatMap fun line => line ++ ['\n']

theorem readLines_joinLines {lines : List Text} (h : ∀ line ∈ lines, '\n' ∉ line) (s : σ) :
    readLines onLine s (joinLines lines) = (lines.foldlM onLine s).map fun s' => (s', []) := by
  induction lines generalizing s with
  | nil => exact readLines_of_not_mem (List.not_mem_nil)
  | cons line lines ih =>
      have hrest : joinLines (line :: lines) = line ++ '\n' :: joinLines lines := by
        rw [joinLines, List.flatMap_cons, List.append_assoc]
        rfl
      rw [hrest, readLines_line (h line List.mem_cons_self), List.foldlM_cons]
      cases onLine s line with
      | error e => rfl
      | ok s' => exact ih (fun l hl => h l (List.mem_cons_of_mem _ hl)) s'

end Lines

/-- Between two pieces: what the lines made of the state, the line that is not finished, and
the decoder. -/
structure Reader (σ : Type*) where
  state : σ
  buf : Text
  dec : TextDecoder

def Reader.new {σ : Type*} (s : σ) : Reader σ := ⟨s, [], .new⟩

section Reader

variable {σ ε : Type*} (onLine : σ → Text → Except ε σ)

/-- One piece. -/
def Reader.feed (r : Reader σ) (bytes : List UInt8) : Except ε (Reader σ) :=
  let decoded := r.dec.decode bytes
  (readLines onLine r.state (r.buf ++ decoded.1)).map fun out => ⟨out.1, out.2, decoded.2⟩

variable {onLine} {r : Reader σ} {bytes bytes' : List UInt8}

theorem Reader.feed_nil (h : '\n' ∉ r.buf) : r.feed onLine [] = .ok r := by
  rw [feed, TextDecoder.decode_nil, List.append_nil, readLines_of_not_mem h]
  rfl

theorem Reader.feed_append : r.feed onLine (bytes ++ bytes') =
    r.feed onLine bytes >>= fun r' => r'.feed onLine bytes' := by
  simp only [feed, TextDecoder.decode_append]
  rw [← List.append_assoc, readLines_append]
  cases readLines onLine r.state (r.buf ++ (r.dec.decode bytes).1) <;> rfl

theorem Reader.buf_feed {r' : Reader σ} (h : r.feed onLine bytes = .ok r') : '\n' ∉ r'.buf := by
  rw [feed] at h
  cases hread : readLines onLine r.state (r.buf ++ (r.dec.decode bytes).1) with
  | error e =>
      rw [hread] at h
      cases h
  | ok out =>
      rw [hread] at h
      cases h
      exact readLines_rest _ _ hread

/-- The pieces are read as the whole. -/
theorem Reader.feed_flatten (chunks : List (List UInt8)) (h : '\n' ∉ r.buf) :
    chunks.foldlM (Reader.feed onLine) r = r.feed onLine chunks.flatten := by
  induction chunks generalizing r with
  | nil => exact (feed_nil h).symm
  | cons chunk chunks ih =>
      rw [List.foldlM_cons, List.flatten_cons, feed_append]
      cases hfirst : r.feed onLine chunk with
      | error e => rfl
      | ok r' => exact ih (buf_feed hfirst)

/-- **However the bytes of some lines are cut, these lines are handed over, in their order.** -/
theorem Reader.feed_lines {lines : List Text} {chunks : List (List UInt8)} (s : σ)
    (hlines : ∀ line ∈ lines, '\n' ∉ line) (hmark : (joinLines lines).head? ≠ some byteOrderMark)
    (hbytes : chunks.flatten = encodeUtf8 (joinLines lines)) :
    (chunks.foldlM (Reader.feed onLine) (Reader.new s)).map Reader.state =
      lines.foldlM onLine s := by
  have hdecode : (TextDecoder.new.decode chunks.flatten).1 = joinLines lines := by
    rw [hbytes]
    exact TextDecoder.decode_encodeUtf8 hmark
  rw [feed_flatten chunks (show '\n' ∉ (Reader.new s).buf from List.not_mem_nil), feed]
  simp only [new, List.nil_append, hdecode, readLines_joinLines hlines]
  cases lines.foldlM onLine s <;> rfl

end Reader

end Text

end Bartok.Foundation
