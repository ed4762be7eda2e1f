import Bartok.Bridge.Requests
import Bartok.Foundation.CutText

/-!
# The body of a request

`readBody` appends every chunk to a string, which decodes the chunk by itself, unlike the
reader loops of the page, whose decoder keeps what is pending. So a body whose characters are
cut between two chunks is not the one that was sent. A body that grows too long as a string
is given up.
-/

namespace Bartok.Bridge

open Foundation Json Text

/-- 512 KiB, but counted in code units. -/
def MAX_BODY : ℕ := 512 * 1024

/-- `length` of a JavaScript string. -/
def jsLength (t : Text) : ℕ := (t.flatMap units).length

/-- The variables of `readBody`. -/
structure BodyReader where
  body : Text
  tooBig : Bool
deriving DecidableEq

namespace BodyReader

def new : BodyReader := ⟨[], false⟩

/-- The listener of `data`. -/
def onData (q : BodyReader) (c : List UInt8) : BodyReader :=
  if q.tooBig then q
  else
    let body := q.body ++ fromUtf8Lossy c
    ⟨body, MAX_BODY < jsLength body⟩

end BodyReader

/-- What the body is read as; `none` when the request is destroyed on the way. -/
def receiveBody (chunks : List (List UInt8)) : Option Text :=
  let q := chunks.foldl BodyReader.onData .new
  if q.tooBig then none else some q.body

section Body

variable {chunks : List (List UInt8)} {s t : Text} {q : BodyReader}

theorem jsLength_append : jsLength (s ++ t) = jsLength s + jsLength t := by
  rw [jsLength, List.flatMap_append, List.length_append]
  rfl

theorem foldl_tooBig (h : q.tooBig = true) : chunks.foldl BodyReader.onData q = q := by
  induction chunks with
  | nil => rfl
  | cons c chunks ih =>
      rw [List.foldl_cons, BodyReader.onData, if_pos h]
      exact ih

/-- The text only grows, so that its length at the end decides. -/
theorem foldl_onData (h : jsLength s ≤ MAX_BODY) :
    let q := chunks.foldl BodyReader.onData ⟨s, false⟩
    (q.tooBig = true ↔ MAX_BODY < jsLength (s ++ readBody chunks)) ∧
      (q.tooBig = false → q.body = s ++ readBody chunks) := by
  induction chunks generalizing s with
  | nil =>
      show (false = true ↔ _) ∧ (_ → s = s ++ [])
      rw [readBody, List.flatMap_nil, List.append_nil]
      refine ⟨⟨fun hfalse => absurd hfalse Bool.false_ne_true, fun hlong => ?_⟩, fun _ => rfl⟩
      exact absurd hlong (not_lt.mpr h)
  | cons c chunks ih =>
      have hread : s ++ readBody (c :: chunks) = s ++ fromUtf8Lossy c ++ readBody chunks := by
        rw [readBody, List.flatMap_cons, ← readBody, List.append_assoc]
      dsimp only
      rw [List.foldl_cons, BodyReader.onData, if_neg Bool.false_ne_true, hread]
      by_cases hlong : MAX_BODY < jsLength (s ++ fromUtf8Lossy c)
      · rw [foldl_tooBig (decide_eq_true hlong)]
        refine ⟨⟨fun _ => ?_, fun _ => decide_eq_true hlong⟩, fun hfalse => ?_⟩
        · rw [jsLength_append]
          omega
        · exact absurd hlong (of_decide_eq_false hfalse)
      · dsimp only
        rw [decide_eq_false hlong]
        exact ih (not_lt.mp hlong)

theorem receiveBody_eq : receiveBody chunks =
    if MAX_BODY < jsLength (readBody chunks) then none else some (readBody chunks) := by
  have hfits : jsLength [] ≤ MAX_BODY := Nat.zero_le _
  obtain ⟨hbig, hbody⟩ := foldl_onData hfits
  rw [List.nil_append] at hbig hbody
  unfold receiveBody
  dsimp only
  split
  · next h => rw [if_pos (hbig.mp h)]
  · next h =>
      rw [if_neg fun hlong => h (hbig.mpr hlong)]
      exact congrArg some (hbody (Bool.eq_false_iff.mpr h))

/-- What is handed on fits. -/
theorem receiveBody_le (h : receiveBody chunks = some t) : jsLength t ≤ MAX_BODY := by
  rw [receiveBody_eq] at h
  split at h
  · cases h
  · next hfits => exact Option.some.inj h ▸ not_lt.mp hfits

/-- **A body arrives as it was sent exactly if it fits and no chunk ends in the middle of a
character.** One that does not fit never arrives, however it is cut; and one that is cut
between characters is handled as if it had come at once. -/
theorem body_arrives_iff (h : chunks.flatten = encodeUtf8 t) :
    (receiveBody chunks = some t ↔ jsLength t ≤ MAX_BODY ∧ CleanlyCut chunks) ∧
      (MAX_BODY < jsLength t → receiveBody chunks = none) ∧
      (CleanlyCut chunks → ∀ (rt : Runtime) (st : State) (p : Post) (w : Writes),
        p.chunks = chunks →
          st.post rt p w = st.post rt { p with chunks := [encodeUtf8 t] } w) := by
  have hsame : readBody chunks = t ↔ CleanlyCut chunks := ofPieces_eq_iff h
  refine ⟨⟨fun hread => ⟨receiveBody_le hread, ?_⟩, fun ⟨hfits, hclean⟩ => ?_⟩, fun hlong => ?_, ?_⟩
  · rw [receiveBody_eq] at hread
    split at hread
    · cases hread
    · exact hsame.mp (Option.some.inj hread)
  · rw [receiveBody_eq, hsame.mpr hclean, if_neg (not_lt.mpr hfits)]
  -- a character that is cut makes the text no shorter
  · rw [receiveBody_eq, if_pos]
    exact lt_of_lt_of_le hlong (units_le_ofPieces h)
  · rintro hclean rt st p w rfl
    have hone : readBody [encodeUtf8 t] = t := by
      rw [readBody, List.flatMap_singleton, fromUtf8Lossy_encodeUtf8]
    unfold State.post
    rw [hsame.mpr hclean, hone]
    cases hp : p.endpoint <;> simp only [State.dispatch, hp]

end Body

theorem body_arrives_iff_demo :
    receiveBody [[0x6F, 0x6C], [0xC3, 0xA1]] = some "olá".toList := by
  apply (body_arrives_iff (t := "olá".toList) (by decide)).1.mpr
  refine ⟨by decide, ?_⟩
  simp only [CleanlyCut, List.forall_mem_cons]
  exact ⟨⟨"ol".toList, by decide⟩, ⟨"á".toList, by decide⟩, by simp⟩

/-- The same word, cut one byte later, is read as another. -/
example : receiveBody [[0x6F, 0x6C, 0xC3], [0xA1]] = some "ol\uFFFD\uFFFD".toList := by decide

end Bartok.Bridge
