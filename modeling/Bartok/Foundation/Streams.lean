import Bartok.Foundation.Utf8

/-!
# Several streams in one text

The pieces of several streams come one after another, and each is decoded by itself. The
pieces of one stream keep their order, so a byte of ASCII that it carries cuts the whole
text in two, and each stream with it.
-/

namespace Bartok.Foundation

namespace Text

/-- A piece of one of the streams. -/
structure StreamPiece (κ : Type*) where
  stream : κ
  bytes : List UInt8

variable {κ : Type*}

/-- The pieces, each decoded by itself. -/
def textOf (ps : List (StreamPiece κ)) : Text := ps.flatMap fun p => fromUtf8Lossy p.bytes

/-- The bytes of one stream. -/
def bytesOf [DecidableEq κ] (k : κ) (ps : List (StreamPiece κ)) : List UInt8 :=
  (ps.filter fun p => p.stream = k).flatMap StreamPiece.bytes

/-- The bytes of all of them, as they come. -/
def allBytes (ps : List (StreamPiece κ)) : List UInt8 := ps.flatMap StreamPiece.bytes

/-- A stream that comes byte by byte. -/
def bytewise (k : κ) (bytes : List UInt8) : List (StreamPiece κ) := bytes.map fun x => ⟨k, [x]⟩

section Streams

variable {ps qs : List (StreamPiece κ)} {p : StreamPiece κ} {k : κ} {bytes a b : List UInt8}
  {x : UInt8}

@[simp] theorem textOf_nil : textOf ([] : List (StreamPiece κ)) = [] := rfl

@[simp] theorem textOf_cons : textOf (p :: ps) = fromUtf8Lossy p.bytes ++ textOf ps := rfl

@[simp] theorem textOf_append : textOf (ps ++ qs) = textOf ps ++ textOf qs := List.flatMap_append

@[simp] theorem textOf_bytewise : textOf (bytewise k bytes) = bytes.map byteChar := by
  induction bytes with
  | nil => rfl
  | cons x bytes ih =>
      rw [bytewise, List.map_cons, textOf_cons, fromUtf8Lossy_singleton, ← bytewise, ih]
      rfl

/-- Pieces whose bytes are all ASCII of a kind have a text of that kind. -/
theorem textOf_all (good : UInt8 → Prop) (ok : Char → Prop)
    (hgood : ∀ x, good x → x.toNat < 0x80 ∧ ok (Char.ofNat x.toNat))
    (h : ∀ x ∈ allBytes ps, good x) : ∀ c ∈ textOf ps, ok c := by
  have hbytes : ∀ bytes : List UInt8, (∀ x ∈ bytes, good x) → ∀ c ∈ fromUtf8Lossy bytes, ok c := by
    intro bytes hall
    induction bytes with
    | nil => exact nofun
    | cons x bytes ih =>
        obtain ⟨hx, hrest⟩ := List.forall_mem_cons.mp hall
        have hcut := fromUtf8Lossy_ascii (hgood x hx).1 [] bytes
        rw [List.nil_append] at hcut
        rw [hcut]
        exact List.forall_mem_cons.mpr ⟨(hgood x hx).2, ih hrest⟩
  intro c hc
  obtain ⟨p, hp, hc⟩ := List.mem_flatMap.mp hc
  exact hbytes p.bytes (fun x hx => h x (List.mem_flatMap.mpr ⟨p, hp, hx⟩)) c hc

theorem textOf_eq_nil (h : allBytes ps = []) : textOf ps = [] := by
  refine List.eq_nil_iff_forall_not_mem.mpr (textOf_all (fun _ => False) (fun _ => False)
    (fun _ hx => hx.elim) fun x hx => ?_)
  rw [h] at hx
  cases hx

/-- Pieces that end with a byte of ASCII have a text that ends with it. -/
theorem textOf_ends (hx : x.toNat < 0x80) (h : allBytes ps = b ++ [x]) :
    ∃ t, textOf ps = t ++ [Char.ofNat x.toNat] := by
  induction ps generalizing b with
  | nil => simp [allBytes] at h
  | cons p ps ih =>
      rw [allBytes, List.flatMap_cons, ← allBytes] at h
      rcases List.append_eq_append_iff.mp h with ⟨d, -, hd⟩ | ⟨d, hp, hd⟩
      · obtain ⟨t, ht⟩ := ih hd
        exact ⟨fromUtf8Lossy p.bytes ++ t, by simp [ht]⟩
      · cases d with
        | nil =>
            obtain ⟨t, ht⟩ := ih (b := []) hd.symm
            exact ⟨fromUtf8Lossy p.bytes ++ t, by simp [ht]⟩
        | cons y d =>
            obtain ⟨rfl, hnil⟩ := List.cons.inj hd
            obtain ⟨rfl, hnone⟩ := List.append_eq_nil_iff.mp hnil.symm
            refine ⟨fromUtf8Lossy b, ?_⟩
            rw [textOf_cons, hp, fromUtf8Lossy_ascii hx, textOf_eq_nil hnone, List.append_nil]
            rfl

theorem textOf_encoded (k : κ) (ts : List Text) :
    textOf (ts.map fun t => ⟨k, encodeUtf8 t⟩) = ts.flatten := by
  induction ts with
  | nil => rfl
  | cons t ts ih => rw [List.map_cons, textOf_cons, fromUtf8Lossy_encodeUtf8, ih, List.flatten_cons]

variable [DecidableEq κ]

@[simp] theorem bytesOf_nil : bytesOf k ([] : List (StreamPiece κ)) = [] := rfl

@[simp] theorem bytesOf_cons :
    bytesOf k (p :: ps) = (if p.stream = k then p.bytes else []) ++ bytesOf k ps := by
  unfold bytesOf
  by_cases hk : p.stream = k
  · rw [List.filter_cons_of_pos (by simpa using hk), if_pos hk, List.flatMap_cons]
  · rw [List.filter_cons_of_neg (by simpa using hk), if_neg hk, List.nil_append]

@[simp] theorem bytesOf_append : bytesOf k (ps ++ qs) = bytesOf k ps ++ bytesOf k qs := by
  rw [bytesOf, List.filter_append, List.flatMap_append]
  rfl

@[simp] theorem bytesOf_bytewise {k' : κ} :
    bytesOf k (bytewise k' bytes) = if k' = k then bytes else [] := by
  induction bytes with
  | nil => simp [bytewise]
  | cons x bytes ih =>
      rw [bytewise, List.map_cons, bytesOf_cons, ← bytewise, ih]
      split_ifs <;> rfl

/-- **A byte of ASCII cuts the text where it stands in its stream.** -/
theorem textOf_cut (hx : x.toNat < 0x80) (h : bytesOf k ps = b ++ x :: a) :
    ∃ ps₁ ps₂, textOf ps = textOf ps₁ ++ Char.ofNat x.toNat :: textOf ps₂ ∧
      bytesOf k ps₁ = b ∧ bytesOf k ps₂ = a ∧
      ∀ k', k' ≠ k → bytesOf k' ps = bytesOf k' ps₁ ++ bytesOf k' ps₂ := by
  induction ps generalizing b with
  | nil => simp at h
  | cons p ps ih =>
      obtain ⟨stream, bytes⟩ := p
      by_cases hk : stream = k
      · subst hk
        have happend : bytes ++ bytesOf stream ps = b ++ x :: a := by simpa using h
        rcases List.append_eq_append_iff.mp happend with ⟨b', rfl, hrest⟩ | ⟨c, rfl, hrest⟩
        -- the byte is in a later piece
        · obtain ⟨ps₁, ps₂, htext, hb, ha, hothers⟩ := ih hrest
          refine ⟨⟨stream, bytes⟩ :: ps₁, ps₂, by simp [htext], by simp [hb], ha, ?_⟩
          intro k' hk'
          simp [hothers k' hk', hk'.symm]
        · cases c with
          | nil =>
              obtain ⟨ps₁, ps₂, htext, hb, ha, hothers⟩ := ih (b := []) (by simpa using hrest.symm)
              refine ⟨⟨stream, b⟩ :: ps₁, ps₂, by simp [htext], by simp [hb], ha, ?_⟩
              intro k' hk'
              simp [hothers k' hk', hk'.symm]
          -- it is in this one
          | cons y c =>
              rw [List.cons_append, List.cons.injEq] at hrest
              obtain ⟨rfl, rfl⟩ := hrest
              refine ⟨[⟨stream, b⟩], ⟨stream, c⟩ :: ps, ?_, by simp, by simp, ?_⟩
              · simp [fromUtf8Lossy_ascii hx]
              · intro k' hk'
                simp [hk'.symm]
      -- a piece of another stream
      · rw [bytesOf_cons, if_neg hk, List.nil_append] at h
        obtain ⟨ps₁, ps₂, htext, hb, ha, hothers⟩ := ih h
        refine ⟨⟨stream, bytes⟩ :: ps₁, ps₂, by simp [htext], by simp [hb, hk], ha, ?_⟩
        intro k' hk'
        simp [hothers k' hk', List.append_assoc]

theorem mem_allBytes (h : x ∈ allBytes ps) : ∃ k, x ∈ bytesOf k ps := by
  obtain ⟨p, hp, hx⟩ := List.mem_flatMap.mp h
  exact ⟨p.stream, List.mem_flatMap.mpr ⟨p, List.mem_filter.mpr ⟨hp, by simp⟩, hx⟩⟩

/-- A text of ASCII that comes alone comes as it is, however it is cut. -/
theorem textOf_ascii {t : Text} (ht : ∀ c ∈ t, c.toNat < 0x80)
    (h : bytesOf k ps = encodeUtf8 t ++ a) (hothers : ∀ k', k' ≠ k → bytesOf k' ps = []) :
    ∃ ps', textOf ps = t ++ textOf ps' ∧ bytesOf k ps' = a ∧
      ∀ k', k' ≠ k → bytesOf k' ps' = [] := by
  induction t generalizing ps with
  | nil => exact ⟨ps, rfl, h, hothers⟩
  | cons c t ih =>
      obtain ⟨hc, ht⟩ := List.forall_mem_cons.mp ht
      have hbyte : (UInt8.ofNat c.toNat).toNat = c.toNat := toNat_byte (by omega)
      rw [encodeUtf8, List.flatMap_cons, encodeChar_ascii hc] at h
      obtain ⟨ps₁, ps₂, htext, hb, ha, hrest⟩ := textOf_cut (b := []) (by rw [hbyte]; exact hc) h
      have hnil : ∀ k', k' ≠ k → bytesOf k' ps₁ = [] ∧ bytesOf k' ps₂ = [] := fun k' hk' =>
        List.append_eq_nil_iff.mp ((hrest k' hk').symm.trans (hothers k' hk'))
      have hfirst : textOf ps₁ = [] := by
        refine textOf_eq_nil (List.eq_nil_iff_forall_not_mem.mpr fun x hx => ?_)
        obtain ⟨k', hx⟩ := mem_allBytes hx
        by_cases hk' : k' = k
        · rw [hk', hb] at hx
          cases hx
        · rw [(hnil k' hk').1] at hx
          cases hx
      obtain ⟨ps', htext', ha', hothers'⟩ := ih ht ha fun k' hk' => (hnil k' hk').2
      exact ⟨ps', by rw [htext, hfirst, hbyte, Char.ofNat_toNat, htext']; rfl, ha', hothers'⟩

end Streams

end Text

end Bartok.Foundation
