import Bartok.Foundation.JsonStrings
import Bartok.Foundation.Utf8
import Mathlib.Algebra.BigOperators.Group.List.Basic
import Mathlib.Algebra.Group.Action.Defs
import Mathlib.Algebra.Order.Ring.Nat

/-!
# A text that is cut into pieces of bytes

The bytes of a text come in pieces, and each piece is decoded by itself. A piece that ends in
the middle of a character leaves a replacement behind, and so does every byte of the rest of
the character. The text that comes out is never shorter than the one that was sent, and it is
this one only if no character was cut.
-/

namespace Bartok.Foundation

namespace Text

open Json

/-- The pieces, each decoded by itself. -/
def ofPieces (pieces : List (List UInt8)) : Text := pieces.flatMap fromUtf8Lossy

/-- No character is cut. -/
def CleanlyCut (pieces : List (List UInt8)) : Prop := ∀ p ∈ pieces, ∃ s : Text, p = encodeUtf8 s

section Pieces

variable {pieces : List (List UInt8)} {p q bytes : List UInt8} {t : Text} {c : Char}

@[simp] theorem ofPieces_cons : ofPieces (p :: pieces) = fromUtf8Lossy p ++ ofPieces pieces := rfl

@[simp] theorem encodeUtf8_cons : encodeUtf8 (c :: t) = encodeChar c ++ encodeUtf8 t := rfl

theorem encodeChar_ne_nil : encodeChar c ≠ [] := by
  obtain ⟨x, bytes, hx, -⟩ := encodeChar_cons c
  rw [hx]
  exact List.cons_ne_nil _ _

/-- Only the bytes behind the first continue a character. -/
theorem continues_drop {j : ℕ} (hpos : 0 < j) : ∀ x ∈ (encodeChar c).drop j, Continues x := by
  obtain ⟨x, bytes, hx, hbytes⟩ := encodeChar_cons c
  obtain ⟨j, rfl⟩ := Nat.exists_eq_succ_of_ne_zero hpos.ne'
  rw [hx, Nat.succ_eq_add_one, List.drop_succ_cons]
  intro y hy
  exact hbytes y (List.mem_of_mem_drop hy)

/-- The bytes of a text are cut between two characters or in one. -/
theorem cut_cases (h : encodeUtf8 t = p ++ q) :
    (∃ t₁ t₂, t = t₁ ++ t₂ ∧ p = encodeUtf8 t₁ ∧ q = encodeUtf8 t₂) ∨
      ∃ t₁ c t₂ j, t = t₁ ++ c :: t₂ ∧ 0 < j ∧ j < (encodeChar c).length ∧
        p = encodeUtf8 t₁ ++ (encodeChar c).take j ∧ q = (encodeChar c).drop j ++ encodeUtf8 t₂ := by
  induction t generalizing p with
  | nil =>
      obtain ⟨rfl, rfl⟩ := List.append_eq_nil_iff.mp h.symm
      exact .inl ⟨[], [], rfl, rfl, rfl⟩
  | cons c t ih =>
      rw [encodeUtf8_cons] at h
      rcases List.append_eq_append_iff.mp h with ⟨d, rfl, hd⟩ | ⟨d, hc, rfl⟩
      -- the cut is behind this character
      · rcases ih hd with ⟨t₁, t₂, rfl, rfl, rfl⟩ | ⟨t₁, c', t₂, j, rfl, hpos, hlt, rfl, rfl⟩
        · exact .inl ⟨c :: t₁, t₂, rfl, rfl, rfl⟩
        · exact .inr ⟨c :: t₁, c', t₂, j, rfl, hpos, hlt, by simp, rfl⟩
      · rcases List.eq_nil_or_concat d with rfl | ⟨d, x, rfl⟩
        · rw [List.append_nil] at hc
          exact .inl ⟨[c], t, rfl, by simp [hc, encodeUtf8], rfl⟩
        · rcases Nat.eq_zero_or_pos p.length with hnil | hpos
          · obtain rfl := List.length_eq_zero_iff.mp hnil
            rw [List.nil_append] at hc
            exact .inl ⟨[], c :: t, rfl, rfl, by rw [encodeUtf8_cons, hc]⟩
          · refine .inr ⟨[], c, t, p.length, rfl, hpos, ?_, ?_, ?_⟩
            · simp [hc]
            · simp [hc, encodeUtf8]
            · simp [hc]

end Pieces

/-! ## What comes out -/

section Sizes

variable {pieces : List (List UInt8)} {bytes : List UInt8} {t : Text} {m : Char → ℕ}

/-- Whatever counts a replacement once and no character more than twice: what comes out counts
at least as much, with the rest of a character that was cut in front. -/
theorem sum_le_ofPieces (hreplacement : m replacement = 1) (hm : ∀ c, m c ≤ 2)
    (hbytes : ∀ x ∈ bytes, Continues x) (h : pieces.flatten = bytes ++ encodeUtf8 t) :
    bytes.length + (t.map m).sum ≤ ((ofPieces pieces).map m).sum := by
  induction pieces generalizing bytes t with
  | nil =>
      obtain ⟨rfl, ht⟩ := List.append_eq_nil_iff.mp h.symm
      cases t with
      | nil => rfl
      | cons c t => exact absurd (List.append_eq_nil_iff.mp ht).1 encodeChar_ne_nil
  | cons p ps ih =>
      have hfront : ∀ (bytes q : List UInt8), (∀ x ∈ bytes, Continues x) →
          ((fromUtf8Lossy (bytes ++ q)).map m).sum =
            bytes.length + ((fromUtf8Lossy q).map m).sum := by
        intro bytes q hall
        rw [fromUtf8Lossy, decode_continuing q hall, List.map_append, List.sum_append,
          List.map_replicate, List.sum_replicate, hreplacement, smul_eq_mul, Nat.mul_one]
        rfl
      rw [ofPieces_cons, List.map_append, List.sum_append]
      rcases List.append_eq_append_iff.mp h with ⟨d, rfl, hd⟩ | ⟨d, rfl, hd⟩
      -- the piece ends in the rest of the character that was cut
      · obtain ⟨hp, hrest⟩ := List.forall_mem_append.mp hbytes
        have hmore := ih hrest hd
        have hpiece := hfront p [] hp
        rw [List.append_nil] at hpiece
        rw [hpiece, List.length_append]
        omega
      · rw [hfront bytes d hbytes]
        rcases cut_cases hd with ⟨t₁, t₂, rfl, rfl, hrest⟩ |
          ⟨t₁, c, t₂, j, rfl, hpos, hlt, rfl, hrest⟩
        · have hmore : ([] : List UInt8).length + (t₂.map m).sum ≤ ((ofPieces ps).map m).sum :=
            ih (fun _ hx => (List.not_mem_nil hx).elim) (by simpa using hrest)
          rw [fromUtf8Lossy_encodeUtf8, List.map_append, List.sum_append]
          rw [List.length_nil] at hmore
          omega
        · have hmore := ih (continues_drop hpos) hrest
          have hc := hm c
          rw [List.length_drop] at hmore
          rw [fromUtf8Lossy_encodeUtf8_append, fromUtf8Lossy, decode_take_encodeChar hpos hlt]
          simp only [List.map_append, List.map_cons, List.sum_append, List.sum_cons, hreplacement,
            List.map_nil, List.sum_nil]
          omega

theorem length_le_ofPieces (hbytes : ∀ x ∈ bytes, Continues x)
    (h : pieces.flatten = bytes ++ encodeUtf8 t) :
    bytes.length + t.length ≤ (ofPieces pieces).length := by
  have hsum := sum_le_ofPieces (m := fun _ => 1) rfl (fun _ => Nat.le_succ 1) hbytes h
  simpa using hsum

theorem length_units_le (c : Char) : (units c).length ≤ 2 := by
  unfold units
  split <;> simp

/-- As a JavaScript string it is no shorter. -/
theorem units_le_ofPieces (h : pieces.flatten = encodeUtf8 t) :
    (t.flatMap units).length ≤ ((ofPieces pieces).flatMap units).length := by
  have hsum : ([] : List UInt8).length + (t.map fun c => (units c).length).sum ≤
      ((ofPieces pieces).map fun c => (units c).length).sum :=
    sum_le_ofPieces (by decide) length_units_le nofun h
  rw [List.length_flatMap, List.length_flatMap]
  rwa [List.length_nil, Nat.zero_add] at hsum

/-- **The text comes out as it was sent exactly if no character was cut.** -/
theorem ofPieces_eq_iff (h : pieces.flatten = encodeUtf8 t) :
    ofPieces pieces = t ↔ CleanlyCut pieces := by
  constructor
  · intro hsame
    induction pieces generalizing t with
    | nil => exact nofun
    | cons p ps ih =>
        rw [List.flatten_cons] at h
        rcases cut_cases h.symm with ⟨t₁, t₂, rfl, rfl, hrest⟩ |
          ⟨t₁, c, t₂, j, rfl, hpos, hlt, rfl, hrest⟩
        · rw [ofPieces_cons, fromUtf8Lossy_encodeUtf8] at hsame
          exact List.forall_mem_cons.mpr ⟨⟨t₁, rfl⟩, ih hrest (List.append_cancel_left hsame)⟩
        -- the rest of the character is too long
        · rw [ofPieces_cons, fromUtf8Lossy_encodeUtf8_append, fromUtf8Lossy,
            decode_take_encodeChar hpos hlt, List.append_assoc] at hsame
          have htail : ofPieces ps = t₂ := (List.cons.inj (List.append_cancel_left hsame)).2
          have hlong := length_le_ofPieces (continues_drop hpos) hrest
          rw [htail, List.length_drop] at hlong
          omega
  · intro hclean
    apply encodeUtf8_injective
    rw [← h]
    clear h
    induction pieces with
    | nil => rfl
    | cons p ps ih =>
        obtain ⟨⟨s, rfl⟩, hps⟩ := List.forall_mem_cons.mp hclean
        rw [ofPieces_cons, encodeUtf8_append, fromUtf8Lossy_encodeUtf8, ih hps, List.flatten_cons]

end Sizes

end Text

end Bartok.Foundation
