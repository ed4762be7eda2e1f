import Bartok.Foundation.JsonText

/-!
# Code units and characters

A JavaScript string is any list of code units; it is a text when each half of a surrogate
pair stands by the other. A cut leaves a text exactly if it does not fall between two
halves.
-/

namespace Bartok.Foundation

open Text

/-- The code units of a text. -/
def WellFormed (us : Utf16) : Prop := ∃ s : Text, s.flatMap units = us

section Units

variable {us vs : Utf16} {u v : UInt16} {c d : Char} {n : ℕ}

theorem toNat_unit {k : ℕ} (h : k < 65536) : (UInt16.ofNat k).toNat = k :=
  UInt16.toNat_ofNat_of_lt' h

/-- A character is one unit that is no half of a pair, or two halves. -/
theorem units_cases (c : Char) :
    (∃ u, units c = [u] ∧ isHighSurrogate u = false ∧ isLowSurrogate u = false) ∨
      ∃ u v, units c = [u, v] ∧ isHighSurrogate u = true ∧ isLowSurrogate v = true := by
  have hvalid : c.toNat < 0xD800 ∨ 0xDFFF < c.toNat ∧ c.toNat < 0x110000 := c.valid
  unfold units
  split
  · next hsmall =>
      refine .inl ⟨_, rfl, ?_, ?_⟩
      · simp only [isHighSurrogate, Bool.and_eq_false_iff, decide_eq_false_iff_not, Nat.not_le,
          toNat_unit hsmall]
        omega
      · simp only [isLowSurrogate, Bool.and_eq_false_iff, decide_eq_false_iff_not, Nat.not_le,
          toNat_unit hsmall]
        omega
  · refine .inr ⟨_, _, rfl, ?_, ?_⟩
    · simp only [isHighSurrogate, Bool.and_eq_true, decide_eq_true_eq]
      rw [toNat_unit (by omega)]
      omega
    · simp only [isLowSurrogate, Bool.and_eq_true, decide_eq_true_eq]
      rw [toNat_unit (by omega)]
      omega

/-- The units at the front tell which character they are. -/
theorem units_append_inj (h : units c ++ us = units d ++ vs) : c = d ∧ us = vs := by
  have hc : c.toNat < 0xD800 ∨ 0xDFFF < c.toNat ∧ c.toNat < 0x110000 := c.valid
  have hd : d.toNat < 0xD800 ∨ 0xDFFF < d.toNat ∧ d.toNat < 0x110000 := d.valid
  have hext : c.toNat = d.toNat → c = d := Char.toNat_inj.mp
  have hunit : ∀ {k l : ℕ}, k < 65536 → l < 65536 → UInt16.ofNat k = UInt16.ofNat l → k = l := by
    intro k l hk hl heq
    rw [← toNat_unit hk, heq, toNat_unit hl]
  unfold units at h
  split_ifs at h with hcs hds hds
  · obtain ⟨hfirst, hrest⟩ := List.cons.inj h
    exact ⟨hext (hunit hcs hds hfirst), hrest⟩
  · obtain ⟨hfirst, -⟩ := List.cons.inj h
    have := hunit hcs (by omega) hfirst
    omega
  · obtain ⟨hfirst, -⟩ := List.cons.inj h
    have := hunit (by omega) hds hfirst
    omega
  · obtain ⟨hfirst, hrest⟩ := List.cons.inj h
    obtain ⟨hsecond, hrest⟩ := List.cons.inj hrest
    have hhigh := hunit (by omega) (by omega) hfirst
    have hlow := hunit (by omega) (by omega) hsecond
    exact ⟨hext (by omega), hrest⟩

theorem flatMap_units_injective : Function.Injective fun s : Text => s.flatMap units := by
  have hne : ∀ c (us : Utf16), units c ++ us ≠ [] := by
    intro c us h
    rcases units_cases c with ⟨u, hu, -⟩ | ⟨u, v, hu, -⟩ <;> simp [hu] at h
  intro s t h
  induction s generalizing t with
  | nil =>
      cases t with
      | nil => rfl
      | cons d t => exact absurd (h.symm.trans List.flatMap_nil) (hne d _)
  | cons c s ih =>
      cases t with
      | nil => exact absurd h (hne c _)
      | cons d t =>
          obtain ⟨rfl, hrest⟩ := units_append_inj h
          exact congrArg (c :: ·) (ih hrest)

theorem wellFormed_nil : WellFormed [] := ⟨[], rfl⟩

theorem WellFormed.append (hu : WellFormed us) (hv : WellFormed vs) : WellFormed (us ++ vs) := by
  obtain ⟨s, rfl⟩ := hu
  obtain ⟨t, rfl⟩ := hv
  exact ⟨s ++ t, List.flatMap_append⟩

theorem wellFormed_units (c : Char) : WellFormed (units c) := ⟨[c], List.flatMap_singleton _ _⟩

/-- A text does not end in the first half of a pair. -/
theorem WellFormed.getLast (h : WellFormed us) : ∀ u ∈ us.getLast?, isHighSurrogate u = false := by
  obtain ⟨s, rfl⟩ := h
  intro u hu
  cases s using List.reverseRecOn with
  | nil => cases hu
  | append_singleton s c =>
      rw [List.flatMap_append, List.flatMap_singleton] at hu
      rcases units_cases c with ⟨v, hv, hhigh, -⟩ | ⟨v, w, hvw, -, hlow⟩
      · rw [hv, List.getLast?_concat] at hu
        exact Option.some.inj hu ▸ hhigh
      · rw [hvw, List.getLast?_append_of_ne_nil _ (List.cons_ne_nil _ _)] at hu
        obtain rfl : w = u := Option.some.inj hu
        simp only [isLowSurrogate, isHighSurrogate, Bool.and_eq_true, decide_eq_true_eq,
          Bool.and_eq_false_iff, decide_eq_false_iff_not, Nat.not_le] at hlow ⊢
        omega

/-- The start of a text is one, or it is one and the first half of a pair. -/
theorem take_units : ∀ (s : Text) (n : ℕ), WellFormed ((s.flatMap units).take n) ∨
    ∃ us u, (s.flatMap units).take n = us ++ [u] ∧ isHighSurrogate u = true
  | [], n => by
      rw [List.flatMap_nil, List.take_nil]
      exact .inl wellFormed_nil
  | c :: s, n => by
      rw [List.flatMap_cons, List.take_append]
      rcases Nat.lt_or_ge n (units c).length with hlt | hge
      · rw [Nat.sub_eq_zero_of_le hlt.le, List.take_zero, List.append_nil]
        rcases units_cases c with ⟨u, hu, -⟩ | ⟨u, v, huv, hhigh, -⟩
        · obtain rfl : n = 0 := by simpa [hu] using hlt
          exact .inl wellFormed_nil
        · rw [huv] at hlt ⊢
          match n, hlt with
          | 0, _ => exact .inl wellFormed_nil
          | 1, _ => exact .inr ⟨[], u, rfl, hhigh⟩
      · rw [List.take_of_length_le hge]
        rcases take_units s (n - (units c).length) with hrest | ⟨us, u, hrest, hhigh⟩
        · exact .inl ((wellFormed_units c).append hrest)
        · exact .inr ⟨units c ++ us, u, by rw [hrest, List.append_assoc], hhigh⟩

/-- **A cut leaves a text exactly if its last unit is not the first half of a pair.** -/
theorem wellFormed_take_iff (h : WellFormed us) :
    WellFormed (us.take n) ↔ ∀ u ∈ (us.take n).getLast?, isHighSurrogate u = false := by
  refine ⟨WellFormed.getLast, fun hlast => ?_⟩
  obtain ⟨s, rfl⟩ := h
  rcases take_units s n with hwhole | ⟨us, u, hcut, hhigh⟩
  · exact hwhole
  · rw [hcut, List.getLast?_concat] at hlast
    rw [hlast u rfl] at hhigh
    cases hhigh

/-- A character of one unit at the end makes no difference. -/
theorem wellFormed_concat (hc : units c = [u]) : WellFormed (us ++ [u]) ↔ WellFormed us := by
  constructor
  · rintro ⟨s, hs⟩
    cases s using List.reverseRecOn with
    | nil => simp at hs
    | append_singleton s d =>
        rw [List.flatMap_append, List.flatMap_singleton] at hs
        rcases units_cases d with ⟨v, hv, -⟩ | ⟨v, w, hvw, -, hlow⟩
        · rw [hv] at hs
          exact ⟨s, (List.append_inj' hs rfl).1⟩
        · -- the last unit is no half of a pair
          exfalso
          rw [hvw, List.append_cons] at hs
          obtain rfl : w = u := by simpa using (List.append_inj' hs rfl).2
          rcases units_cases c with ⟨u', hu', -, hnot⟩ | ⟨u', v', huv', -⟩
          · rw [hc] at hu'
            obtain rfl : w = u' := by simpa using hu'
            rw [hlow] at hnot
            cases hnot
          · rw [hc] at huv'
            cases huv'
  · exact fun h => h.append (hc ▸ wellFormed_units c)

theorem units_ofNat (hhigh : isHighSurrogate u = false) (hlow : isLowSurrogate u = false) :
    units (Char.ofNat u.toNat) = [u] := by
  simp only [isHighSurrogate, isLowSurrogate, Bool.and_eq_false_iff, decide_eq_false_iff_not,
    Nat.not_le] at hhigh hlow
  have hu : u.toNat < 65536 := u.toNat_lt
  rw [units, toNat_ofNat (by omega), if_pos (by omega), UInt16.ofNat_toNat]

theorem units_pairChar (hhigh : isHighSurrogate u = true) (hlow : isLowSurrogate v = true) :
    units (pairChar u v) = [u, v] := by
  simp only [isHighSurrogate, isLowSurrogate, Bool.and_eq_true, decide_eq_true_eq] at hhigh hlow
  have hnat : (pairChar u v).toNat = 0x10000 + 0x400 * (u.toNat - 0xD800) + (v.toNat - 0xDC00) :=
    toNat_ofNat (by omega)
  rw [units, if_neg (by omega), hnat,
    show 0xD800 + (0x10000 + 0x400 * (u.toNat - 0xD800) + (v.toNat - 0xDC00) - 0x10000) / 0x400 =
      u.toNat by omega,
    show 0xDC00 + (0x10000 + 0x400 * (u.toNat - 0xD800) + (v.toNat - 0xDC00) - 0x10000) % 0x400 =
      v.toNat by omega, UInt16.ofNat_toNat, UInt16.ofNat_toNat]

/-- A text starts with one unit or with both halves of a pair. -/
theorem wellFormed_cons : WellFormed (u :: us) ↔
    isHighSurrogate u = false ∧ isLowSurrogate u = false ∧ WellFormed us ∨
      isHighSurrogate u = true ∧
        ∃ v rest, us = v :: rest ∧ isLowSurrogate v = true ∧ WellFormed rest := by
  constructor
  · rintro ⟨s, hs⟩
    cases s with
    | nil => cases hs
    | cons c s =>
        rw [List.flatMap_cons] at hs
        rcases units_cases c with ⟨u', hu', hhigh, hlow⟩ | ⟨u', v, huv, hhigh, hlow⟩
        · rw [hu'] at hs
          obtain ⟨rfl, rfl⟩ := List.cons.inj hs
          exact .inl ⟨hhigh, hlow, s, rfl⟩
        · rw [huv] at hs
          obtain ⟨rfl, rfl⟩ := List.cons.inj hs
          exact .inr ⟨hhigh, v, _, rfl, hlow, s, rfl⟩
  · rintro (⟨hhigh, hlow, s, rfl⟩ | ⟨hhigh, v, _, rfl, hlow, s, rfl⟩)
    · exact ⟨Char.ofNat u.toNat :: s, by rw [List.flatMap_cons, units_ofNat hhigh hlow]; rfl⟩
    · exact ⟨pairChar u v :: s, by rw [List.flatMap_cons, units_pairChar hhigh hlow]; rfl⟩

end Units

end Bartok.Foundation
