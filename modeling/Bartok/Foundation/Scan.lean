import Bartok.Foundation.Text

/-!
# Scanning by the first match

A reader that does not parse looks for the first occurrence of a pattern, goes on to the
next opening character and takes the text up to where it is closed, by counting. These
are the places where it stops, said of the text alone.
-/

namespace Bartok.Foundation

namespace Text

variable {pat s t pre rest : Text} {c op cl : Char}

/-! ## The first occurrence -/

/-- Of two ways to cut a text, the later cuts what the earlier leaves. -/
theorem append_split {a b a' b' : Text} (h : a ++ b = a' ++ b') (hle : a.length ≤ a'.length) :
    ∃ d, a' = a ++ d ∧ b = d ++ b' := by
  rcases List.append_eq_append_iff.mp h with ⟨d, ha, hb⟩ | ⟨d, rfl, rfl⟩
  · exact ⟨d, ha, hb⟩
  · obtain rfl : d = [] := by
      rw [List.length_append] at hle
      exact List.eq_nil_of_length_eq_zero (by omega)
    exact ⟨[], by simp, rfl⟩

/-- `after?` answers what follows the leftmost occurrence. -/
theorem after?_eq_some : after? pat s = some rest ↔
    ∃ a, s = a ++ (pat ++ rest) ∧ ∀ a' b, s = a' ++ (pat ++ b) → a.length ≤ a'.length := by
  induction s with
  | nil =>
      simp only [after?, Option.ite_none_right_eq_some, Option.some.injEq]
      constructor
      · rintro ⟨rfl, rfl⟩
        exact ⟨[], rfl, fun _ _ _ => Nat.zero_le _⟩
      · rintro ⟨a, hs, -⟩
        obtain ⟨-, hs⟩ := List.append_eq_nil_iff.mp hs.symm
        obtain ⟨hpat, hrest⟩ := List.append_eq_nil_iff.mp hs
        exact ⟨hpat, hrest.symm⟩
  | cons c s ih =>
      rw [after?]
      by_cases hpre : pat.isPrefixOf (c :: s) = true
      · have hs : c :: s = pat ++ (c :: s).drop pat.length :=
          (List.prefix_iff_eq_append.mp (List.isPrefixOf_iff_prefix.mp hpre)).symm
        rw [if_pos hpre, Option.some.injEq]
        constructor
        · rintro rfl
          exact ⟨[], hs, fun _ _ _ => Nat.zero_le _⟩
        · rintro ⟨a, ha, hfirst⟩
          obtain rfl := List.eq_nil_of_length_eq_zero (Nat.le_zero.mp (hfirst [] _ hs))
          rw [ha, List.nil_append, List.drop_left]
      · rw [if_neg hpre, ih]
        have hhead : ∀ {a b}, c :: s = a ++ (pat ++ b) →
            ∃ a', a = c :: a' ∧ s = a' ++ (pat ++ b) := by
          intro a b h
          cases a with
          | nil =>
              exact absurd (List.isPrefixOf_iff_prefix.mpr ⟨b, h.symm⟩) hpre
          | cons d a =>
              obtain ⟨rfl, hs⟩ := List.cons.inj h
              exact ⟨a, rfl, hs⟩
        constructor
        · rintro ⟨a, rfl, hfirst⟩
          refine ⟨c :: a, rfl, fun a' b h => ?_⟩
          obtain ⟨a', rfl, hs⟩ := hhead h
          exact Nat.succ_le_succ (hfirst a' b hs)
        · rintro ⟨a, ha, hfirst⟩
          obtain ⟨a, rfl, hs⟩ := hhead ha
          refine ⟨a, hs, fun a' b h => ?_⟩
          exact Nat.le_of_succ_le_succ (hfirst (c :: a') b (congrArg (c :: ·) h))

theorem after?_isSome {a b : Text} : ∃ rest, after? pat (a ++ (pat ++ b)) = some rest := by
  induction a with
  | nil =>
      refine ⟨b, after?_eq_some.mpr ⟨[], rfl, fun _ _ _ => Nat.zero_le _⟩⟩
  | cons c a ih =>
      rw [List.cons_append, after?]
      split
      · exact ⟨_, rfl⟩
      · exact ih

/-! ## The next character -/

/-- The pattern occurs, and the character does not occur after it. -/
structure Clear (pat : Text) (c : Char) (pre : Text) : Prop where
  occurs : ∃ a b, pre = a ++ (pat ++ b)
  clear : ∀ a b, pre = a ++ (pat ++ b) → c ∉ b

theorem clear_iff : Clear pat c pre ↔ ∃ b, after? pat pre = some b ∧ c ∉ b := by
  constructor
  · rintro ⟨⟨a, b, rfl⟩, hclear⟩
    obtain ⟨rest, hrest⟩ : ∃ rest, after? pat (a ++ (pat ++ b)) = some rest := after?_isSome
    obtain ⟨a', ha', -⟩ := after?_eq_some.mp hrest
    exact ⟨rest, hrest, hclear a' rest ha'⟩
  · rintro ⟨b, hb, hc⟩
    obtain ⟨a, rfl, hfirst⟩ := after?_eq_some.mp hb
    refine ⟨⟨a, b, rfl⟩, fun a' b' h hc' => hc ?_⟩
    -- a later occurrence is followed by less
    have hle := hfirst a' b' h
    rw [← List.append_assoc, ← List.append_assoc] at h
    obtain ⟨d, -, rfl⟩ := append_split h (by simpa using hle)
    exact List.mem_append_right _ hc'

instance (pat : Text) (c : Char) (pre : Text) : Decidable (Clear pat c pre) :=
  match h : after? pat pre with
  | none => isFalse fun hclear => by
      obtain ⟨b, hb, -⟩ := clear_iff.mp hclear
      cases h.symm.trans hb
  | some b => decidable_of_iff (c ∉ b) <| by
      rw [clear_iff, h]
      simp

/-- Where a scan for a pattern, and then for a character, stops. -/
theorem scan_eq_some : (∃ b, after? pat s = some b ∧ b.dropWhile (· ≠ c) = c :: t) ↔
    ∃ pre, s = pre ++ c :: t ∧ Clear pat c pre := by
  constructor
  · rintro ⟨b, hb, hdrop⟩
    obtain ⟨a, rfl, hfirst⟩ := after?_eq_some.mp hb
    have hsplit : b = b.takeWhile (· ≠ c) ++ c :: t := by
      rw [← hdrop, List.takeWhile_append_dropWhile]
    have hc : c ∉ b.takeWhile (· ≠ c) := fun hmem => by simpa using List.mem_takeWhile_imp hmem
    generalize b.takeWhile (· ≠ c) = skipped at hsplit hc
    subst hsplit
    refine ⟨a ++ (pat ++ skipped), by simp, clear_iff.mpr ⟨skipped, ?_, hc⟩⟩
    refine after?_eq_some.mpr ⟨a, rfl, fun a' b h => hfirst a' (b ++ c :: t) ?_⟩
    rw [← List.append_assoc pat, ← List.append_assoc a, h]
    simp
  · rintro ⟨pre, rfl, hclear⟩
    obtain ⟨skipped, hskipped, hc⟩ := clear_iff.mp hclear
    obtain ⟨a, rfl, hfirst⟩ := after?_eq_some.mp hskipped
    have hdrop : (skipped ++ c :: t).dropWhile (· ≠ c) = c :: t := by
      rw [List.dropWhile_append_of_pos fun d hd => by
        simpa using fun heq : d = c => hc (heq ▸ hd)]
      simp
    refine ⟨skipped ++ c :: t, after?_eq_some.mpr ⟨a, by simp, fun a' b h => ?_⟩, hdrop⟩
    -- an earlier occurrence would be in front of the character, too
    by_contra hlt
    rw [Nat.not_le] at hlt
    have h' : a' ++ pat ++ b = a ++ (pat ++ skipped) ++ c :: t := by rw [h]; simp
    obtain ⟨d, hd, -⟩ := append_split h' (by simp; omega)
    exact absurd (hfirst a' d (by rw [hd]; simp)) (Nat.not_le_of_lt hlt)

theorem Clear.scan (h : Clear pat c pre) (t : Text) :
    ∃ b, after? pat (pre ++ c :: t) = some b ∧ b.dropWhile (· ≠ c) = c :: t :=
  scan_eq_some.mpr ⟨pre, rfl, h⟩

/-! ## Counting brackets -/

/-- `d` brackets deep, the text closes all of them, and not before its end. -/
structure Closes (op cl : Char) (d : ℕ) (s : Text) : Prop where
  total : d + s.count op = s.count cl
  inside : ∀ p q, s = p ++ q → q ≠ [] → p.count cl < d + p.count op

/-- How deep it is after a character. -/
def deeper (op cl : Char) (d : ℕ) (c : Char) : ℕ :=
  if c = op then d + 1 else if c = cl then d - 1 else d

/-- One character moves the balance of the brackets as it moves the depth. -/
theorem deeper_count (hne : op ≠ cl) {d : ℕ} (hd : 0 < d) (s : Text) :
    d + (c :: s).count op + s.count cl = deeper op cl d c + s.count op + (c :: s).count cl := by
  simp only [List.count_cons, deeper, beq_iff_eq]
  by_cases hop : c = op
  · rw [if_pos hop, if_pos hop, if_neg (hop ▸ hne)]
    omega
  · rw [if_neg hop, if_neg hop]
    split <;> omega

theorem closes_cons (hne : op ≠ cl) {d : ℕ} :
    Closes op cl d (c :: s) ↔ 0 < d ∧ Closes op cl (deeper op cl d c) s := by
  constructor
  · rintro ⟨htotal, hinside⟩
    have hd : 0 < d := hinside [] (c :: s) rfl (List.cons_ne_nil _ _)
    refine ⟨hd, ?_, fun p q h hq => ?_⟩
    · have := deeper_count (c := c) hne hd s
      omega
    · have := hinside (c :: p) q (congrArg (c :: ·) h) hq
      have := deeper_count (c := c) hne hd p
      omega
  · rintro ⟨hd, htotal, hinside⟩
    refine ⟨?_, fun p q h hq => ?_⟩
    · have := deeper_count (c := c) hne hd s
      omega
    · cases p with
      | nil => exact hd
      | cons c' p =>
          obtain ⟨rfl, hs⟩ := List.cons.inj h
          have := hinside p q hs hq
          have := deeper_count (c := c) hne hd p
          omega

theorem closes_nil {d : ℕ} : Closes op cl d [] ↔ d = 0 := by
  constructor
  · exact fun h => h.total
  · rintro rfl
    exact ⟨rfl, fun p q h hq => absurd (List.append_eq_nil_iff.mp h.symm).2 hq⟩

/-- At depth 0 there is nothing to close. -/
theorem closes_zero (hne : op ≠ cl) : Closes op cl 0 s ↔ s = [] := by
  cases s with
  | nil => simp [closes_nil]
  | cons c s => simp [closes_cons hne]

theorem Closes.getLast (hne : op ≠ cl) {d : ℕ} (h : Closes op cl d s) (hd : 0 < d) :
    s.getLast? = some cl := by
  induction s generalizing d with
  | nil => exact absurd (closes_nil.mp h) hd.ne'
  | cons c s ih =>
      obtain ⟨-, hs⟩ := (closes_cons hne).mp h
      by_cases hdeep : deeper op cl d c = 0
      · rw [hdeep, closes_zero hne] at hs
        subst hs
        -- only the closing bracket takes the depth to 0
        simp only [deeper] at hdeep
        split_ifs at hdeep with hop hcl
        · rw [hcl]
          rfl
        · omega
      · have hlast := ih hs (Nat.pos_of_ne_zero hdeep)
        have hne : s ≠ [] := by
          rintro rfl
          cases hlast
        rw [List.getLast?_cons_of_ne_nil hne, hlast]

end Text

end Bartok.Foundation
