import Mathlib.Data.List.DropRight

/-!
# The last line with a mark

A reader trims a text, splits it into lines, and takes the last whose first character that
is not blank is the mark. Trimming takes blanks off the ends of the text only, so the line
is found by what stands in front of it and behind.
-/

namespace Bartok.Foundation

variable {α : Type*}

/-- Without the blanks at both ends. -/
def trimBy (blank : α → Bool) (s : List α) : List α := (s.dropWhile blank).rdropWhile blank

/-- Behind the first line there is one with the mark. -/
def MarksLater (blank : α → Bool) (nl mark : α) (s : List α) : Prop :=
  ∃ p w q, s = p ++ nl :: (w ++ mark :: q) ∧ ∀ c ∈ w, blank c = true

/-- Nothing, or whole lines. -/
def EndsLine (nl : α) (s : List α) : Prop := s = [] ∨ ∃ p, s = p ++ [nl]

/-- Nothing, or the end of a line and what follows it. -/
def StartsLine (nl : α) (s : List α) : Prop := s = [] ∨ ∃ p, s = nl :: p

section Trim

variable {blank : α → Bool} {nl mark : α} {s t w q pre post : List α}

theorem rdropWhile_append : (s ++ t).rdropWhile blank =
    if t.rdropWhile blank = [] then s.rdropWhile blank else s ++ t.rdropWhile blank := by
  simp only [List.rdropWhile, List.reverse_append, List.dropWhile_append, List.isEmpty_iff,
    List.reverse_eq_nil_iff]
  split_ifs
  · rfl
  · rw [List.reverse_append, List.reverse_reverse]

theorem rdropWhile_mark (hmark : blank mark = false) (s : List α) :
    (mark :: s).rdropWhile blank = mark :: s.rdropWhile blank := by
  rw [← List.singleton_append, rdropWhile_append]
  split_ifs with hs
  · rw [hs, List.rdropWhile_singleton, if_neg (by simp [hmark])]
  · rfl

/-- Blanks in front of the text are taken from whole lines, or from the marked line. -/
theorem dropWhile_lines (hmark : blank mark = false) (hpre : EndsLine nl pre)
    (hw : ∀ c ∈ w, blank c = true) :
    ∃ pre' a w', (pre ++ (w ++ mark :: q)).dropWhile blank = pre' ++ (w' ++ mark :: q) ∧
      w = a ++ w' ∧ EndsLine nl pre' := by
  rw [List.dropWhile_append]
  split_ifs with hall
  · refine ⟨[], w, [], ?_, by simp, .inl rfl⟩
    rw [List.dropWhile_append_of_pos hw, List.dropWhile_cons_of_neg (by simp [hmark])]
    rfl
  · refine ⟨_, [], w, rfl, rfl, ?_⟩
    rcases hpre with rfl | ⟨p, rfl⟩
    · exact .inl rfl
    · rw [List.isEmpty_iff] at hall
      rw [List.dropWhile_append]
      split_ifs with hp
      · rw [List.dropWhile_append, if_pos hp] at hall
        cases hnl : blank nl with
        | true => exact absurd (by simp [hnl]) hall
        | false => exact .inr ⟨[], by simp [hnl]⟩
      · exact .inr ⟨_, rfl⟩

/-- And those behind it. -/
theorem rdropWhile_lines (hmark : blank mark = false) (hpost : StartsLine nl post) :
    ∃ post' q' b, (s ++ mark :: (q ++ post)).rdropWhile blank = s ++ mark :: (q' ++ post') ∧
      q = q' ++ b ∧ (∀ c ∈ b, blank c = true) ∧ StartsLine nl post' ∧ post' <+: post := by
  rw [rdropWhile_append, if_neg (by simp [rdropWhile_mark hmark]), rdropWhile_mark hmark,
    rdropWhile_append]
  split_ifs with hall
  · refine ⟨[], q.rdropWhile blank, q.rtakeWhile blank, by simp, ?_, ?_, .inl rfl, by simp⟩
    · rw [List.rdropWhile_append_rtakeWhile]
    · exact fun c hc => List.mem_rtakeWhile_imp hc
  · refine ⟨_, q, [], rfl, by simp, by simp, ?_, List.rdropWhile_prefix _ _⟩
    rcases hpost with rfl | ⟨p, rfl⟩
    · exact absurd rfl hall
    · obtain ⟨r, hr⟩ := List.rdropWhile_prefix blank (nl :: p)
      cases hdrop : (nl :: p).rdropWhile blank with
      | nil => exact absurd hdrop hall
      | cons c p' =>
          rw [hdrop, List.cons_append, List.cons.injEq] at hr
          exact .inr ⟨p', by rw [hr.1]⟩

/-- The first character that is not blank, and what stands behind it. -/
theorem mark_unique {mark' : α} {w' q' : List α} (hmark : blank mark = false)
    (hmark' : blank mark' = false) (hw : ∀ c ∈ w, blank c = true) (hw' : ∀ c ∈ w', blank c = true)
    (h : w ++ mark :: q = w' ++ mark' :: q') : mark = mark' ∧ q = q' := by
  have hdrop := congrArg (List.dropWhile blank) h
  rw [List.dropWhile_append_of_pos hw, List.dropWhile_append_of_pos hw',
    List.dropWhile_cons_of_neg (by simp [hmark]), List.dropWhile_cons_of_neg (by simp [hmark'])]
    at hdrop
  exact List.cons.inj hdrop

/-- What stands in front of the last one. -/
theorem mark_unique_last (mark : α) {w' q' : List α} (hmark : blank mark = false)
    (hw : ∀ c ∈ w, blank c = true) (hw' : ∀ c ∈ w', blank c = true)
    (h : q ++ mark :: w = q' ++ mark :: w') : q = q' := by
  have hreverse := congrArg List.reverse h
  simp only [List.reverse_append, List.reverse_cons, List.append_assoc,
    List.singleton_append] at hreverse
  have hq := mark_unique hmark hmark (fun c hc => hw c (List.mem_reverse.mp hc))
    (fun c hc => hw' c (List.mem_reverse.mp hc)) hreverse
  exact List.reverse_injective hq.2

/-- A later line of two texts is one of either, or the second goes on with it. -/
theorem marksLater_append (h : MarksLater blank nl mark (s ++ t)) :
    MarksLater blank nl mark s ∨ MarksLater blank nl mark t ∨
      ∃ w q, t = w ++ mark :: q ∧ ∀ c ∈ w, blank c = true := by
  obtain ⟨p, w, q, hsplit, hw⟩ := h
  rcases List.append_eq_append_iff.mp hsplit with ⟨d, rfl, hd⟩ | ⟨d, rfl, hd⟩
  -- the end of the line is in the second
  · exact .inr (.inl ⟨d, w, q, hd, hw⟩)
  · cases d with
    | nil => exact .inr (.inl ⟨[], w, q, hd.symm, hw⟩)
    | cons c d =>
        obtain ⟨rfl, hrest⟩ := List.cons.inj hd
        -- it is in the first, and the mark in either
        rcases List.append_eq_append_iff.mp hrest with ⟨e, rfl, he⟩ | ⟨e, rfl, he⟩
        · cases e with
          | nil => exact .inr (.inr ⟨[], q, he.symm, nofun⟩)
          | cons c e =>
              obtain ⟨rfl, -⟩ := List.cons.inj he
              exact .inl ⟨p, w, e, by simp, hw⟩
        · exact .inr (.inr ⟨e, q, he, fun c hc => hw c (List.mem_append_right _ hc)⟩)

theorem MarksLater.behind (p : List α) (h : MarksLater blank nl mark s) :
    MarksLater blank nl mark (p ++ s) := by
  obtain ⟨p', w, q, rfl, hw⟩ := h
  exact ⟨p ++ p', w, q, by simp, hw⟩

/-- Of the lines with the mark there is a last one. -/
theorem exists_last_mark (p w q : List α) (h : nl :: s = p ++ nl :: (w ++ mark :: q))
    (hw : ∀ c ∈ w, blank c = true) : ∃ pre w q, s = pre ++ (w ++ mark :: q) ∧ EndsLine nl pre ∧
      (∀ c ∈ w, blank c = true) ∧ nl ∉ w ∧ ¬ MarksLater blank nl mark q := by
  by_cases hnl : nl ∈ w
  · obtain ⟨w₁, w₂, hsplit, -⟩ := List.eq_append_cons_of_mem hnl
    have hlen : w₂.length < w.length := by
      rw [hsplit, List.length_append, List.length_cons]
      omega
    exact exists_last_mark (p ++ nl :: w₁) w₂ q (by rw [h, hsplit]; simp)
      fun c hc => hw c (by rw [hsplit]; simp [hc])
  by_cases hlater : MarksLater blank nl mark q
  · obtain ⟨p', w', q', hsplit, hw'⟩ := hlater
    have hlen : w'.length + q'.length < w.length + q.length := by
      rw [hsplit, List.length_append, List.length_cons, List.length_append, List.length_cons]
      omega
    exact exists_last_mark (p ++ nl :: (w ++ mark :: p')) w' q' (by rw [h, hsplit]; simp) hw'
  · cases p with
    | nil => exact ⟨[], w, q, (List.cons.inj h).2, .inl rfl, hw, hnl, hlater⟩
    | cons c p =>
        exact ⟨p ++ [nl], w, q, by rw [(List.cons.inj h).2]; simp, .inr ⟨p, rfl⟩, hw, hnl, hlater⟩
termination_by w.length + q.length

end Trim

section Marked

variable [DecidableEq α]

/-- The line begins with the mark, after blanks. -/
def marked (blank : α → Bool) (mark : α) (l : List α) : Bool :=
  (trimBy blank l).head? = some mark

def lastMarked (blank : α → Bool) (nl mark : α) (s : List α) : Option (List α) :=
  (((trimBy blank s).splitOn nl).filter (marked blank mark)).getLast?

variable {blank : α → Bool} {nl mark : α} {l w q pre post m : List α}

theorem marked_iff (hmark : blank mark = false) : marked blank mark l = true ↔
    ∃ w q, l = w ++ mark :: q ∧ ∀ c ∈ w, blank c = true := by
  rw [marked, decide_eq_true_eq, trimBy]
  constructor
  · intro h
    refine ⟨l.takeWhile blank, (l.dropWhile blank).tail, ?_, fun c hc => List.mem_takeWhile_imp hc⟩
    cases hdrop : l.dropWhile blank with
    | nil => simp [hdrop] at h
    | cons c q =>
        have hc : blank c = false := by
          have := List.head_dropWhile_not blank (l := l) (by simp [hdrop])
          simpa [hdrop] using this
        rw [hdrop, rdropWhile_mark hc, List.head?_cons, Option.some.injEq] at h
        rw [← h, List.tail_cons, ← hdrop, List.takeWhile_append_dropWhile]
  · rintro ⟨w, q, rfl, hw⟩
    rw [List.dropWhile_append_of_pos hw, List.dropWhile_cons_of_neg (by simp [hmark]),
      rdropWhile_mark hmark]
    rfl

/-- Each line of a text stands behind the end of another, if one is put in front. -/
theorem splitOn_mem (s : List α) (hm : m ∈ s.splitOn nl) :
    ∃ p t, nl :: s = p ++ nl :: (m ++ t) := by
  by_cases hnl : nl ∈ s
  · obtain ⟨x, y, hs, hx⟩ := List.eq_append_cons_of_mem hnl
    have hlen : y.length < s.length := by
      rw [hs, List.length_append, List.length_cons]
      omega
    rw [hs, List.splitOn_append_cons_self, List.splitOn_eq_singleton hx, List.mem_append,
      List.mem_singleton] at hm
    rcases hm with rfl | hm
    · exact ⟨[], nl :: y, by rw [hs]; rfl⟩
    · obtain ⟨p, t, ht⟩ := splitOn_mem y hm
      exact ⟨nl :: (x ++ p), t, by simp [hs, ht]⟩
  · rw [List.splitOn_eq_singleton hnl, List.mem_singleton] at hm
    exact ⟨[], [], by simp [hm]⟩
termination_by s.length

/-- **The marked line with no other behind it is the one that is taken**, up to blanks. -/
theorem lastMarked_lines (hmark : blank mark = false) (hpre : EndsLine nl pre)
    (hw : ∀ c ∈ w, blank c = true) (hline : nl ∉ w ++ mark :: q) (hpost : StartsLine nl post)
    (hlater : ¬ MarksLater blank nl mark post) :
    ∃ a w' q' b, w = a ++ w' ∧ q = q' ++ b ∧ (∀ c ∈ b, blank c = true) ∧
      lastMarked blank nl mark (pre ++ (w ++ mark :: (q ++ post))) = some (w' ++ mark :: q') := by
  obtain ⟨pre', a, w', hdrop, rfl, hpre'⟩ := dropWhile_lines (q := q ++ post) hmark hpre hw
  obtain ⟨post', q', b, hrdrop, rfl, hb, hpost', hprefix⟩ :=
    rdropWhile_lines (s := pre' ++ w') (q := q) hmark hpost
  have hl : nl ∉ w' ++ mark :: q' := fun h => hline (by
    rw [List.mem_append, List.mem_cons] at h
    rcases h with h | rfl | h <;> simp [*])
  have htrim : trimBy blank (pre ++ (a ++ w' ++ mark :: (q' ++ b ++ post))) =
      pre' ++ ((w' ++ mark :: q') ++ post') := by
    rw [trimBy, hdrop, ← List.append_assoc pre', hrdrop]
    simp
  have hmarked : marked blank mark (w' ++ mark :: q') = true :=
    (marked_iff hmark).mpr ⟨w', q', rfl, fun c hc => hw c (List.mem_append_right _ hc)⟩
  have hbehind : (((w' ++ mark :: q') ++ post').splitOn nl).filter (marked blank mark) =
      [w' ++ mark :: q'] := by
    rcases hpost' with rfl | ⟨p, rfl⟩
    · rw [List.append_nil, List.splitOn_eq_singleton hl, List.filter_singleton, hmarked]
      rfl
    · rw [List.splitOn_append_cons_self, List.splitOn_eq_singleton hl, List.singleton_append,
        List.filter_cons_of_pos hmarked, List.filter_eq_nil_iff.mpr]
      intro m hm hmarked
      obtain ⟨w₂, q₂, rfl, hw₂⟩ := (marked_iff hmark).mp hmarked
      obtain ⟨p', t, ht⟩ := splitOn_mem _ hm
      obtain ⟨r, hr⟩ := hprefix
      exact hlater ⟨p', w₂, q₂ ++ (t ++ r), by rw [← hr, ht]; simp, hw₂⟩
  refine ⟨a, w', q', b, rfl, rfl, hb, ?_⟩
  rw [lastMarked, htrim]
  rcases hpre' with rfl | ⟨p, rfl⟩
  · rw [List.nil_append, hbehind]
    rfl
  · rw [List.append_assoc, List.singleton_append, List.splitOn_append_cons_self,
      List.filter_append, hbehind, List.getLast?_append]
    rfl

end Marked

end Bartok.Foundation
