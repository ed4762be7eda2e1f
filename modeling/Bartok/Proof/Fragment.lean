import Bartok.Foundation.ByteText
import Bartok.Proof.Disclosure

/-!
# Slicing out a balanced object

`json_object_fragment` again, now with its byte offsets and its unsigned counter, each of
which can panic. None of them does: the offsets are lengths of what stands in front, and
the counter is positive between the first brace and the one that closes it. What is sliced
out is the shortest stretch from the first brace that has as many closing as opening ones.
-/

namespace Bartok.Proof

open Foundation Text Json

/-! ## The scan by bytes -/

/-- A Rust string: it has at most `isize::MAX` bytes. -/
structure Str where
  text : Text
  le : byteLength text ≤ 2 ^ 63 - 1

inductive Panic
  /-- An arithmetic overflow, which release builds let pass. -/
  | overflow
  /-- A slice that does not end between two characters. -/
  | boundary
deriving DecidableEq

def usizeAdd (m n : ℕ) : Except Panic ℕ := if m + n < 2 ^ 64 then .ok (m + n) else .error .overflow

def usizeSub (m n : ℕ) : Except Panic ℕ := if n ≤ m then .ok (m - n) else .error .overflow

namespace Bytes

/-- The loop over `rest[open..].char_indices()`. -/
def scan (rest : Text) (opening : ℕ) : ℕ → List (ℕ × Char) → Except Panic (Option Text)
  | _, [] => .ok none
  | depth, (i, c) :: cs =>
      if c = '{' then do
        let depth ← usizeAdd depth 1
        scan rest opening depth cs
      else if c = '}' then do
        let depth ← usizeSub depth 1
        if depth = 0 then do
          let stop ← usizeAdd (← usizeAdd opening i) 1
          let fragment ← require (slice? rest opening stop) .boundary
          return some fragment
        else scan rest opening depth cs
      else scan rest opening depth cs

/-- `json_object_fragment`. -/
def jsonObjectFragment (s : Str) (key : Text) : Except Panic (Option Text) := do
  let pat := quoted key
  match find? pat s.text with
  | none => return none
  | some found =>
      let start ← usizeAdd found (byteLength pat)
      let rest ← require (sliceFrom? s.text start) .boundary
      match find? ['{'] rest with
      | none => return none
      | some opening =>
          let tail ← require (sliceFrom? rest opening) .boundary
          scan rest opening 0 (charIndices 0 tail)

end Bytes

section Scan

variable {s : Str} {key rest before seen t f g : Text} {d m n : ℕ}

theorem usizeAdd_eq (h : m + n < 2 ^ 64) : usizeAdd m n = .ok (m + n) := if_pos h

theorem usizeSub_eq (h : n ≤ m) : usizeSub m n = .ok (m - n) := if_pos h

/-- Between the braces the counter is positive, and the loop takes the text that `balanced`
takes, with what it has passed in front. -/
theorem scan_eq (hd : 0 < d) (hsize : byteLength (before ++ (seen ++ t)) < 2 ^ 64)
    (hdepth : d + t.length < 2 ^ 64) :
    Bytes.scan (before ++ (seen ++ t)) (byteLength before) d (charIndices (byteLength seen) t) =
      .ok ((balanced d t).map (seen ++ ·)) := by
  induction t generalizing d seen with
  | nil => rfl
  | cons c t ih =>
      have hnext : before ++ (seen ++ c :: t) = before ++ ((seen ++ [c]) ++ t) := by simp
      have hoffset : byteLength seen + byteLength [c] = byteLength (seen ++ [c]) :=
        (byteLength_append _ _).symm
      have hmap : ∀ o : Option Text, o.map (seen ++ [c] ++ ·) = (o.map (c :: ·)).map (seen ++ ·) := by
        intro o
        simp [Function.comp_def]
      rw [List.length_cons] at hdepth
      have hgo : ∀ {d'}, 0 < d' → d' ≤ d + 1 →
          Bytes.scan (before ++ (seen ++ c :: t)) (byteLength before) d'
              (charIndices (byteLength seen + byteLength [c]) t) =
            .ok (((balanced d' t).map (c :: ·)).map (seen ++ ·)) := by
        intro d' hd' hle
        rw [hnext, hoffset, ih hd' (hnext ▸ hsize) (by omega), hmap]
      rw [charIndices, Bytes.scan, balanced]
      split_ifs with hop hcl hzero
      · rw [usizeAdd_eq (by omega)]
        exact hgo (Nat.succ_pos d) le_rfl
      · -- the brace that closes: the slice ends behind it
        obtain rfl := hcl
        have hstop : byteLength before + byteLength seen + 1 =
            byteLength before + byteLength (seen ++ ['}']) := by
          rw [byteLength_append, Nat.add_assoc]
          rfl
        have hle : byteLength before + byteLength (seen ++ ['}']) < 2 ^ 64 := by
          rw [hnext, byteLength_append, byteLength_append] at hsize
          omega
        rw [usizeSub_eq hd]
        change (if d - 1 = 0 then _ else _) = _
        rw [if_pos hzero, usizeAdd_eq (by omega)]
        change (usizeAdd (byteLength before + byteLength seen) 1 >>= _) = _
        rw [usizeAdd_eq (by omega), hstop]
        change (require (slice? (before ++ (seen ++ '}' :: t)) _ _) _ >>= _) = _
        rw [hnext, slice?_append]
        rfl
      · rw [usizeSub_eq hd]
        change (if d - 1 = 0 then _ else _) = _
        rw [if_neg hzero]
        exact hgo (Nat.pos_of_ne_zero hzero) (by omega)
      · exact hgo hd (Nat.le_succ d)

/-- **No panic.** The scan by bytes is the scan by characters. -/
theorem fragment_eq : Bytes.jsonObjectFragment s key = .ok (jsonObjectFragment s.text key) := by
  have hsize := s.le
  rw [Bytes.jsonObjectFragment, jsonObjectFragment]
  cases hfound : find? (quoted key) s.text with
  | none =>
      rw [find?_eq_none.mp hfound]
      rfl
  | some n =>
      obtain ⟨a, rest, hs, rfl, hafter⟩ := find?_eq_some hfound
      rw [hs, byteLength_append, byteLength_append] at hsize
      rw [hafter, Option.bind_some]
      dsimp only
      have hstart : byteLength a + byteLength (quoted key) = byteLength (a ++ quoted key) :=
        (byteLength_append _ _).symm
      rw [usizeAdd_eq (by omega), hstart, hs, ← List.append_assoc]
      change (require (sliceFrom? (a ++ quoted key ++ rest) _) _ >>= _) = _
      rw [sliceFrom?_append]
      change (match find? ['{'] rest with | none => _ | some opening => _) = _
      rcases find?_char (c := '{') (s := rest) with ⟨hnone, hdrop⟩ | ⟨b, t, rfl, hsome, hdrop⟩
      · rw [hnone, hdrop]
        rfl
      · rw [hsome, hdrop]
        dsimp only
        rw [sliceFrom?_append]
        change Bytes.scan (b ++ (['{'] ++ t)) (byteLength b) (0 + 1)
          (charIndices (byteLength ['{']) t) = _
        rw [byteLength_append] at hsize
        have hlength := length_le_byteLength ('{' :: t)
        rw [List.length_cons] at hlength
        rw [scan_eq Nat.one_pos, balanced, if_pos rfl]
        · rfl
        · rw [byteLength_append]
          change byteLength b + byteLength ('{' :: t) < _
          omega
        · omega

end Scan

/-! ## What it finds -/

/-- From the first brace after the first occurrence of the quoted key, the text is `t`. -/
structure FirstBrace (s key t : Text) : Prop where
  after_key : ∃ a skipped, s = a ++ (quoted key ++ (skipped ++ t)) ∧ '{' ∉ skipped ∧
    ∀ a' b, s = a' ++ (quoted key ++ b) → a.length ≤ a'.length
  brace : t.head? = some '{'

/-- A text in front with as many closing as opening braces. -/
structure Stretch (t f : Text) : Prop where
  front : f <+: t
  nonempty : f ≠ []
  even : f.count '{' = f.count '}'

structure ShortestStretch (t f : Text) : Prop extends Stretch t f where
  shortest : ∀ g, Stretch t g → f <+: g

/-- The braces close at the end, and only there. -/
structure BalancedObject (f : Text) : Prop where
  opens : f.head? = some '{'
  closes : f.getLast? = some '}'
  even : f.count '{' = f.count '}'
  inside : ∀ p, p <+: f → p ≠ [] → p ≠ f → p.count '}' < p.count '{'

section Spec

variable {s : Str} {key t f g : Text} {d : ℕ}

theorem firstBrace_iff {s : Text} : FirstBrace s key t ↔
    ∃ rest, after? (quoted key) s = some rest ∧ rest.dropWhile (· ≠ '{') = t ∧
      t.head? = some '{' := by
  constructor
  · rintro ⟨⟨a, skipped, hs, hskipped, hfirst⟩, hbrace⟩
    refine ⟨skipped ++ t, after?_eq_some.mpr ⟨a, hs, hfirst⟩, ?_, hbrace⟩
    rw [List.dropWhile_append_of_pos fun c hc => by
      simpa using fun heq : c = '{' => hskipped (heq ▸ hc)]
    cases t with
    | nil => rfl
    | cons c t =>
        obtain rfl := Option.some.inj hbrace
        exact List.dropWhile_cons_of_neg (by simp)
  · rintro ⟨rest, hrest, rfl, hbrace⟩
    obtain ⟨a, hs, hfirst⟩ := after?_eq_some.mp hrest
    refine ⟨⟨a, rest.takeWhile (· ≠ '{'), ?_, ?_, hfirst⟩, hbrace⟩
    · rw [List.takeWhile_append_dropWhile, hs]
    · exact fun hmem => by simpa using List.mem_takeWhile_imp hmem

/-- While the counter is positive, every front has left a brace open. -/
theorem balanced_eq_none (hd : 0 < d) (h : balanced d t = none) {p : Text} (hp : p <+: t) :
    p.count '}' < d + p.count '{' := by
  induction t generalizing d p with
  | nil =>
      rw [List.prefix_nil.mp hp]
      exact hd
  | cons c t ih =>
      cases p with
      | nil => exact hd
      | cons x p =>
          obtain ⟨rfl, hfront⟩ := List.cons_prefix_cons.mp hp
          have hcount := deeper_count (c := x) (show '{' ≠ '}' by decide) hd p
          have hgo : 0 < deeper '{' '}' d x → balanced (deeper '{' '}' d x) t = none →
              (x :: p).count '}' < d + (x :: p).count '{' := by
            intro hpos hnone
            have := ih hpos hnone hfront
            omega
          rw [balanced] at h
          simp only [deeper] at hgo
          split_ifs at h hgo with hop hcl hzero
          · exact hgo (Nat.succ_pos d) (Option.map_eq_none_iff.mp h)
          · exact hgo (Nat.pos_of_ne_zero hzero) (Option.map_eq_none_iff.mp h)
          · exact hgo hd (Option.map_eq_none_iff.mp h)

theorem closes_of_balanced (h : balanced 0 ('{' :: t) = some f) :
    ∃ f', f = '{' :: f' ∧ f' <+: t ∧ Closes '{' '}' 1 f' := by
  rw [balanced, if_pos rfl] at h
  obtain ⟨f', hf', rfl⟩ := Option.map_eq_some_iff.mp h
  obtain ⟨⟨post, hpost⟩, hclose⟩ := (balanced_eq_some (Nat.succ_pos 0)).mp hf'
  exact ⟨f', rfl, ⟨post, hpost.symm⟩, hclose⟩

theorem balancedObject_of_closes (h : Closes '{' '}' 1 t) : BalancedObject ('{' :: t) where
  opens := rfl
  closes := by
    have hlast := h.getLast (by decide) Nat.one_pos
    have hne : t ≠ [] := by
      rintro rfl
      cases hlast
    rw [List.getLast?_cons_of_ne_nil hne, hlast]
  even := by
    rw [List.count_cons_self, List.count_cons_of_ne (by decide), Nat.add_comm]
    exact h.total
  inside p hp hne hproper := by
    cases p with
    | nil => exact absurd rfl hne
    | cons x p =>
        obtain ⟨rfl, q, rfl⟩ := List.cons_prefix_cons.mp hp
        have hq : q ≠ [] := by
          rintro rfl
          exact hproper (by rw [List.append_nil])
        rw [List.count_cons_self, List.count_cons_of_ne (by decide), Nat.add_comm]
        exact h.inside p q rfl hq

/-- A stretch that is balanced is the shortest one. -/
theorem BalancedObject.shortest (h : BalancedObject f) (hf : f <+: t) : ShortestStretch t f where
  front := hf
  nonempty := by
    rintro rfl
    cases h.opens
  even := h.even
  shortest g hg := by
    rcases List.prefix_or_prefix_of_prefix hf hg.front with hfg | hgf
    · exact hfg
    · by_cases heq : g = f
      · exact heq ▸ List.prefix_rfl
      · exact absurd hg.even (h.inside g hgf hg.nonempty heq).ne'

/-- The scan from a brace finds the shortest stretch, if there is any. -/
theorem balanced_spec (ht : t.head? = some '{') :
    (balanced 0 t = none ∧ ∀ g, ¬ Stretch t g) ∨
      ∃ f, balanced 0 t = some f ∧ BalancedObject f ∧ ShortestStretch t f := by
  obtain ⟨t, rfl⟩ := List.head?_eq_some_iff.mp ht
  cases hbal : balanced 0 ('{' :: t) with
  | some f =>
      obtain ⟨f, rfl, hf, hclose⟩ := closes_of_balanced hbal
      have hobj := balancedObject_of_closes hclose
      exact .inr ⟨_, rfl, hobj, hobj.shortest (List.cons_prefix_cons.mpr ⟨rfl, hf⟩)⟩
  | none =>
      rw [balanced, if_pos rfl, Option.map_eq_none_iff] at hbal
      refine .inl ⟨rfl, fun g hg => ?_⟩
      obtain ⟨hfront, hne, heven⟩ := hg
      cases g with
      | nil => exact hne rfl
      | cons x g =>
          obtain ⟨rfl, hg⟩ := List.cons_prefix_cons.mp hfront
          have := balanced_eq_none (Nat.succ_pos 0) hbal hg
          rw [List.count_cons_self, List.count_cons_of_ne (by decide)] at heven
          omega

theorem fragment_eq_some {s : Text} :
    jsonObjectFragment s key = some f ↔ ∃ t, FirstBrace s key t ∧ balanced 0 t = some f := by
  simp only [firstBrace_iff, jsonObjectFragment, Option.bind_eq_some_iff]
  constructor
  · rintro ⟨rest, hrest, hbal⟩
    refine ⟨_, ⟨rest, hrest, rfl, ?_⟩, hbal⟩
    cases hdrop : rest.dropWhile (· ≠ '{') with
    | nil =>
        rw [hdrop] at hbal
        cases hbal
    | cons x t => rw [dropWhile_ne_cons hdrop, List.head?_cons]
  · rintro ⟨t, ⟨rest, hrest, rfl, -⟩, hbal⟩
    exact ⟨rest, hrest, hbal⟩

/-- **`json_object_fragment` is a safe scanner for the shortest balanced stretch.** It does
not panic. It returns something exactly if a balanced stretch begins at the first brace
after the first occurrence of the quoted key, and then the shortest one. -/
theorem fragment_exact (s : Str) (key : Text) :
    ∃ r, Bytes.jsonObjectFragment s key = .ok r ∧
      (r.isSome ↔ ∃ t g, FirstBrace s.text key t ∧ Stretch t g) ∧
      ∀ f, (r = some f ↔ ∃ t, FirstBrace s.text key t ∧ ShortestStretch t f) ∧
        (r = some f → BalancedObject f) := by
  refine ⟨_, fragment_eq, ?_, fun f => ⟨?_, ?_⟩⟩
  · rw [Option.isSome_iff_exists]
    constructor
    · rintro ⟨f, hf⟩
      obtain ⟨t, ht, hbal⟩ := fragment_eq_some.mp hf
      rcases balanced_spec ht.brace with ⟨hnone, -⟩ | ⟨f', -, -, hshort⟩
      · cases hnone.symm.trans hbal
      · exact ⟨t, f', ht, hshort.toStretch⟩
    · rintro ⟨t, g, ht, hg⟩
      rcases balanced_spec ht.brace with ⟨-, hno⟩ | ⟨f, hbal, -, -⟩
      · exact absurd hg (hno g)
      · exact ⟨f, fragment_eq_some.mpr ⟨t, ht, hbal⟩⟩
  · rw [fragment_eq_some]
    refine exists_congr fun t => and_congr_right fun ht => ?_
    rcases balanced_spec ht.brace with ⟨hnone, hno⟩ | ⟨f', hbal, -, hshort⟩
    · exact iff_of_false (by simp [hnone]) fun hf => hno f hf.toStretch
    · rw [hbal, Option.some.injEq]
      constructor
      · rintro rfl
        exact hshort
      · intro hf
        exact (hshort.shortest f hf.toStretch).eq_of_length
          (Nat.le_antisymm (hshort.shortest f hf.toStretch).length_le
            (hf.shortest f' hshort.toStretch).length_le)
  · intro hf
    obtain ⟨t, ht, hbal⟩ := fragment_eq_some.mp hf
    rcases balanced_spec ht.brace with ⟨hnone, -⟩ | ⟨f', hbal', hobj, -⟩
    · cases hnone.symm.trans hbal
    · exact Option.some.inj (hbal'.symm.trans hbal) ▸ hobj

end Spec

end Bartok.Proof
