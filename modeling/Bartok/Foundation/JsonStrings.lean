import Bartok.Foundation.JsonPieces

/-!
# The strings of a text

A text that is read as JSON is ASCII outside of its strings. The code units that its strings
complete are those of the value, and each colon outside of them belongs to one member. So a
string that grows in place leaves the number of members and adds code units.
-/

namespace Bartok.Foundation

open Text

namespace Json

section Weight

-- what a member counts for, besides its key and its value
variable (colon : ℕ)

/-- One character, outside of all strings or somewhere in one: how many code units it
completes, and where it leads. A colon outside of strings counts for a member. -/
def lexStep : Option StrState → Char → Option (ℕ × Option StrState)
  | none, c =>
      if c = '"' then some (0, some .plain)
      else if c.toNat < 0x80 then some (if c = ':' then colon else 0, none)
      else none
  | some q, c => (q.next c).map fun r => (r.1.length, r.2)

def lex : Option StrState → Text → Option (ℕ × Option StrState)
  | q, [] => some (0, q)
  | q, c :: s => (lexStep colon q c).bind fun r => (lex r.2 s).map fun t => (r.1 + t.1, t.2)

mutual

/-- The code units of all strings and keys, and what the members count for. -/
def weight : Json → ℕ
  | .str us => us.length
  | .arr vs => elemsWeight vs
  | .obj ms => membersWeight ms
  | _ => 0

def elemsWeight : List Json → ℕ
  | [] => 0
  | v :: vs => weight v + elemsWeight vs

def membersWeight : List (Utf16 × Json) → ℕ
  | [] => 0
  | (k, v) :: ms => k.length + (colon + weight v) + membersWeight ms

end

end Weight

section Lex

variable {colon : ℕ} {s t u v x y rest : Text} {q q' : Option StrState} {c : Char}
  {a b k n w : ℕ} {j : Json} {us : Utf16}

theorem lex_append (s t : Text) (q : Option StrState) : lex colon q (s ++ t) =
    (lex colon q s).bind fun r => (lex colon r.2 t).map fun r' => (r.1 + r'.1, r'.2) := by
  induction s generalizing q with
  | nil => simp [lex]
  | cons c s ih =>
      rw [List.cons_append, lex, lex, Option.bind_assoc]
      refine congrArg _ (funext fun r => ?_)
      rw [ih, Option.map_bind, Option.bind_map]
      refine congrArg _ (funext fun r' => ?_)
      simp [Function.comp_def, Nat.add_assoc]

/-- The two parts of a text that is read. -/
theorem lex_append_eq_some (h : lex colon q (s ++ t) = some (w, q')) :
    ∃ a b p, lex colon q s = some (a, p) ∧ lex colon p t = some (b, q') ∧ w = a + b := by
  rw [lex_append] at h
  obtain ⟨⟨a, p⟩, hs, h⟩ := Option.bind_eq_some_iff.mp h
  obtain ⟨⟨b, p'⟩, ht, heq⟩ := Option.map_eq_some_iff.mp h
  obtain ⟨rfl, rfl⟩ := Prod.mk.inj heq
  exact ⟨a, b, p, hs, ht, rfl⟩

/-- A text that starts and ends outside of strings. -/
def Lexes (colon : ℕ) (s : Text) (w : ℕ) : Prop := lex colon none s = some (w, none)

/-- A character that counts for nothing outside of strings. -/
def Idle (c : Char) : Prop := c ≠ '"' ∧ c ≠ ':' ∧ c.toNat < 0x80

instance (c : Char) : Decidable (Idle c) := inferInstanceAs (Decidable (_ ∧ _ ∧ _))

theorem Lexes.append (hs : Lexes colon s a) (ht : Lexes colon t b) :
    Lexes colon (s ++ t) (a + b) := by
  rw [Lexes, lex_append, hs, Option.bind_some, ht]
  rfl

theorem lexes_plain (h : ∀ c ∈ s, Idle c) : Lexes colon s 0 := by
  induction s with
  | nil => rfl
  | cons c s ih =>
      obtain ⟨⟨hquote, hcolon, hascii⟩, hs⟩ := List.forall_mem_cons.mp h
      rw [Lexes, lex, lexStep, if_neg hquote, if_pos hascii, if_neg hcolon, Option.bind_some, ih hs]
      rfl

theorem lexes_space (ws : Space) : Lexes colon ws.val 0 := by
  apply lexes_plain
  intro c hc
  have hspace := ws.2 c hc
  simp only [isSpace, Bool.or_eq_true, decide_eq_true_eq] at hspace
  rcases hspace with ((rfl | rfl) | rfl) | rfl <;> decide

/-- White space and one more character. -/
theorem lexes_mark (ws : Space) (hc : Idle c) : Lexes colon (ws.val ++ [c]) 0 :=
  (lexes_space ws).append (lexes_plain (List.forall_mem_singleton.mpr hc))

theorem lex_scanStr {q : StrState} (h : scanStr q s = some (us, [])) :
    lex colon (some q) s = some (us.length, none) := by
  induction s generalizing q us with
  | nil => cases h
  | cons c s ih =>
      rw [scanStr] at h
      split at h
      · cases h
      · next us' hnext =>
          obtain ⟨rfl, rfl⟩ := Prod.mk.inj (Option.some.inj h)
          rw [lex, lexStep, hnext]
          rfl
      · next us' q' hnext =>
          obtain ⟨⟨us₂, rest⟩, hrest, heq⟩ := Option.map_eq_some_iff.mp h
          obtain ⟨rfl, rfl⟩ := Prod.mk.inj heq
          rw [lex, lexStep, hnext, Option.map_some, Option.bind_some, ih hrest, Option.map_some,
            List.length_append]

/-- A string with its quotation marks. -/
theorem lexes_string (ws : Space) (h : scanStr .plain (s ++ ['"']) = some (us, [])) :
    Lexes colon (ws.val ++ '"' :: (s ++ ['"'])) us.length := by
  have hstring : Lexes colon ('"' :: (s ++ ['"'])) us.length := by
    rw [Lexes, lex, lexStep, if_pos rfl, Option.bind_some, lex_scanStr h, Option.map_some,
      Nat.zero_add]
  simpa using (lexes_space ws).append hstring

theorem lexes_num (h : scanNum .start s = some (t, rest)) : Lexes colon t 0 := by
  apply lexes_plain
  intro c hc
  obtain ⟨q, q', hq⟩ := scanNum_next h c hc
  rcases NumState.next_some hq with hdigit | hsign
  · have hbounds := isDigit_bounds hdigit
    refine ⟨?_, ?_, by omega⟩
    all_goals
      rintro rfl
      exact absurd hbounds (by decide)
  · simp only [List.mem_cons, List.not_mem_nil, or_false] at hsign
    rcases hsign with rfl | rfl | rfl | rfl | rfl <;> decide

/-! ### What is read -/

/-- What a reader of some depth takes from the front, and what it is read as. -/
structure Lexed (colon n : ℕ) : Prop where
  value : ∀ {s j rest}, parseValue n s = some (j, rest) →
    ∃ t, s = t ++ rest ∧ Lexes colon t (weight colon j)
  elems : ∀ {s vs rest}, parseElems n s = some (vs, rest) →
    ∃ t, s = t ++ rest ∧ Lexes colon t (elemsWeight colon vs)
  members : ∀ {s ms rest}, parseMembers n s = some (ms, rest) →
    ∃ t, s = t ++ rest ∧ Lexes colon t (membersWeight colon ms)

/-- White space, one character and a text. -/
theorem Lexes.behind (ws : Space) (hc : Idle c) (h : Lexes colon t w) :
    Lexes colon (ws.val ++ c :: t) w := by
  have hall := (lexes_mark ws hc).append h
  rwa [List.append_assoc, List.singleton_append, Nat.zero_add] at hall

/-- The colon of a member. -/
theorem Lexes.behind_colon (ws : Space) (h : Lexes colon t w) :
    Lexes colon (ws.val ++ ':' :: t) (colon + w) := by
  have hcolon : Lexes colon [':'] colon := rfl
  have hall := (lexes_space ws).append (hcolon.append h)
  rwa [Nat.zero_add] at hall

/-- A literal, behind its first letter. -/
theorem lexed_literal {pat : Text} {v : Json} (ws : Space) (hc : Idle c)
    (hpat : pat.all (Idle ·) = true) (hweight : weight colon v = 0)
    (h : (literal pat s).map (fun rest => (v, rest)) = some (j, rest)) :
    ∃ t, ws.val ++ c :: s = t ++ rest ∧ Lexes colon t (weight colon j) := by
  obtain ⟨r, hr, heq⟩ := Option.map_eq_some_iff.mp h
  obtain ⟨rfl, rfl⟩ := Prod.mk.inj heq
  obtain rfl := literal_split hr
  refine ⟨ws.val ++ c :: pat, by simp, ?_⟩
  rw [hweight]
  have hidle : ∀ c ∈ pat, Idle c := fun c hc => of_decide_eq_true (List.all_eq_true.mp hpat c hc)
  exact (lexes_plain hidle).behind ws hc

theorem lexed_value (ih : Lexed colon n) (h : parseValue (n + 1) s = some (j, rest)) :
    ∃ t, s = t ++ rest ∧ Lexes colon t (weight colon j) := by
  rw [parseValue] at h
  split at h
  · cases h
  · next c t hs =>
      obtain ⟨ws, rfl⟩ := skipSpace_split hs
      split_ifs at h with hobj harr hstr htrue hfalse hnull
      -- an object
      · subst hobj
        split at h
        · next hclose =>
            obtain ⟨rfl, rfl⟩ := Prod.mk.inj (Option.some.inj h)
            obtain ⟨inside, rfl⟩ := expect_split hclose
            exact ⟨ws.val ++ '{' :: (inside.val ++ ['}']), by simp,
              (lexes_mark inside (by decide)).behind ws (by decide)⟩
        · obtain ⟨⟨ms, r⟩, hms, heq⟩ := Option.map_eq_some_iff.mp h
          obtain ⟨rfl, rfl⟩ := Prod.mk.inj heq
          obtain ⟨t', rfl, ht⟩ := ih.members hms
          exact ⟨ws.val ++ '{' :: t', by simp, ht.behind ws (by decide)⟩
      -- an array
      · subst harr
        split at h
        · next hclose =>
            obtain ⟨rfl, rfl⟩ := Prod.mk.inj (Option.some.inj h)
            obtain ⟨inside, rfl⟩ := expect_split hclose
            exact ⟨ws.val ++ '[' :: (inside.val ++ [']']), by simp,
              (lexes_mark inside (by decide)).behind ws (by decide)⟩
        · obtain ⟨⟨vs, r⟩, hvs, heq⟩ := Option.map_eq_some_iff.mp h
          obtain ⟨rfl, rfl⟩ := Prod.mk.inj heq
          obtain ⟨t', rfl, ht⟩ := ih.elems hvs
          exact ⟨ws.val ++ '[' :: t', by simp, ht.behind ws (by decide)⟩
      -- a string
      · subst hstr
        obtain ⟨⟨us, r⟩, hus, heq⟩ := Option.map_eq_some_iff.mp h
        obtain ⟨rfl, rfl⟩ := Prod.mk.inj heq
        obtain ⟨raw, rfl, hraw⟩ := scanStr_split hus
        exact ⟨ws.val ++ '"' :: (raw ++ ['"']), by simp, lexes_string ws hraw⟩
      -- the three literals
      · subst htrue
        exact lexed_literal ws (by decide) (by decide) rfl h
      · subst hfalse
        exact lexed_literal ws (by decide) (by decide) rfl h
      · subst hnull
        exact lexed_literal ws (by decide) (by decide) rfl h
      -- a number
      · obtain ⟨x, rfl, hscan⟩ := parseNum_eq_some h
        refine ⟨ws.val ++ x.text, ?_, (lexes_space ws).append (lexes_num hscan)⟩
        rw [List.append_assoc, ← scanNum_eq hscan]

theorem lexed_elems (ih : Lexed colon n) {vs : List Json} (h : parseElems (n + 1) s = some (vs, rest)) :
    ∃ t, s = t ++ rest ∧ Lexes colon t (elemsWeight colon vs) := by
  rw [parseElems] at h
  obtain ⟨⟨j, u⟩, hv, hmore⟩ := Option.bind_eq_some_iff.mp h
  obtain ⟨t, rfl, ht⟩ := ih.value hv
  split at hmore
  · next hcomma =>
      obtain ⟨⟨vs', r⟩, hvs, heq⟩ := Option.map_eq_some_iff.mp hmore
      obtain ⟨rfl, rfl⟩ := Prod.mk.inj heq
      obtain ⟨after, rfl⟩ := expect_split hcomma
      obtain ⟨t', rfl, ht'⟩ := ih.elems hvs
      exact ⟨t ++ (after.val ++ ',' :: t'), by simp, ht.append (ht'.behind after (by decide))⟩
  · obtain ⟨r, hclose, heq⟩ := Option.map_eq_some_iff.mp hmore
    obtain ⟨rfl, rfl⟩ := Prod.mk.inj heq
    obtain ⟨after, rfl⟩ := expect_split hclose
    exact ⟨t ++ (after.val ++ [']']), by simp, ht.append (lexes_mark after (by decide))⟩

theorem lexed_members (ih : Lexed colon n) {ms : List (Utf16 × Json)}
    (h : parseMembers (n + 1) s = some (ms, rest)) :
    ∃ t, s = t ++ rest ∧ Lexes colon t (membersWeight colon ms) := by
  rw [parseMembers] at h
  obtain ⟨t, hquote, h₁⟩ := Option.bind_eq_some_iff.mp h
  obtain ⟨⟨name, t'⟩, hname, h₂⟩ := Option.bind_eq_some_iff.mp h₁
  obtain ⟨t'', hcolon, h₃⟩ := Option.bind_eq_some_iff.mp h₂
  obtain ⟨⟨j, u⟩, hv, hmore⟩ := Option.bind_eq_some_iff.mp h₃
  obtain ⟨before, rfl⟩ := expect_split hquote
  obtain ⟨key, rfl, hkey⟩ := scanStr_split hname
  obtain ⟨beforeColon, rfl⟩ := expect_split hcolon
  obtain ⟨value, rfl, hvalue⟩ := ih.value hv
  have hmember : Lexes colon ((before.val ++ '"' :: (key ++ ['"'])) ++ (beforeColon.val ++ ':' :: value))
      (name.length + (colon + weight colon j)) :=
    (lexes_string before hkey).append (hvalue.behind_colon beforeColon)
  split at hmore
  · next hcomma =>
      obtain ⟨⟨ms', r⟩, hms, heq⟩ := Option.map_eq_some_iff.mp hmore
      obtain ⟨rfl, rfl⟩ := Prod.mk.inj heq
      obtain ⟨after, rfl⟩ := expect_split hcomma
      obtain ⟨rest', rfl, hrest⟩ := ih.members hms
      exact ⟨_, by simp, hmember.append (hrest.behind after (c := ',') (by decide))⟩
  · obtain ⟨r, hclose, heq⟩ := Option.map_eq_some_iff.mp hmore
    obtain ⟨rfl, rfl⟩ := Prod.mk.inj heq
    obtain ⟨after, rfl⟩ := expect_split hclose
    exact ⟨_, by simp, hmember.append (lexes_mark after (c := '}') (by decide))⟩

theorem lexed : ∀ n, Lexed colon n
  | 0 => by
      constructor
      all_goals
        intro _ _ _ h
        cases h
  | n + 1 => ⟨lexed_value (lexed n), lexed_elems (lexed n), lexed_members (lexed n)⟩

/-- **A text that is read has the code units and the members of its value.** -/
theorem lexes_of_parse (h : parse s = some j) : Lexes colon s (weight colon j) := by
  obtain ⟨rest, hv, hrest⟩ := parse_eq_some h
  obtain ⟨t, ht, hlex⟩ := (lexed _).value hv
  rw [ht]
  exact hlex.append (lexes_space ⟨rest, skipSpace_eq_nil hrest⟩)

/-! ### A string that grows -/

/-- A character that is not ASCII stands between two others of a string. -/
theorem lexStep_of_not_ascii (hc : 0x80 ≤ c.toNat) (h : lexStep colon q c = some (k, q')) :
    q = some .plain ∧ k = (units c).length ∧ q' = some .plain := by
  have hne : ∀ d : Char, d.toNat < 0x80 → c ≠ d := by
    rintro d hd rfl
    omega
  cases q with
  | none =>
      rw [lexStep, if_neg (hne _ (by decide)), if_neg (by omega)] at h
      cases h
  | some q =>
      cases q with
      | plain =>
          rw [lexStep, StrState.next, if_neg (hne _ (by decide)), if_neg (hne _ (by decide)),
            if_neg (by omega)] at h
          obtain ⟨rfl, rfl⟩ := Prod.mk.inj (Option.some.inj h)
          exact ⟨rfl, rfl, rfl⟩
      | escape =>
          have hnone : unescape c = none := by
            unfold unescape
            simp only [hne '"' (by decide), hne '\\' (by decide), hne '/' (by decide),
              hne 'b' (by decide), hne 'f' (by decide), hne 'n' (by decide), hne 'r' (by decide),
              hne 't' (by decide), if_false]
          rw [lexStep, StrState.next, if_neg (hne _ (by decide)), hnone] at h
          cases h
      | hex missing value =>
          have hnone : hexValue c = none := by
            have hdigit : c.isDigit = false :=
              eq_false_of_ne_true fun hd => by have := isDigit_bounds hd; omega
            have hle : ∀ d : Char, d.toNat < 0x80 → ¬ c ≤ d := fun d hd hle => by
              have : c.toNat ≤ d.toNat := hle
              omega
            rw [hexValue, if_neg (by simp [hdigit]), if_neg fun hcd => hle _ (by decide) hcd.2,
              if_neg fun hcd => hle _ (by decide) hcd.2]
          rw [lexStep, StrState.next, hnone] at h
          cases h

theorem lex_of_not_ascii (hc : 0x80 ≤ c.toNat) (h : lex colon q [c] = some (k, q')) :
    q = some .plain ∧ k = (units c).length ∧ q' = some .plain := by
  obtain ⟨r, hstep, hr⟩ := Option.bind_eq_some_iff.mp h
  obtain ⟨rfl, rfl⟩ := Prod.mk.inj (Option.some.inj hr)
  exact lexStep_of_not_ascii hc hstep

/-- Such a character has more bytes than code units. -/
theorem length_units_lt (hc : 0x80 ≤ c.toNat) : (units c).length < (encodeChar c).length := by
  unfold units encodeChar
  dsimp only
  split_ifs <;> first | omega | simp

/-- In a string, each character but a quotation mark or a backslash completes its code units. -/
theorem lex_plain (hs : ∀ c ∈ s, c ≠ '"' ∧ c ≠ '\\') (h : lex colon (some .plain) s = some (k, q)) :
    q = some .plain ∧ k = (s.flatMap units).length := by
  induction s generalizing k with
  | nil =>
      obtain ⟨rfl, rfl⟩ := Prod.mk.inj (Option.some.inj h)
      exact ⟨rfl, rfl⟩
  | cons c s ih =>
      obtain ⟨⟨hquote, hslash⟩, hs⟩ := List.forall_mem_cons.mp hs
      obtain ⟨a, b, p, hc, hrest, rfl⟩ := lex_append_eq_some (s := [c]) h
      have hstep : lex colon (some .plain) [c] =
          if c.toNat < 0x20 then none else some ((units c).length, some .plain) := by
        rw [lex, lexStep, StrState.next, if_neg hquote, if_neg hslash]
        split_ifs <;> rfl
      rw [hstep, Option.ite_none_left_eq_some, Option.some.injEq, Prod.mk.injEq] at hc
      obtain ⟨-, rfl, rfl⟩ := hc
      obtain ⟨hq, rfl⟩ := ih hs hrest
      exact ⟨hq, by rw [List.flatMap_cons, List.length_append]⟩

theorem length_le_units (s : Text) : s.length ≤ (s.flatMap units).length := by
  induction s with
  | nil => exact Nat.le_refl _
  | cons c s ih =>
      have hpos := units_pos c
      rw [List.flatMap_cons, List.length_append, List.length_cons]
      omega

/-- A quotation mark opens a string. -/
theorem Lexes.quote (h : Lexes colon s w) :
    lex colon none (s ++ ['"']) = some (w, some .plain) := by
  rw [lex_append, h]
  rfl

/-- A part of a string that is replaced adds the difference in code units. -/
theorem weight_replaced {j' : Json} (h : parse (u ++ (x ++ v)) = some j)
    (h' : parse (u ++ (y ++ v)) = some j') (hu : lex colon none u = some (a, some .plain))
    (hx : lex colon (some .plain) x = some (k, some .plain)) (hy : ∀ c ∈ y, c ≠ '"' ∧ c ≠ '\\') :
    weight colon j' + k = weight colon j + (y.flatMap units).length := by
  have hread : Lexes colon (u ++ (x ++ v)) (weight colon j) := lexes_of_parse h
  have hread' : Lexes colon (u ++ (y ++ v)) (weight colon j') := lexes_of_parse h'
  obtain ⟨a₁, b₁, p₁, hu₁, hxv, hw₁⟩ := lex_append_eq_some hread
  obtain ⟨a₂, b₂, p₂, hu₂, hyv, hw₂⟩ := lex_append_eq_some hread'
  obtain ⟨rfl, rfl⟩ := Prod.mk.inj (Option.some.inj (hu₁.symm.trans hu))
  obtain ⟨rfl, rfl⟩ := Prod.mk.inj (Option.some.inj (hu₂.symm.trans hu))
  obtain ⟨k₁, c₁, q₁, hx₁, hv₁, rfl⟩ := lex_append_eq_some hxv
  obtain ⟨k₂, c₂, q₂, hy₂, hv₂, rfl⟩ := lex_append_eq_some hyv
  obtain ⟨rfl, rfl⟩ := Prod.mk.inj (Option.some.inj (hx₁.symm.trans hx))
  obtain ⟨rfl, rfl⟩ := lex_plain hy hy₂
  obtain ⟨rfl, -⟩ := Prod.mk.inj (Option.some.inj (hv₁.symm.trans hv₂))
  omega

end Lex

end Json

end Bartok.Foundation
