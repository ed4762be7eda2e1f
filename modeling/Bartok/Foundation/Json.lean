import Bartok.Foundation.JsonText
import Bartok.Foundation.Utf8

/-!
# JSON

`print` is `JSON.stringify`, on one line or indented; `parse` is `JSON.parse`. An
object is the list of its members in order.

What is printed is parsed back, and a printed object that is cut short, at any byte,
is not parsed at all: its last brace is missing.
-/

namespace Bartok.Foundation

open Text

inductive Json
  | null
  | bool (b : Bool)
  | num (n : NumLit)
  | str (s : Utf16)
  | arr (vs : List Json)
  | obj (ms : List (Utf16 × Json))

namespace Json

/-- White space of JSON. -/
def isSpace (c : Char) : Bool := c = ' ' || c = '\t' || c = '\n' || c = '\r'

/-- Where white space goes: in front of each member at its depth, and after a colon. -/
structure Layout where
  indent : ℕ → Text
  afterColon : Text
  indent_space : ∀ d, ∀ c ∈ indent d, isSpace c = true
  afterColon_space : ∀ c ∈ afterColon, isSpace c = true

/-- `JSON.stringify(value)`. -/
def compact : Layout := ⟨fun _ => [], [], by simp, by simp⟩

/-- `JSON.stringify(value, null, 2)`. -/
def indented : Layout where
  indent d := '\n' :: List.replicate (2 * d) ' '
  afterColon := [' ']
  indent_space d c hc := by
    rcases List.mem_cons.mp hc with rfl | hc
    · rfl
    · rw [List.eq_of_mem_replicate hc]
      rfl
  afterColon_space c hc := by
    rw [List.mem_singleton.mp hc]
    rfl

/-! ## Printing -/

mutual

/-- The text of a value at a depth. -/
def print (L : Layout) : ℕ → Json → Text
  | _, .null => "null".toList
  | _, .bool true => "true".toList
  | _, .bool false => "false".toList
  | _, .num n => n.text
  | _, .str s => '"' :: (quote s ++ ['"'])
  | _, .arr [] => ['[', ']']
  | d, .arr (v :: vs) =>
      '[' :: (L.indent (d + 1) ++ print L (d + 1) v ++ printElems L (d + 1) vs ++ L.indent d ++ [']'])
  | _, .obj [] => ['{', '}']
  | d, .obj ((k, v) :: ms) =>
      '{' :: (L.indent (d + 1) ++ '"' :: (quote k ++ '"' :: ':' :: (L.afterColon ++ print L (d + 1) v)) ++
        printMembers L (d + 1) ms ++ L.indent d ++ ['}'])

/-- The elements of an array after the first. -/
def printElems (L : Layout) : ℕ → List Json → Text
  | _, [] => []
  | d, v :: vs => ',' :: (L.indent d ++ print L d v ++ printElems L d vs)

/-- The members of an object after the first. -/
def printMembers (L : Layout) : ℕ → List (Utf16 × Json) → Text
  | _, [] => []
  | d, (k, v) :: ms =>
      ',' :: (L.indent d ++ '"' :: (quote k ++ '"' :: ':' :: (L.afterColon ++ print L d v)) ++
        printMembers L d ms)

end

/-! ## Parsing -/

def skipSpace (s : Text) : Text := s.dropWhile isSpace

/-- What follows the character, which may have white space in front. -/
def expect (c : Char) (s : Text) : Option Text :=
  match skipSpace s with
  | [] => none
  | d :: rest => if d = c then some rest else none

/-- What follows a literal. -/
def literal (pat s : Text) : Option Text :=
  if pat.isPrefixOf s then some (s.drop pat.length) else none

/-- The number at the front. -/
def parseNum (s : Text) : Option (Json × Text) :=
  match scanNum .start s with
  | none => none
  | some (t, rest) =>
      -- a number reads as itself
      if h : scanNum .start t = some (t, []) then some (.num ⟨t, h⟩, rest) else none

mutual

/-- The value at the front and what follows it, of at most `n` nested parts. -/
def parseValue : ℕ → Text → Option (Json × Text)
  | 0, _ => none
  | n + 1, s =>
      match skipSpace s with
      | [] => none
      | c :: s =>
          if c = '{' then
            match expect '}' s with
            | some rest => some (.obj [], rest)
            | none => (parseMembers n s).map fun r => (.obj r.1, r.2)
          else if c = '[' then
            match expect ']' s with
            | some rest => some (.arr [], rest)
            | none => (parseElems n s).map fun r => (.arr r.1, r.2)
          else if c = '"' then (scanStr .plain s).map fun r => (.str r.1, r.2)
          else if c = 't' then (literal "rue".toList s).map fun rest => (.bool true, rest)
          else if c = 'f' then (literal "alse".toList s).map fun rest => (.bool false, rest)
          else if c = 'n' then (literal "ull".toList s).map fun rest => (.null, rest)
          else parseNum (c :: s)

/-- The elements of an array up to its bracket. -/
def parseElems : ℕ → Text → Option (List Json × Text)
  | 0, _ => none
  | n + 1, s =>
      (parseValue n s).bind fun v =>
        match expect ',' v.2 with
        | some s => (parseElems n s).map fun r => (v.1 :: r.1, r.2)
        | none => (expect ']' v.2).map fun rest => ([v.1], rest)

/-- The members of an object up to its brace. -/
def parseMembers : ℕ → Text → Option (List (Utf16 × Json) × Text)
  | 0, _ => none
  | n + 1, s =>
      (expect '"' s).bind fun s =>
        (scanStr .plain s).bind fun k =>
          (expect ':' k.2).bind fun s =>
            (parseValue n s).bind fun v =>
              match expect ',' v.2 with
              | some s => (parseMembers n s).map fun r => ((k.1, v.1) :: r.1, r.2)
              | none => (expect '}' v.2).map fun rest => ([(k.1, v.1)], rest)

end

/-- `JSON.parse`. -/
def parse (s : Text) : Option Json :=
  (parseValue (s.length + 1) s).bind fun r => if skipSpace r.2 = [] then some r.1 else none

/-! ## White space -/

section Space

variable {c d : Char} {s t u ws rest : Text} {n : ℕ}

theorem skipSpace_append (hws : ∀ c ∈ ws, isSpace c = true) : skipSpace (ws ++ s) = skipSpace s :=
  List.dropWhile_append_of_pos hws

theorem skipSpace_cons (hc : isSpace c = false) : skipSpace (c :: s) = c :: s :=
  List.dropWhile_cons_of_neg (by simp [hc])

theorem expect_append (hws : ∀ c ∈ ws, isSpace c = true) : expect c (ws ++ s) = expect c s := by
  rw [expect, skipSpace_append hws, ← expect]

theorem expect_cons (hd : isSpace d = false) :
    expect c (d :: s) = if d = c then some s else none := by
  rw [expect, skipSpace_cons hd]

theorem parseValue_append (hws : ∀ c ∈ ws, isSpace c = true) :
    parseValue n (ws ++ s) = parseValue n s := by
  cases n with
  | zero => rfl
  | succ n => rw [parseValue, parseValue, skipSpace_append hws]

theorem parseElems_append (hws : ∀ c ∈ ws, isSpace c = true) :
    parseElems n (ws ++ s) = parseElems n s := by
  cases n with
  | zero => rfl
  | succ n => rw [parseElems, parseElems, parseValue_append hws]

theorem parseMembers_append (hws : ∀ c ∈ ws, isSpace c = true) :
    parseMembers n (ws ++ s) = parseMembers n s := by
  cases n with
  | zero => rfl
  | succ n => rw [parseMembers, parseMembers, expect_append hws]

theorem endsNumber_comma : EndsNumber (',' :: s) := endsNumber_cons rfl (by decide)

/-- White space and then a comma or a bracket end a number. -/
theorem endsNumber_append (hws : ∀ c ∈ ws, isSpace c = true) (hc : c ∈ [',', ']', '}']) :
    EndsNumber (ws ++ c :: s) := by
  cases ws with
  | nil =>
      simp only [List.mem_cons, List.not_mem_nil, or_false] at hc
      rcases hc with rfl | rfl | rfl <;> exact endsNumber_cons rfl (by decide)
  | cons b ws =>
      have hb := hws b List.mem_cons_self
      simp only [isSpace, Bool.or_eq_true, decide_eq_true_eq] at hb
      rcases hb with ((rfl | rfl) | rfl) | rfl <;> exact endsNumber_cons rfl (by decide)

end Space

/-! ## What is printed is parsed -/

/-- A character that only a number starts with. -/
def startsNum (c : Char) : Prop :=
  isSpace c = false ∧ c ≠ ']' ∧ c ≠ '{' ∧ c ≠ '[' ∧ c ≠ '"' ∧ c ≠ 't' ∧ c ≠ 'f' ∧ c ≠ 'n'

theorem startsNum_of_next {c : Char} {q : NumState} (h : NumState.start.next c = some q) :
    startsNum c := by
  rcases NumState.next_some h with hdigit | hmem
  · have hbounds := isDigit_bounds hdigit
    simp only [startsNum, isSpace, Bool.or_eq_false_iff, decide_eq_false_iff_not]
    refine ⟨⟨⟨⟨?_, ?_⟩, ?_⟩, ?_⟩, ?_, ?_, ?_, ?_, ?_, ?_, ?_⟩ <;>
      rintro rfl <;> revert hbounds <;> decide
  · simp only [List.mem_cons, List.not_mem_nil, or_false] at hmem
    rcases hmem with rfl | rfl | rfl | rfl | rfl <;> simp [startsNum, isSpace]

theorem num_head (n : NumLit) : ∃ c s, n.text = c :: s ∧ startsNum c := by
  obtain ⟨text, hok⟩ := n
  cases text with
  | nil => cases hok
  | cons c s =>
      refine ⟨c, s, rfl, ?_⟩
      rw [scanNum] at hok
      cases hc : NumState.start.next c with
      | none => simp [hc, NumState.accepting] at hok
      | some q => exact startsNum_of_next hc

/-- A value does not start with white space or a closing bracket. -/
theorem print_head (L : Layout) (d : ℕ) (j : Json) :
    ∃ c s, print L d j = c :: s ∧ isSpace c = false ∧ c ≠ ']' := by
  cases j with
  | null => exact ⟨_, _, rfl, rfl, by decide⟩
  | bool b => cases b <;> exact ⟨_, _, rfl, rfl, by decide⟩
  | str s => exact ⟨_, _, rfl, rfl, by decide⟩
  | arr vs => cases vs <;> exact ⟨_, _, rfl, rfl, by decide⟩
  | obj ms =>
      cases ms with
      | nil => exact ⟨_, _, rfl, rfl, by decide⟩
      | cons m ms => exact ⟨_, _, rfl, rfl, by decide⟩
  | num n =>
      obtain ⟨c, s, htext, hspace, hbracket, -⟩ := num_head n
      exact ⟨c, s, htext, hspace, hbracket⟩

/-- The elements of a nonempty array. -/
def elemsText (L : Layout) (d : ℕ) : List Json → Text
  | [] => []
  | v :: vs => print L d v ++ printElems L d vs

/-- The members of a nonempty object. -/
def membersText (L : Layout) (d : ℕ) : List (Utf16 × Json) → Text
  | [] => []
  | (k, v) :: ms =>
      '"' :: (quote k ++ '"' :: ':' :: (L.afterColon ++ print L d v)) ++ printMembers L d ms

theorem print_arr (L : Layout) (d : ℕ) {vs : List Json} (h : vs ≠ []) :
    print L d (.arr vs) =
      '[' :: (L.indent (d + 1) ++ elemsText L (d + 1) vs ++ L.indent d ++ [']']) := by
  cases vs with
  | nil => exact absurd rfl h
  | cons v vs => simp only [print, elemsText, List.append_assoc]

theorem print_obj (L : Layout) (d : ℕ) {ms : List (Utf16 × Json)} (h : ms ≠ []) :
    print L d (.obj ms) =
      '{' :: (L.indent (d + 1) ++ membersText L (d + 1) ms ++ L.indent d ++ ['}']) := by
  cases ms with
  | nil => exact absurd rfl h
  | cons m ms => simp only [print, membersText, List.append_assoc, List.cons_append]

theorem printElems_cons (L : Layout) (d : ℕ) {vs : List Json} (h : vs ≠ []) :
    printElems L d vs = ',' :: (L.indent d ++ elemsText L d vs) := by
  cases vs with
  | nil => exact absurd rfl h
  | cons v vs => simp [printElems, elemsText]

theorem printMembers_cons (L : Layout) (d : ℕ) {ms : List (Utf16 × Json)} (h : ms ≠ []) :
    printMembers L d ms = ',' :: (L.indent d ++ membersText L d ms) := by
  cases ms with
  | nil => exact absurd rfl h
  | cons m ms => simp [printMembers, membersText]

/-- Where an array or an object has parts, its closing bracket is not next. -/
theorem expect_elems (L : Layout) (d : ℕ) {vs : List Json} (h : vs ≠ []) {s : Text} :
    expect ']' (L.indent d ++ (elemsText L d vs ++ s)) = none := by
  cases vs with
  | nil => exact absurd rfl h
  | cons v vs =>
      obtain ⟨c, t, hprint, hspace, hne⟩ := print_head L d v
      rw [expect_append (L.indent_space d), elemsText, hprint, List.cons_append, List.cons_append,
        expect_cons hspace, if_neg hne]

theorem expect_members (L : Layout) (d : ℕ) {ms : List (Utf16 × Json)} (h : ms ≠ []) {s : Text} :
    expect '}' (L.indent d ++ (membersText L d ms ++ s)) = none := by
  cases ms with
  | nil => exact absurd rfl h
  | cons m ms => rw [expect_append (L.indent_space d)]; rfl

theorem parseValue_num (n : NumLit) (m : ℕ) {rest : Text} (hrest : EndsNumber rest) :
    parseValue (m + 1) (n.text ++ rest) = some (.num n, rest) := by
  obtain ⟨c, s, htext, hspace, -, h1, h2, h3, h4, h5, h6⟩ := num_head n
  have hscan := scanNum_append n.ok hrest
  rw [htext, List.cons_append] at hscan
  rw [htext, List.cons_append, parseValue, skipSpace_cons hspace]
  simp only [h1, h2, h3, h4, h5, h6, if_false, parseNum, hscan]
  rw [← htext]
  exact dif_pos n.ok

section Complete

variable (L : Layout)

mutual

theorem parseValue_print : ∀ (j : Json) (d n : ℕ) (rest : Text), (print L d j).length ≤ n →
    EndsNumber rest → parseValue n (print L d j ++ rest) = some (j, rest)
  | j, d, 0, rest, hn, _ => by
      obtain ⟨c, s, hprint, -⟩ := print_head L d j
      simp [hprint] at hn
  | .null, d, n + 1, rest, _, _ => by
      simp [print, parseValue, skipSpace_cons, isSpace, literal]
  | .bool b, d, n + 1, rest, _, _ => by
      cases b <;> simp [print, parseValue, skipSpace_cons, isSpace, literal]
  | .num t, d, n + 1, rest, _, hrest => by
      rw [print]
      exact parseValue_num t n hrest
  | .str s, d, n + 1, rest, _, _ => by
      simp [print, parseValue, skipSpace_cons, isSpace, scanStr_quote]
  | .arr vs, d, n + 1, rest, hn, _ => by
      by_cases hvs : vs = []
      · subst hvs
        simp [print, parseValue, skipSpace_cons, isSpace, expect]
      · rw [print_arr L d hvs] at hn ⊢
        simp only [List.length_cons, List.length_append, List.length_nil] at hn
        have ih := parseElems_print vs (d + 1) n (L.indent d) rest hvs (by omega) (L.indent_space d)
        simp only [List.cons_append, List.append_assoc, List.nil_append]
        rw [parseValue, skipSpace_cons rfl]
        simp only [if_neg (show '[' ≠ '{' by decide), if_true, expect_elems L (d + 1) hvs]
        rw [parseElems_append (L.indent_space _), ih]
        rfl
  | .obj ms, d, n + 1, rest, hn, _ => by
      by_cases hms : ms = []
      · subst hms
        simp [print, parseValue, skipSpace_cons, isSpace, expect]
      · rw [print_obj L d hms] at hn ⊢
        simp only [List.length_cons, List.length_append, List.length_nil] at hn
        have ih := parseMembers_print ms (d + 1) n (L.indent d) rest hms (by omega) (L.indent_space d)
        simp only [List.cons_append, List.append_assoc, List.nil_append]
        rw [parseValue, skipSpace_cons rfl]
        simp only [if_true, expect_members L (d + 1) hms]
        rw [parseMembers_append (L.indent_space _), ih]
        rfl

theorem parseElems_print : ∀ (vs : List Json) (d n : ℕ) (ws rest : Text), vs ≠ [] →
    (elemsText L d vs).length + 1 ≤ n → (∀ c ∈ ws, isSpace c = true) →
    parseElems n (elemsText L d vs ++ (ws ++ ']' :: rest)) = some (vs, rest)
  | [], _, _, _, _, hne, _, _ => absurd rfl hne
  | _ :: _, _, 0, _, _, _, hn, _ => by cases hn
  | v :: vs, d, n + 1, ws, rest, _, hn, hws => by
      rw [elemsText, List.length_append] at hn
      rw [elemsText, List.append_assoc, parseElems]
      by_cases hvs : vs = []
      · subst hvs
        rw [printElems, List.nil_append,
          parseValue_print v d n _ (by omega) (endsNumber_append hws (by decide))]
        simp only [Option.bind_some, expect_append hws]
        rfl
      · rw [printElems_cons L d hvs] at hn ⊢
        simp only [List.length_cons, List.length_append] at hn
        have ih := parseElems_print vs d n ws rest hvs (by omega) hws
        rw [List.cons_append, parseValue_print v d n _ (by omega)
          endsNumber_comma]
        simp only [Option.bind_some, expect_cons (show isSpace ',' = false from rfl), if_true,
          List.append_assoc, parseElems_append (L.indent_space d), ih]
        rfl

theorem parseMembers_print : ∀ (ms : List (Utf16 × Json)) (d n : ℕ) (ws rest : Text), ms ≠ [] →
    (membersText L d ms).length + 1 ≤ n → (∀ c ∈ ws, isSpace c = true) →
    parseMembers n (membersText L d ms ++ (ws ++ '}' :: rest)) = some (ms, rest)
  | [], _, _, _, _, hne, _, _ => absurd rfl hne
  | _ :: _, _, 0, _, _, _, hn, _ => by cases hn
  | (k, v) :: ms, d, n + 1, ws, rest, _, hn, hws => by
      simp only [membersText, List.length_cons, List.length_append] at hn
      simp only [membersText, List.cons_append, List.append_assoc]
      rw [parseMembers, expect_cons rfl, if_pos rfl]
      simp only [Option.bind_some, scanStr_quote, expect_cons (show isSpace ':' = false from rfl),
        if_true, parseValue_append L.afterColon_space]
      by_cases hms : ms = []
      · subst hms
        rw [printMembers, List.nil_append,
          parseValue_print v d n _ (by omega) (endsNumber_append hws (by decide))]
        simp only [Option.bind_some, expect_append hws]
        rfl
      · rw [printMembers_cons L d hms] at hn ⊢
        simp only [List.length_cons, List.length_append] at hn
        have ih := parseMembers_print ms d n ws rest hms (by omega) hws
        rw [List.cons_append, parseValue_print v d n _ (by omega)
          endsNumber_comma]
        simp only [Option.bind_some, expect_cons (show isSpace ',' = false from rfl), if_true,
          List.append_assoc, parseMembers_append (L.indent_space d), ih]
        rfl

end

/-- **Round trip.** -/
theorem parse_print (j : Json) : parse (print L 0 j) = some j := by
  have h := parseValue_print L j 0 ((print L 0 j).length + 1) [] (Nat.le_succ _)
    (by simp [EndsNumber])
  rw [List.append_nil] at h
  rw [parse, h]
  rfl

/-- Values are told apart by their texts. -/
instance : DecidableEq Json := fun a b =>
  decidable_of_iff (print compact 0 a = print compact 0 b)
    ⟨fun h => Option.some.inj ((parse_print compact a).symm.trans (h ▸ parse_print compact b)),
      congrArg _⟩

end Complete

/-! ## Reading a longer text

A value that ends in a text is read the same when more text follows. Only a number
can go on. -/

def isNum : Json → Bool
  | .num _ => true
  | _ => false

section Stable

variable {c d : Char} {s t u r rest : Text} {n m : ℕ} {j : Json} {vs : List Json}
  {ms : List (Utf16 × Json)}

theorem skipSpace_stable (h : skipSpace s = c :: t) : skipSpace (s ++ u) = c :: (t ++ u) := by
  rw [skipSpace] at h
  rw [skipSpace, List.dropWhile_append, h]
  rfl

theorem expect_stable (h : expect c s = some r) : expect c (s ++ u) = some (r ++ u) := by
  unfold expect at h
  split at h
  · cases h
  · next hs =>
      rw [Option.ite_none_right_eq_some, Option.some.injEq] at h
      obtain ⟨rfl, rfl⟩ := h
      rw [expect, skipSpace_stable hs]
      exact if_pos rfl

theorem expect_other (h : expect d s = some r) (hne : c ≠ d) : expect c (s ++ u) = none := by
  unfold expect at h
  split at h
  · cases h
  · next hs =>
      rw [Option.ite_none_right_eq_some, Option.some.injEq] at h
      obtain ⟨rfl, rfl⟩ := h
      rw [expect, skipSpace_stable hs]
      exact if_neg hne.symm

theorem expect_suffix (h : expect c s = some r) : c :: r <:+ s := by
  unfold expect at h
  split at h
  · cases h
  · next hs =>
      rw [Option.ite_none_right_eq_some, Option.some.injEq] at h
      obtain ⟨rfl, rfl⟩ := h
      rw [← hs]
      exact List.dropWhile_suffix _

theorem literal_stable {pat : Text} (h : literal pat s = some r) :
    literal pat (s ++ u) = some (r ++ u) := by
  rw [literal, Option.ite_none_right_eq_some, Option.some.injEq] at h
  obtain ⟨hpre, rfl⟩ := h
  obtain ⟨t, rfl⟩ := List.isPrefixOf_iff_prefix.mp hpre
  have hpre' : pat.isPrefixOf (pat ++ t ++ u) = true :=
    List.isPrefixOf_iff_prefix.mpr ⟨t ++ u, (List.append_assoc _ _ _).symm⟩
  rw [literal, if_pos hpre', List.append_assoc, List.drop_left, List.drop_left]

theorem literal_suffix {pat : Text} (h : literal pat s = some r) : r <:+ s := by
  rw [literal, Option.ite_none_right_eq_some, Option.some.injEq] at h
  obtain ⟨-, rfl⟩ := h
  exact List.drop_suffix _ _

theorem parseNum_eq_some (h : parseNum s = some (j, rest)) :
    ∃ n, j = .num n ∧ scanNum .start s = some (n.text, rest) := by
  unfold parseNum at h
  split at h
  · cases h
  · next text r hscan =>
      split at h
      · next hok =>
          obtain ⟨rfl, rfl⟩ := Prod.mk.inj (Option.some.inj h)
          exact ⟨⟨text, hok⟩, rfl, hscan⟩
      · cases h

theorem parseNum_stable (h : parseNum s = some (j, rest)) (hrest : rest ≠ []) :
    parseNum (s ++ u) = some (j, rest ++ u) := by
  obtain ⟨n, rfl, hscan⟩ := parseNum_eq_some h
  rw [parseNum, scanNum_stable hscan hrest]
  exact dif_pos n.ok

/-- A value is there, and it is no closing bracket. -/
theorem parseValue_head {x : Json × Text} (h : parseValue n s = some x) :
    ∃ c t, skipSpace s = c :: t ∧ c ≠ ']' := by
  cases n with
  | zero => cases h
  | succ n =>
      rw [parseValue] at h
      split at h
      · cases h
      · next c t hs =>
          refine ⟨c, t, hs, ?_⟩
          rintro rfl
          have hscan : scanNum .start (']' :: t) = none := rfl
          simp [parseNum, hscan] at h

theorem parseElems_head {x : List Json × Text} (h : parseElems n s = some x) :
    expect ']' (s ++ u) = none := by
  cases n with
  | zero => cases h
  | succ n =>
      rw [parseElems] at h
      obtain ⟨v, hv, -⟩ := Option.bind_eq_some_iff.mp h
      obtain ⟨c, t, hs, hne⟩ := parseValue_head hv
      rw [expect, skipSpace_stable hs]
      exact if_neg hne

theorem parseMembers_head {x : List (Utf16 × Json) × Text} (h : parseMembers n s = some x) :
    expect '}' (s ++ u) = none := by
  cases n with
  | zero => cases h
  | succ n =>
      rw [parseMembers] at h
      obtain ⟨t, ht, -⟩ := Option.bind_eq_some_iff.mp h
      exact expect_other ht (by decide)

/-- What a scanner of some depth answers for the front of a longer text. -/
structure Stable (n : ℕ) : Prop where
  value : ∀ {s j rest}, parseValue n s = some (j, rest) → (rest ≠ [] ∨ j.isNum = false) →
    ∀ m, n ≤ m → ∀ u, parseValue m (s ++ u) = some (j, rest ++ u)
  elems : ∀ {s vs rest}, parseElems n s = some (vs, rest) →
    ∀ m, n ≤ m → ∀ u, parseElems m (s ++ u) = some (vs, rest ++ u)
  members : ∀ {s ms rest}, parseMembers n s = some (ms, rest) →
    ∀ m, n ≤ m → ∀ u, parseMembers m (s ++ u) = some (ms, rest ++ u)

theorem stable_value (ih : Stable n) (h : parseValue (n + 1) s = some (j, rest))
    (hend : rest ≠ [] ∨ j.isNum = false) (hm : n ≤ m) :
    parseValue (m + 1) (s ++ u) = some (j, rest ++ u) := by
  rw [parseValue] at h ⊢
  split at h
  · cases h
  · next c t hs =>
      rw [skipSpace_stable hs]
      dsimp only
      split_ifs at h ⊢
      -- an object
      · split at h
        · next hclose =>
            obtain ⟨rfl, rfl⟩ := Prod.mk.inj (Option.some.inj h)
            rw [expect_stable hclose]
        · obtain ⟨⟨ms, r⟩, hms, heq⟩ := Option.map_eq_some_iff.mp h
          obtain ⟨rfl, rfl⟩ := Prod.mk.inj heq
          rw [parseMembers_head hms, ih.members hms m hm u]
          rfl
      -- an array
      · split at h
        · next hclose =>
            obtain ⟨rfl, rfl⟩ := Prod.mk.inj (Option.some.inj h)
            rw [expect_stable hclose]
        · obtain ⟨⟨vs, r⟩, hvs, heq⟩ := Option.map_eq_some_iff.mp h
          obtain ⟨rfl, rfl⟩ := Prod.mk.inj heq
          rw [parseElems_head hvs, ih.elems hvs m hm u]
          rfl
      -- a string
      · obtain ⟨⟨us, r⟩, hus, heq⟩ := Option.map_eq_some_iff.mp h
        obtain ⟨rfl, rfl⟩ := Prod.mk.inj heq
        rw [scanStr_stable hus]
        rfl
      -- the three literals
      · obtain ⟨r, hr, heq⟩ := Option.map_eq_some_iff.mp h
        obtain ⟨rfl, rfl⟩ := Prod.mk.inj heq
        rw [literal_stable hr]
        rfl
      · obtain ⟨r, hr, heq⟩ := Option.map_eq_some_iff.mp h
        obtain ⟨rfl, rfl⟩ := Prod.mk.inj heq
        rw [literal_stable hr]
        rfl
      · obtain ⟨r, hr, heq⟩ := Option.map_eq_some_iff.mp h
        obtain ⟨rfl, rfl⟩ := Prod.mk.inj heq
        rw [literal_stable hr]
        rfl
      -- a number
      · obtain ⟨n, rfl, -⟩ := parseNum_eq_some h
        exact parseNum_stable h (hend.resolve_right (by simp [isNum]))

/-- What stands after an element or a member. -/
theorem ne_nil_of_expect (h : expect c s = some r) : s ≠ [] := by
  rintro rfl
  cases h

theorem stable_elems (ih : Stable n) (h : parseElems (n + 1) s = some (vs, rest)) (hm : n ≤ m) :
    parseElems (m + 1) (s ++ u) = some (vs, rest ++ u) := by
  rw [parseElems] at h ⊢
  obtain ⟨⟨v, t⟩, hv, h⟩ := Option.bind_eq_some_iff.mp h
  dsimp only at h
  split at h
  · next t' hcomma =>
      obtain ⟨⟨vs', r⟩, hvs, heq⟩ := Option.map_eq_some_iff.mp h
      obtain ⟨rfl, rfl⟩ := Prod.mk.inj heq
      rw [ih.value hv (.inl (ne_nil_of_expect hcomma)) m hm u]
      simp only [Option.bind_some, expect_stable hcomma, ih.elems hvs m hm u]
      rfl
  · obtain ⟨r, hclose, heq⟩ := Option.map_eq_some_iff.mp h
    obtain ⟨rfl, rfl⟩ := Prod.mk.inj heq
    rw [ih.value hv (.inl (ne_nil_of_expect hclose)) m hm u]
    simp only [Option.bind_some, expect_other hclose (show ',' ≠ ']' by decide), expect_stable hclose]
    rfl

theorem stable_members (ih : Stable n) (h : parseMembers (n + 1) s = some (ms, rest)) (hm : n ≤ m) :
    parseMembers (m + 1) (s ++ u) = some (ms, rest ++ u) := by
  rw [parseMembers] at h ⊢
  obtain ⟨t, hquote, h⟩ := Option.bind_eq_some_iff.mp h
  obtain ⟨⟨k, t'⟩, hkey, h⟩ := Option.bind_eq_some_iff.mp h
  obtain ⟨t'', hcolon, h⟩ := Option.bind_eq_some_iff.mp h
  obtain ⟨⟨v, t'''⟩, hv, h⟩ := Option.bind_eq_some_iff.mp h
  dsimp only at h hcolon
  simp only [expect_stable hquote, Option.bind_some, scanStr_stable hkey, expect_stable hcolon]
  split at h
  · next t4 hcomma =>
      obtain ⟨⟨ms', r⟩, hms, heq⟩ := Option.map_eq_some_iff.mp h
      obtain ⟨rfl, rfl⟩ := Prod.mk.inj heq
      rw [ih.value hv (.inl (ne_nil_of_expect hcomma)) m hm u]
      simp only [Option.bind_some, expect_stable hcomma, ih.members hms m hm u]
      rfl
  · obtain ⟨r, hclose, heq⟩ := Option.map_eq_some_iff.mp h
    obtain ⟨rfl, rfl⟩ := Prod.mk.inj heq
    rw [ih.value hv (.inl (ne_nil_of_expect hclose)) m hm u]
    simp only [Option.bind_some, expect_other hclose (show ',' ≠ '}' by decide), expect_stable hclose]
    rfl

theorem stable : ∀ n, Stable n
  | 0 => by
      constructor
      all_goals
        intro _ _ _ h
        cases h
  | n + 1 => by
      have ih := stable n
      constructor
      · intro s j rest h hend m hm u
        cases m with
        | zero => cases hm
        | succ m => exact stable_value ih h hend (Nat.le_of_succ_le_succ hm)
      · intro s vs rest h m hm u
        cases m with
        | zero => cases hm
        | succ m => exact stable_elems ih h (Nat.le_of_succ_le_succ hm)
      · intro s ms rest h m hm u
        cases m with
        | zero => cases hm
        | succ m => exact stable_members ih h (Nat.le_of_succ_le_succ hm)

end Stable

/-! ## Cutting an object

The last character of an object is its brace, and it is read there first. -/

section Cut

variable {c : Char} {s t rest : Text} {n : ℕ} {j : Json} {vs : List Json} {ms : List (Utf16 × Json)}

/-- What a scanner of some depth leaves: a suffix, after an object with its brace. -/
structure Leaves (n : ℕ) : Prop where
  value : ∀ {s j rest}, parseValue n s = some (j, rest) → rest <:+ s
  elems : ∀ {s vs rest}, parseElems n s = some (vs, rest) → rest <:+ s
  members : ∀ {s ms rest}, parseMembers n s = some (ms, rest) → '}' :: rest <:+ s

theorem expect_rest (h : expect c s = some rest) : rest <:+ s :=
  (List.suffix_cons c rest).trans (expect_suffix h)

theorem leaves_value (ih : Leaves n) (h : parseValue (n + 1) s = some (j, rest)) : rest <:+ s := by
  rw [parseValue] at h
  split at h
  · cases h
  · next c t hs =>
      have hst : c :: t <:+ s := hs ▸ List.dropWhile_suffix _
      have hts : t <:+ s := (List.suffix_cons c t).trans hst
      split_ifs at h
      · split at h
        · next hclose =>
            obtain ⟨-, rfl⟩ := Prod.mk.inj (Option.some.inj h)
            exact (expect_rest hclose).trans hts
        · obtain ⟨⟨ms, r⟩, hms, heq⟩ := Option.map_eq_some_iff.mp h
          obtain ⟨-, rfl⟩ := Prod.mk.inj heq
          exact ((List.suffix_cons _ _).trans (ih.members hms)).trans hts
      · split at h
        · next hclose =>
            obtain ⟨-, rfl⟩ := Prod.mk.inj (Option.some.inj h)
            exact (expect_rest hclose).trans hts
        · obtain ⟨⟨vs, r⟩, hvs, heq⟩ := Option.map_eq_some_iff.mp h
          obtain ⟨-, rfl⟩ := Prod.mk.inj heq
          exact (ih.elems hvs).trans hts
      · obtain ⟨⟨us, r⟩, hus, heq⟩ := Option.map_eq_some_iff.mp h
        obtain ⟨-, rfl⟩ := Prod.mk.inj heq
        exact (scanStr_suffix hus).trans hts
      · obtain ⟨r, hr, heq⟩ := Option.map_eq_some_iff.mp h
        obtain ⟨-, rfl⟩ := Prod.mk.inj heq
        exact (literal_suffix hr).trans hts
      · obtain ⟨r, hr, heq⟩ := Option.map_eq_some_iff.mp h
        obtain ⟨-, rfl⟩ := Prod.mk.inj heq
        exact (literal_suffix hr).trans hts
      · obtain ⟨r, hr, heq⟩ := Option.map_eq_some_iff.mp h
        obtain ⟨-, rfl⟩ := Prod.mk.inj heq
        exact (literal_suffix hr).trans hts
      · obtain ⟨n, -, hscan⟩ := parseNum_eq_some h
        exact (scanNum_suffix hscan).trans hst

theorem leaves_elems (ih : Leaves n) (h : parseElems (n + 1) s = some (vs, rest)) : rest <:+ s := by
  rw [parseElems] at h
  obtain ⟨⟨v, t⟩, hv, h⟩ := Option.bind_eq_some_iff.mp h
  have hts := ih.value hv
  dsimp only at h
  split at h
  · next hcomma =>
      obtain ⟨⟨vs', r⟩, hvs, heq⟩ := Option.map_eq_some_iff.mp h
      obtain ⟨-, rfl⟩ := Prod.mk.inj heq
      exact ((ih.elems hvs).trans (expect_rest hcomma)).trans hts
  · obtain ⟨r, hclose, heq⟩ := Option.map_eq_some_iff.mp h
    obtain ⟨-, rfl⟩ := Prod.mk.inj heq
    exact (expect_rest hclose).trans hts

theorem leaves_members (ih : Leaves n) (h : parseMembers (n + 1) s = some (ms, rest)) :
    '}' :: rest <:+ s := by
  rw [parseMembers] at h
  obtain ⟨t, hquote, h⟩ := Option.bind_eq_some_iff.mp h
  obtain ⟨⟨k, t'⟩, hkey, h⟩ := Option.bind_eq_some_iff.mp h
  obtain ⟨t'', hcolon, h⟩ := Option.bind_eq_some_iff.mp h
  obtain ⟨⟨v, t'''⟩, hv, h⟩ := Option.bind_eq_some_iff.mp h
  have hts : t''' <:+ s := (((ih.value hv).trans (expect_rest hcolon)).trans
    (scanStr_suffix hkey)).trans (expect_rest hquote)
  dsimp only at h
  split at h
  · next hcomma =>
      obtain ⟨⟨ms', r⟩, hms, heq⟩ := Option.map_eq_some_iff.mp h
      obtain ⟨-, rfl⟩ := Prod.mk.inj heq
      exact ((ih.members hms).trans (expect_rest hcomma)).trans hts
  · obtain ⟨r, hclose, heq⟩ := Option.map_eq_some_iff.mp h
    obtain ⟨-, rfl⟩ := Prod.mk.inj heq
    exact (expect_suffix hclose).trans hts

theorem leaves : ∀ n, Leaves n
  | 0 => by
      constructor
      all_goals
        intro _ _ _ h
        cases h
  | n + 1 => ⟨leaves_value (leaves n), leaves_elems (leaves n), leaves_members (leaves n)⟩

theorem leaves_obj (h : parseValue n ('{' :: s) = some (j, rest)) :
    '}' :: rest <:+ s ∧ j.isNum = false := by
  cases n with
  | zero => cases h
  | succ n =>
      rw [parseValue, skipSpace_cons rfl] at h
      simp only [if_true] at h
      split at h
      · next hclose =>
          obtain ⟨rfl, rfl⟩ := Prod.mk.inj (Option.some.inj h)
          exact ⟨expect_suffix hclose, rfl⟩
      · obtain ⟨⟨ms, r⟩, hms, heq⟩ := Option.map_eq_some_iff.mp h
        obtain ⟨rfl, rfl⟩ := Prod.mk.inj heq
        exact ⟨(leaves n).members hms, rfl⟩

theorem parse_eq_some (h : parse s = some j) :
    ∃ rest, parseValue (s.length + 1) s = some (j, rest) ∧ skipSpace rest = [] := by
  obtain ⟨⟨v, rest⟩, hv, h⟩ := Option.bind_eq_some_iff.mp h
  rw [Option.ite_none_right_eq_some] at h
  obtain ⟨hrest, heq⟩ := h
  obtain rfl := Option.some.inj heq
  exact ⟨rest, hv, hrest⟩

/-- Every printed object starts with its brace. -/
theorem print_obj_head (L : Layout) (ms : List (Utf16 × Json)) :
    ∃ s, print L 0 (.obj ms) = '{' :: s := by
  cases ms with
  | nil => exact ⟨_, rfl⟩
  | cons m ms => exact ⟨_, rfl⟩

/-- An object text does not end in a character that is neither space nor a brace. -/
theorem parse_snoc (hspace : isSpace c = false) (hbrace : c ≠ '}') :
    parse ('{' :: (s ++ [c])) = none := by
  cases hparse : parse ('{' :: (s ++ [c])) with
  | none => rfl
  | some j =>
      obtain ⟨rest, hv, hrest⟩ := parse_eq_some hparse
      obtain ⟨pre, hpre⟩ := (leaves_obj hv).1
      have hlast : ('}' :: rest).getLast? = some c := by
        have := congrArg List.getLast? hpre
        rwa [List.getLast?_append_of_ne_nil _ (by simp), List.getLast?_concat] at this
      rcases List.mem_cons.mp (List.mem_of_getLast? hlast) with h | h
      · exact absurd h hbrace
      · have := List.dropWhile_eq_nil_iff.mp hrest c h
        rw [hspace] at this
        cases this

theorem parse_take (L : Layout) (ms : List (Utf16 × Json)) {i : ℕ}
    (hi : i < (print L 0 (.obj ms)).length) : parse ((print L 0 (.obj ms)).take i) = none := by
  cases hparse : parse ((print L 0 (.obj ms)).take i) with
  | none => rfl
  | some j =>
      obtain ⟨rest, hv, -⟩ := parse_eq_some hparse
      obtain ⟨s, hs⟩ := print_obj_head L ms
      cases i with
      | zero => cases hv
      | succ i =>
          have hnum : j.isNum = false := by
            rw [hs, List.take_succ_cons] at hv
            exact (leaves_obj hv).2
          -- with the rest of the object behind it, the front is read the same
          have hlong := (stable _).value hv (.inr hnum) _
            (Nat.succ_le_succ (List.length_take_le' (i + 1) (print L 0 (.obj ms))))
            ((print L 0 (.obj ms)).drop (i + 1))
          rw [List.take_append_drop] at hlong
          have hwhole := parseValue_print L (.obj ms) 0 ((print L 0 (.obj ms)).length + 1) []
            (Nat.le_succ _) (by simp [EndsNumber])
          rw [List.append_nil, hlong, Option.some.injEq, Prod.mk.injEq, List.append_eq_nil_iff,
            List.drop_eq_nil_iff] at hwhole
          omega

/-- **A torn object is not parsed**, at whatever byte it is cut. -/
theorem parse_torn (L : Layout) (ms : List (Utf16 × Json)) {k : ℕ}
    (hk : k < (encodeUtf8 (print L 0 (.obj ms))).length) :
    parse (fromUtf8Lossy ((encodeUtf8 (print L 0 (.obj ms))).take k)) = none := by
  obtain ⟨i, hi, h | h⟩ := fromUtf8Lossy_take hk
  · rw [h]
    exact parse_take L ms hi
  · rw [h]
    obtain ⟨s, hs⟩ := print_obj_head L ms
    cases i with
    | zero => rfl
    | succ i =>
        rw [hs, List.take_succ_cons]
        exact parse_snoc (by decide) (by decide)

end Cut

end Json

end Bartok.Foundation
