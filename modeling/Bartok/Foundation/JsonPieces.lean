import Bartok.Foundation.JsonSource

/-!
# JSON in pieces

The reader takes a value apart: white space, a value from its first character to its last,
and what follows. So an object of at least one member is always the text of its pieces, and
a statement about all objects in pieces is one about all objects.
-/

namespace Bartok.Foundation

open Text

namespace Json

/-! ## More values -/

section Numbers

variable {s t rest : Text} {q q' : NumState} {c : Char}

/-- White space does not go on with a number. -/
theorem isSpace_of_next (h : q.next c = some q') : isSpace c = false := by
  cases hspace : isSpace c with
  | false => rfl
  | true =>
      have hends : EndsNumber ([c] ++ [',']) := endsNumber_append (by simpa using hspace) (by decide)
      cases (hends c rfl q).symm.trans h

/-- A number has no white space. -/
theorem scanNum_space (h : scanNum q s = some (t, rest)) : ∀ c ∈ t, isSpace c = false := by
  intro c hc
  obtain ⟨q, q', hq⟩ := scanNum_next h c hc
  exact isSpace_of_next hq

def Source.number (x : NumLit) : Source where
  text := x.text
  json := .num x
  reads := parse_print (L := compact) (.num x)
  head c hc := scanNum_space x.ok c (List.mem_of_mem_head? hc)
  last c hc := scanNum_space x.ok c (List.mem_of_getLast? hc)

end Numbers

def Source.null : Source where
  text := "null".toList
  json := .null
  reads := parse_print (L := compact) .null
  head := by rintro c ⟨⟩; rfl
  last := by rintro c ⟨⟩; rfl

def Source.bool (b : Bool) : Source where
  text := if b then "true".toList else "false".toList
  json := .bool b
  reads := by
    cases b with
    | false => exact parse_print (L := compact) (.bool false)
    | true => exact parse_print (L := compact) (.bool true)
  head := by cases b <;> (rintro c ⟨⟩; rfl)
  last := by cases b <;> (rintro c ⟨⟩; rfl)

/-! ## Arrays -/

/-- A value with the white space around it. -/
structure Element where
  before : Space
  value : Source
  after : Space

def Element.text (e : Element) : Text := e.before.val ++ (e.value.text ++ e.after.val)

/-- Each element behind a comma. -/
def elementsText : List Element → Text
  | [] => []
  | e :: es => ',' :: (e.text ++ elementsText es)

/-- One element, up to what follows its value. -/
theorem parseElems_element (e : Element) {n : ℕ} {u : Text} (hn : e.text.length < n)
    (hu : EndsNumber (e.after.val ++ u)) :
    parseElems (n + 1) (e.text ++ u) =
      match expect ',' u with
      | some s => (parseElems n s).map fun r => (e.value.json :: r.1, r.2)
      | none => (expect ']' u).map fun rest => ([e.value.json], rest) := by
  obtain ⟨before, value, after⟩ := e
  simp only [Element.text, List.length_append] at hn
  simp only [Element.text, List.append_assoc]
  rw [parseElems, parseValue_append before.2, value.parseValue_append (by omega) hu, Option.bind_some]
  cases hcomma : expect ',' u with
  | none => simp only [expect_append after.2, hcomma]
  | some s => simp only [expect_append after.2, hcomma]

/-- Elements are read one by one. -/
theorem parseElems_elements : ∀ (e : Element) (es : List Element) (n : ℕ) (t : Text),
    (e.text ++ elementsText es).length < n →
      parseElems (n + 1) (e.text ++ (elementsText es ++ ']' :: t)) =
        some ((e :: es).map fun e => e.value.json, t)
  | e, [], n, t, hn => by
      rw [elementsText, List.append_nil] at hn
      rw [elementsText, List.nil_append,
        parseElems_element e hn (endsNumber_append e.after.2 (by decide))]
      rfl
  | e, e' :: es, 0, t, hn => absurd hn (Nat.not_lt_zero _)
  | e, e' :: es, n + 1, t, hn => by
      simp only [elementsText, List.length_append, List.length_cons] at hn
      have ih := parseElems_elements e' es n t (by rw [List.length_append]; omega)
      rw [elementsText, List.cons_append, List.append_assoc,
        parseElems_element e (by omega) (endsNumber_append e.after.2 (by decide))]
      simp only [expect_cons (show isSpace ',' = false from rfl), if_true, ih]
      rfl

theorem last_of_concat {b : Char} {s : Text} (hb : isSpace b = false) :
    ∀ c ∈ (s ++ [b]).getLast?, isSpace c = false := by
  intro c hc
  rw [List.getLast?_concat, Option.mem_some] at hc
  exact hc ▸ hb

def Source.array (e : Element) (es : List Element) : Source where
  text := '[' :: (e.text ++ (elementsText es ++ [']']))
  json := .arr ((e :: es).map fun e => e.value.json)
  reads := by
    have helems := parseElems_elements e es (e.text ++ (elementsText es ++ [']'])).length [] (by simp)
    have hopen := parseElems_head (u := []) helems
    rw [List.append_nil] at hopen
    rw [parse, Json.parseValue, skipSpace_cons rfl]
    dsimp only
    rw [if_neg (by decide), if_pos rfl, hopen, List.length_cons]
    dsimp only
    rw [helems]
    rfl
  head := by rintro c ⟨⟩; rfl
  last := by
    rw [← List.append_assoc, ← List.cons_append]
    exact last_of_concat rfl

def Source.emptyArray (ws : Space) : Source where
  text := '[' :: (ws.val ++ [']'])
  json := .arr []
  reads := by
    rw [parse, Json.parseValue, skipSpace_cons rfl]
    dsimp only
    rw [if_neg (by decide), if_pos rfl, expect_append ws.2]
    rfl
  head := by rintro c ⟨⟩; rfl
  last := by
    rw [← List.cons_append]
    exact last_of_concat rfl

def Source.emptyObject (ws : Space) : Source where
  text := '{' :: (ws.val ++ ['}'])
  json := .obj []
  reads := by
    rw [parse, Json.parseValue, skipSpace_cons rfl]
    dsimp only
    rw [if_pos rfl, expect_append ws.2]
    rfl
  head := by rintro c ⟨⟩; rfl
  last := by
    rw [← List.cons_append]
    exact last_of_concat rfl

/-! ## Taking a text apart -/

section Pieces

variable {s t r rest : Text} {c : Char} {n : ℕ} {j : Json} {vs : List Json}
  {ms : List (Utf16 × Json)} {us : Utf16} {q : StrState}

theorem skipSpace_split (h : skipSpace s = t) : ∃ ws : Space, s = ws.val ++ t := by
  refine ⟨⟨s.takeWhile isSpace, fun c hc => List.mem_takeWhile_imp hc⟩, ?_⟩
  rw [← h, skipSpace, List.takeWhile_append_dropWhile]

theorem expect_split (h : expect c s = some r) : ∃ ws : Space, s = ws.val ++ c :: r := by
  unfold expect at h
  split at h
  · cases h
  · next hs =>
      rw [Option.ite_none_right_eq_some, Option.some.injEq] at h
      obtain ⟨rfl, rfl⟩ := h
      exact skipSpace_split hs

theorem literal_split {pat : Text} (h : literal pat s = some r) : s = pat ++ r := by
  rw [literal, Option.ite_none_right_eq_some, Option.some.injEq] at h
  obtain ⟨hpre, rfl⟩ := h
  exact (List.prefix_iff_eq_append.mp (List.isPrefixOf_iff_prefix.mp hpre)).symm

/-- The quotation mark that closes a string. -/
theorem scanStr_split (h : scanStr q s = some (us, rest)) :
    ∃ raw, s = raw ++ '"' :: rest ∧ scanStr q (raw ++ ['"']) = some (us, []) := by
  induction s generalizing q us with
  | nil => cases h
  | cons c s ih =>
      rw [scanStr] at h
      split at h
      · cases h
      · next us' hnext =>
          obtain ⟨rfl, rfl⟩ := Prod.mk.inj (Option.some.inj h)
          obtain rfl := next_closing hnext
          refine ⟨[], rfl, ?_⟩
          rw [List.nil_append, scanStr, hnext]
      · next us' q' hnext =>
          obtain ⟨⟨us₂, rest'⟩, hrest, heq⟩ := Option.map_eq_some_iff.mp h
          obtain ⟨rfl, rfl⟩ := Prod.mk.inj heq
          obtain ⟨raw, rfl, hraw⟩ := ih hrest
          refine ⟨c :: raw, rfl, ?_⟩
          rw [List.cons_append, scanStr, hnext]
          dsimp only
          rw [hraw]
          rfl

/-- What a reader of some depth takes from the front. -/
structure Pieces (n : ℕ) : Prop where
  value : ∀ {s j rest}, parseValue n s = some (j, rest) →
    ∃ (ws : Space) (v : Source), s = ws.val ++ (v.text ++ rest) ∧ v.json = j
  elems : ∀ {s vs rest}, parseElems n s = some (vs, rest) →
    ∃ e es, s = e.text ++ (elementsText es ++ ']' :: rest) ∧
      (e :: es).map (fun e => e.value.json) = vs
  members : ∀ {s ms rest}, parseMembers n s = some (ms, rest) →
    ∃ i is, s = i.text ++ (itemsText ',' is ++ '}' :: rest) ∧
      (i :: is).map (fun i => i.member.entry) = ms

def Space.none : Space := ⟨[], nofun⟩

theorem pieces_value (ih : Pieces n) (h : parseValue (n + 1) s = some (j, rest)) :
    ∃ (ws : Space) (v : Source), s = ws.val ++ (v.text ++ rest) ∧ v.json = j := by
  rw [parseValue] at h
  split at h
  · cases h
  · next c t hs =>
      obtain ⟨ws, rfl⟩ := skipSpace_split hs
      refine ⟨ws, ?_⟩
      split_ifs at h with hobj harr hstr htrue hfalse hnull
      -- an object
      · subst hobj
        split at h
        · next hclose =>
            obtain ⟨rfl, rfl⟩ := Prod.mk.inj (Option.some.inj h)
            obtain ⟨inside, rfl⟩ := expect_split hclose
            exact ⟨.emptyObject inside, by simp [Source.emptyObject], rfl⟩
        · obtain ⟨⟨ms, r⟩, hms, heq⟩ := Option.map_eq_some_iff.mp h
          obtain ⟨rfl, rfl⟩ := Prod.mk.inj heq
          obtain ⟨i, is, rfl, rfl⟩ := ih.members hms
          exact ⟨ObjectSource.source ⟨.none, i :: is, .none, by simp⟩ rfl rfl,
            by simp [ObjectSource.source, ObjectSource.text, itemsText, Space.none], rfl⟩
      -- an array
      · subst harr
        split at h
        · next hclose =>
            obtain ⟨rfl, rfl⟩ := Prod.mk.inj (Option.some.inj h)
            obtain ⟨inside, rfl⟩ := expect_split hclose
            exact ⟨.emptyArray inside, by simp [Source.emptyArray], rfl⟩
        · obtain ⟨⟨vs, r⟩, hvs, heq⟩ := Option.map_eq_some_iff.mp h
          obtain ⟨rfl, rfl⟩ := Prod.mk.inj heq
          obtain ⟨e, es, rfl, rfl⟩ := ih.elems hvs
          exact ⟨.array e es, by simp [Source.array], rfl⟩
      -- a string
      · subst hstr
        obtain ⟨⟨us, r⟩, hus, heq⟩ := Option.map_eq_some_iff.mp h
        obtain ⟨rfl, rfl⟩ := Prod.mk.inj heq
        obtain ⟨raw, rfl, hraw⟩ := scanStr_split hus
        exact ⟨.string raw us hraw, by simp [Source.string], rfl⟩
      -- the three literals
      · subst htrue
        obtain ⟨r, hr, heq⟩ := Option.map_eq_some_iff.mp h
        obtain ⟨rfl, rfl⟩ := Prod.mk.inj heq
        exact ⟨.bool true, congrArg (ws.val ++ 't' :: ·) (literal_split hr), rfl⟩
      · subst hfalse
        obtain ⟨r, hr, heq⟩ := Option.map_eq_some_iff.mp h
        obtain ⟨rfl, rfl⟩ := Prod.mk.inj heq
        exact ⟨.bool false, congrArg (ws.val ++ 'f' :: ·) (literal_split hr), rfl⟩
      · subst hnull
        obtain ⟨r, hr, heq⟩ := Option.map_eq_some_iff.mp h
        obtain ⟨rfl, rfl⟩ := Prod.mk.inj heq
        exact ⟨.null, congrArg (ws.val ++ 'n' :: ·) (literal_split hr), rfl⟩
      -- a number
      · obtain ⟨x, rfl, hscan⟩ := parseNum_eq_some h
        exact ⟨.number x, congrArg (ws.val ++ ·) (scanNum_eq hscan), rfl⟩

theorem pieces_elems (ih : Pieces n) (h : parseElems (n + 1) s = some (vs, rest)) :
    ∃ e es, s = e.text ++ (elementsText es ++ ']' :: rest) ∧
      (e :: es).map (fun e => e.value.json) = vs := by
  rw [parseElems] at h
  obtain ⟨⟨j, t⟩, hv, h⟩ := Option.bind_eq_some_iff.mp h
  obtain ⟨before, v, rfl, rfl⟩ := ih.value hv
  dsimp only at h
  split at h
  · next hcomma =>
      obtain ⟨⟨vs', r⟩, hvs, heq⟩ := Option.map_eq_some_iff.mp h
      obtain ⟨rfl, rfl⟩ := Prod.mk.inj heq
      obtain ⟨after, rfl⟩ := expect_split hcomma
      obtain ⟨e, es, rfl, rfl⟩ := ih.elems hvs
      exact ⟨⟨before, v, after⟩, e :: es, by simp [Element.text, elementsText], rfl⟩
  · obtain ⟨r, hclose, heq⟩ := Option.map_eq_some_iff.mp h
    obtain ⟨rfl, rfl⟩ := Prod.mk.inj heq
    obtain ⟨after, rfl⟩ := expect_split hclose
    exact ⟨⟨before, v, after⟩, [], by simp [Element.text, elementsText], rfl⟩

theorem pieces_members (ih : Pieces n) (h : parseMembers (n + 1) s = some (ms, rest)) :
    ∃ i is, s = i.text ++ (itemsText ',' is ++ '}' :: rest) ∧
      (i :: is).map (fun i => i.member.entry) = ms := by
  rw [parseMembers] at h
  obtain ⟨t, hquote, h⟩ := Option.bind_eq_some_iff.mp h
  obtain ⟨⟨name, t'⟩, hname, h⟩ := Option.bind_eq_some_iff.mp h
  obtain ⟨t'', hcolon, h⟩ := Option.bind_eq_some_iff.mp h
  obtain ⟨⟨j, u⟩, hv, h⟩ := Option.bind_eq_some_iff.mp h
  obtain ⟨before, rfl⟩ := expect_split hquote
  obtain ⟨key, rfl, hkey⟩ := scanStr_split hname
  obtain ⟨beforeColon, rfl⟩ := expect_split hcolon
  obtain ⟨afterColon, v, rfl, rfl⟩ := ih.value hv
  let member : Member := ⟨key, name, hkey, beforeColon, afterColon, v⟩
  dsimp only at h
  split at h
  · next hcomma =>
      obtain ⟨⟨ms', r⟩, hms, heq⟩ := Option.map_eq_some_iff.mp h
      obtain ⟨rfl, rfl⟩ := Prod.mk.inj heq
      obtain ⟨after, rfl⟩ := expect_split hcomma
      obtain ⟨i, is, rfl, rfl⟩ := ih.members hms
      exact ⟨⟨before, member, after⟩, i :: is,
        by simp [member, Item.text, Member.text, Member.keyText, itemsText], rfl⟩
  · obtain ⟨r, hclose, heq⟩ := Option.map_eq_some_iff.mp h
    obtain ⟨rfl, rfl⟩ := Prod.mk.inj heq
    obtain ⟨after, rfl⟩ := expect_split hclose
    exact ⟨⟨before, member, after⟩, [],
      by simp [member, Item.text, Member.text, Member.keyText, itemsText], rfl⟩

theorem pieces : ∀ n, Pieces n
  | 0 => by
      constructor
      all_goals
        intro _ _ _ h
        cases h
  | n + 1 => ⟨pieces_value (pieces n), pieces_elems (pieces n), pieces_members (pieces n)⟩

/-- **Every object of at least one member is in pieces.** -/
theorem ObjectSource.of_parse (h : parse s = some (.obj ms)) (hms : ms ≠ []) :
    ∃ o : ObjectSource, o.text = s ∧ o.json = .obj ms := by
  obtain ⟨rest, hv, hrest⟩ := parse_eq_some h
  obtain ⟨t, hs⟩ := parseValue_readBy hv
  obtain ⟨lead, rfl⟩ := skipSpace_split hs
  rw [Json.parseValue, hs] at hv
  simp only [if_true] at hv
  split at hv
  · obtain ⟨hnil, -⟩ := Prod.mk.inj (Option.some.inj hv)
    exact absurd (Json.obj.inj hnil).symm hms
  · obtain ⟨⟨ms', r⟩, hmembers, heq⟩ := Option.map_eq_some_iff.mp hv
    obtain ⟨hobj, rfl⟩ := Prod.mk.inj heq
    obtain rfl := Json.obj.inj hobj
    obtain ⟨i, is, rfl, rfl⟩ := (pieces _).members hmembers
    refine ⟨⟨lead, i :: is, ⟨_, skipSpace_eq_nil hrest⟩, by simp⟩, ?_, rfl⟩
    simp [ObjectSource.text, itemsText]

/-- Between the braces, which may have any white space around them. -/
def Inside (inner : Text) (ms : List (Utf16 × Json)) : Prop :=
  ∀ lead trail : Space, parse (lead.val ++ '{' :: (inner ++ '}' :: trail.val)) = some (.obj ms)

theorem Inside.parse {inner : Text} (h : Inside inner ms) :
    parse ('{' :: (inner ++ ['}'])) = some (.obj ms) :=
  h .none .none

theorem inside_space (ws : Space) : Inside ws.val [] := by
  intro lead trail
  rw [parse, parseValue_append lead.2, parseValue, skipSpace_cons (by decide)]
  simp only [if_true, expect_append ws.2, expect_cons (show isSpace '}' = false by decide)]
  exact if_pos (List.dropWhile_eq_nil_iff.mpr trail.2)

/-- An object is its braces, what is between them, and white space around them. -/
theorem inside_of_parse (h : parse s = some (.obj ms)) :
    ∃ (lead trail : Space) (inner : Text), s = lead.val ++ '{' :: (inner ++ '}' :: trail.val) ∧
      Inside inner ms := by
  cases ms with
  | nil =>
      obtain ⟨rest, hv, hrest⟩ := parse_eq_some h
      obtain ⟨t, hs⟩ := parseValue_readBy hv
      obtain ⟨lead, rfl⟩ := skipSpace_split hs
      rw [Json.parseValue, hs] at hv
      simp only [if_true] at hv
      split at hv
      · next hclose =>
          obtain ⟨-, rfl⟩ := Prod.mk.inj (Option.some.inj hv)
          obtain ⟨ws, rfl⟩ := expect_split hclose
          exact ⟨lead, ⟨_, skipSpace_eq_nil hrest⟩, ws.val, rfl, inside_space ws⟩
      · obtain ⟨⟨ms', r⟩, hmembers, heq⟩ := Option.map_eq_some_iff.mp hv
        obtain ⟨i, is, -, his⟩ := (pieces _).members hmembers
        obtain rfl : ms' = [] := Json.obj.inj (Prod.mk.inj heq).1
        cases his
  | cons m ms =>
      obtain ⟨⟨lead, items, trail, hitems⟩, rfl, hjson⟩ := ObjectSource.of_parse h (by simp)
      obtain ⟨i, is, rfl⟩ := List.exists_cons_of_ne_nil hitems
      refine ⟨lead, trail, i.text ++ itemsText ',' is, by simp [ObjectSource.text, itemsText], ?_⟩
      intro lead' trail'
      have hparse := ObjectSource.parse_text ⟨lead', i :: is, trail', hitems⟩
      rw [← hjson]
      simpa [ObjectSource.text, ObjectSource.json, itemsText] using hparse

/-- An object starts with a key, or it has nothing but white space. -/
theorem Inside.head {inner : Text} (h : Inside inner ms) :
    (ms = [] ∧ ∀ c ∈ inner, isSpace c = true) ∨
      ms ≠ [] ∧ ∃ (ws : Space) (t : Text), inner = ws.val ++ '"' :: t := by
  obtain ⟨rest, hv, hrest⟩ := parse_eq_some h.parse
  have hspace := skipSpace_eq_nil hrest
  rw [Json.parseValue, skipSpace_cons (by decide)] at hv
  simp only [if_true] at hv
  split at hv
  · next rest' hclose =>
      obtain ⟨hobj, rfl⟩ := Prod.mk.inj (Option.some.inj hv)
      obtain ⟨ws, hws⟩ := expect_split hclose
      refine .inl ⟨(Json.obj.inj hobj).symm, ?_⟩
      rcases List.append_eq_append_iff.mp hws with ⟨d, hd, -⟩ | ⟨d, rfl, hd⟩
      · exact fun c hc => ws.2 c (hd ▸ List.mem_append_left _ hc)
      · cases d with
        | nil => simpa using ws.2
        | cons c d =>
            -- the last brace would be white space
            have hbrace : '}' ∈ rest' := by
              rw [(List.cons.inj hd).2]
              exact List.mem_append_right _ (List.mem_singleton_self _)
            exact absurd (hspace _ hbrace) (by decide)
  · obtain ⟨r, hmembers, heq⟩ := Option.map_eq_some_iff.mp hv
    obtain ⟨i, is, -, his⟩ := (pieces _).members hmembers
    have hms : r.1 = ms := Json.obj.inj (Prod.mk.inj heq).1
    rw [List.length_cons, parseMembers] at hmembers
    obtain ⟨t, hquote, -⟩ := Option.bind_eq_some_iff.mp hmembers
    obtain ⟨ws, hws⟩ := expect_split hquote
    refine .inr ⟨by simp [← hms, ← his], ws, ?_⟩
    rcases List.append_eq_append_iff.mp hws with ⟨d, -, hd⟩ | ⟨d, rfl, hd⟩
    · cases d with
      | nil => exact absurd (List.cons.inj hd).1 (by decide)
      | cons c d => simpa using (List.cons.inj hd).2
    · cases d with
      | nil => exact absurd (List.cons.inj hd).1 (by decide)
      | cons c d =>
          obtain ⟨rfl, -⟩ := List.cons.inj hd
          exact ⟨d, rfl⟩

/-- No object goes on where another is closed. -/
theorem inside_prefix {a b d : Text} {ms' : List (Utf16 × Json)} (ha : Inside a ms)
    (hb : Inside b ms') (h : b ++ ['}'] = (a ++ ['}']) ++ d) : d = [] := by
  have hlonger := hb.parse
  rw [h, ← List.cons_append] at hlonger
  apply parse_prefix_free ha.parse hlonger
  intro c hc
  have hlast := congrArg List.getLast? h
  rw [List.getLast?_append, List.getLast?_append, Option.mem_def.mp hc] at hlast
  obtain rfl := Option.some.inj hlast
  rfl

theorem inside_unique {a b : Text} {ms' : List (Utf16 × Json)} (ha : Inside a ms)
    (hb : Inside b ms') (h : a ++ '}' :: s = b ++ '}' :: t) : a = b ∧ s = t := by
  have hsplit : (a ++ ['}']) ++ s = (b ++ ['}']) ++ t := by simpa using h
  rcases List.append_eq_append_iff.mp hsplit with ⟨d, hd, rfl⟩ | ⟨d, hd, rfl⟩
  · obtain rfl := inside_prefix ha hb hd
    exact ⟨by simpa using hd.symm, rfl⟩
  · obtain rfl := inside_prefix hb ha hd
    exact ⟨by simpa using hd, rfl⟩

end Pieces

end Json

end Bartok.Foundation
