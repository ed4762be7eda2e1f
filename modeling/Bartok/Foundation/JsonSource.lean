import Bartok.Foundation.Json

/-!
# Objects of JSON as they are written

A parser that keeps track of where things are works on the text of each member. Here an
object is its text, in pieces: white space, keys with their escapes, values. The pieces
put together are parsed to the object they stand for.
-/

namespace Bartok.Foundation

open Text

namespace Json

/-- White space. -/
abbrev Space := {s : Text // ∀ c ∈ s, isSpace c = true}

/-- A value as it is written, from its first character to its last. -/
structure Source where
  text : Text
  json : Json
  reads : parse text = some json
  head : ∀ c ∈ text.head?, isSpace c = false
  last : ∀ c ∈ text.getLast?, isSpace c = false

structure Member where
  /-- What stands between the quotes. -/
  key : Text
  name : Utf16
  names : scanStr .plain (key ++ ['"']) = some (name, [])
  beforeColon : Space
  afterColon : Space
  value : Source

/-- A member with the white space around it. -/
structure Item where
  before : Space
  member : Member
  after : Space

/-- An object of at least one member. -/
structure ObjectSource where
  lead : Space
  items : List Item
  trail : Space
  nonempty : items ≠ []

/-- Up to the colon. -/
def Member.keyText (m : Member) : Text := '"' :: (m.key ++ '"' :: m.beforeColon.val)

def Member.text (m : Member) : Text :=
  m.keyText ++ ':' :: (m.afterColon.val ++ m.value.text)

def Member.entry (m : Member) : Utf16 × Json := (m.name, m.value.json)

def Item.text (i : Item) : Text := i.before.val ++ (i.member.text ++ i.after.val)

/-- Each item behind its opening brace or comma. -/
def itemsText : Char → List Item → Text
  | _, [] => []
  | sep, i :: is => sep :: (i.text ++ itemsText ',' is)

def ObjectSource.text (o : ObjectSource) : Text :=
  o.lead.val ++ (itemsText '{' o.items ++ '}' :: o.trail.val)

def ObjectSource.json (o : ObjectSource) : Json := .obj (o.items.map fun i => i.member.entry)

/-! ## Values -/

section Values

variable {s t u rest : Text} {n m : ℕ} {j : Json} {v : Source} {ms : List (Utf16 × Json)}
  {us : Utf16}

theorem skipSpace_eq_nil (h : skipSpace s = []) : ∀ c ∈ s, isSpace c = true :=
  List.dropWhile_eq_nil_iff.mp h

/-- A value is read to its last character. -/
theorem Source.parseValue (v : Source) :
    parseValue (v.text.length + 1) v.text = some (v.json, []) := by
  obtain ⟨rest, hv, hrest⟩ := parse_eq_some v.reads
  obtain ⟨pre, hpre⟩ := (leaves _).value hv
  cases hlast : rest.getLast? with
  | none =>
      obtain rfl := List.getLast?_eq_none_iff.mp hlast
      exact hv
  | some c =>
      have hc : isSpace c = true := skipSpace_eq_nil hrest c (List.mem_of_getLast? hlast)
      have hne : rest ≠ [] := by
        rintro rfl
        cases hlast
      rw [v.last c (by rw [← hpre, List.getLast?_append_of_ne_nil _ hne]; exact hlast)] at hc
      cases hc

theorem scanNum_eq {q : NumState} (h : scanNum q s = some (t, rest)) : s = t ++ rest := by
  induction s generalizing q t with
  | nil =>
      simp only [scanNum, Option.ite_none_right_eq_some, Option.some.injEq, Prod.mk.injEq] at h
      obtain ⟨-, rfl, rfl⟩ := h
      rfl
  | cons c s ih =>
      simp only [scanNum] at h
      split at h
      · obtain ⟨⟨t', rest'⟩, ht, heq⟩ := Option.map_eq_some_iff.mp h
        obtain ⟨rfl, rfl⟩ := Prod.mk.inj heq
        exact congrArg (c :: ·) (ih ht)
      · simp only [Option.ite_none_right_eq_some, Option.some.injEq, Prod.mk.injEq] at h
        obtain ⟨-, rfl, rfl⟩ := h
        rfl

/-- By what a number, a string and an object are recognised. -/
def ReadBy (s rest : Text) : Json → Prop
  | .num x => parseNum s = some (.num x, rest)
  | .str us => ∃ t, s = '"' :: t ∧ scanStr .plain t = some (us, rest)
  | .obj _ => ∃ t, s = '{' :: t
  | _ => True

theorem parseValue_readBy (h : Json.parseValue (n + 1) s = some (j, rest)) :
    ReadBy (skipSpace s) rest j := by
  rw [Json.parseValue] at h
  split at h
  · cases h
  · next c t hs =>
      rw [hs]
      split_ifs at h with hobj harr hstr
      · split at h
        · obtain ⟨rfl, -⟩ := Prod.mk.inj (Option.some.inj h)
          exact ⟨t, hobj ▸ rfl⟩
        · obtain ⟨r, -, heq⟩ := Option.map_eq_some_iff.mp h
          obtain ⟨rfl, -⟩ := Prod.mk.inj heq
          exact ⟨t, hobj ▸ rfl⟩
      · split at h
        · obtain ⟨rfl, -⟩ := Prod.mk.inj (Option.some.inj h)
          trivial
        · obtain ⟨r, -, heq⟩ := Option.map_eq_some_iff.mp h
          obtain ⟨rfl, -⟩ := Prod.mk.inj heq
          trivial
      · obtain ⟨⟨us, r⟩, hscan, heq⟩ := Option.map_eq_some_iff.mp h
        obtain ⟨rfl, rfl⟩ := Prod.mk.inj heq
        exact ⟨t, hstr ▸ rfl, hscan⟩
      · obtain ⟨r, -, heq⟩ := Option.map_eq_some_iff.mp h
        obtain ⟨rfl, -⟩ := Prod.mk.inj heq
        trivial
      · obtain ⟨r, -, heq⟩ := Option.map_eq_some_iff.mp h
        obtain ⟨rfl, -⟩ := Prod.mk.inj heq
        trivial
      · obtain ⟨r, -, heq⟩ := Option.map_eq_some_iff.mp h
        obtain ⟨rfl, -⟩ := Prod.mk.inj heq
        trivial
      · obtain ⟨x, rfl, -⟩ := parseNum_eq_some h
        exact h

theorem skipSpace_eq_self (h : ∀ c ∈ s.head?, isSpace c = false) : skipSpace s = s := by
  cases s with
  | nil => rfl
  | cons c s => exact skipSpace_cons (h c rfl)

theorem Source.readBy (v : Source) : ReadBy v.text [] v.json := by
  have h := parseValue_readBy v.parseValue
  rwa [skipSpace_eq_self v.head] at h

theorem Source.text_num {x : NumLit} (hv : v.json = .num x) : v.text = x.text := by
  have h := v.readBy
  rw [hv] at h
  obtain ⟨y, hxy, hscan⟩ := parseNum_eq_some h
  obtain rfl := Json.num.inj hxy
  simpa using scanNum_eq hscan

/-- A value is read the same in front of what cannot continue it. -/
theorem Source.parseValue_append (v : Source) (hm : v.text.length < m) (hu : EndsNumber u) :
    Json.parseValue m (v.text ++ u) = some (v.json, u) := by
  cases hv : v.json with
  | num x =>
      obtain ⟨m, rfl⟩ := Nat.exists_eq_succ_of_ne_zero (Nat.ne_of_gt (Nat.zero_lt_of_lt hm))
      rw [v.text_num hv]
      exact parseValue_num x m hu
  | _ =>
      have h := (stable _).value v.parseValue (.inr (by rw [hv]; rfl)) m hm u
      rwa [hv] at h

/-- No object goes on where another is complete. -/
theorem parse_prefix_free (h : parse s = some (.obj ms)) (h' : parse (s ++ t) = some j)
    (hlast : ∀ c ∈ t.getLast?, isSpace c = false) : t = [] := by
  obtain ⟨rest, hv, -⟩ := parse_eq_some h
  obtain ⟨rest', hv', hrest'⟩ := parse_eq_some h'
  have hlong := (stable _).value hv (.inr rfl) ((s ++ t).length + 1) (by simp) t
  rw [hv', Option.some.injEq, Prod.mk.injEq] at hlong
  rw [hlong.2] at hrest'
  cases ht : t.getLast? with
  | none => exact List.getLast?_eq_none_iff.mp ht
  | some c =>
      have hc := skipSpace_eq_nil hrest' c (List.mem_append_right _ (List.mem_of_getLast? ht))
      rw [hlast c ht] at hc
      cases hc

end Values

/-! ## Strings -/

section Strings

variable {raw s t rest : Text} {us : Utf16} {c : Char} {q : StrState}

theorem next_plain {q' : StrState} (h : StrState.plain.next c = some (us, some q')) :
    c ≠ '"' ∧ (c = '\\' ∧ us = [] ∨ c ≠ '\\' ∧ us = units c ∧ q' = .plain) := by
  rw [StrState.next] at h
  split_ifs at h with hquote hslash
  · cases h
  · obtain ⟨rfl, -⟩ := Prod.mk.inj (Option.some.inj h)
    exact ⟨hquote, .inl ⟨hslash, rfl⟩⟩
  · obtain ⟨rfl, hq⟩ := Prod.mk.inj (Option.some.inj h)
    exact ⟨hquote, .inr ⟨hslash, rfl, (Option.some.inj hq).symm⟩⟩

/-- Only the quotation mark closes a string. -/
theorem next_closing (h : q.next c = some (us, none)) : c = '"' := by
  cases q with
  | plain =>
      rw [StrState.next] at h
      split_ifs at h with hquote
      · exact hquote
      · cases h
      · cases h
  | escape =>
      rw [StrState.next] at h
      split_ifs at h
      · cases h
      · obtain ⟨u, -, heq⟩ := Option.map_eq_some_iff.mp h
        cases heq
  | hex missing value =>
      obtain ⟨d, -, heq⟩ := Option.map_eq_some_iff.mp h
      split_ifs at heq <;> cases heq

theorem units_pos (c : Char) : 0 < (units c).length := by
  unfold units
  split <;> simp

/-- A character completes at most its own code units. -/
theorem next_length {q' : Option StrState} (h : q.next c = some (us, q')) :
    us.length ≤ (units c).length := by
  have hpos := units_pos c
  cases q with
  | plain =>
      rw [StrState.next] at h
      split_ifs at h
      · obtain ⟨rfl, -⟩ := Prod.mk.inj (Option.some.inj h)
        exact Nat.zero_le _
      · obtain ⟨rfl, -⟩ := Prod.mk.inj (Option.some.inj h)
        exact Nat.zero_le _
      · obtain ⟨rfl, -⟩ := Prod.mk.inj (Option.some.inj h)
        exact le_rfl
  | escape =>
      rw [StrState.next] at h
      split_ifs at h
      · obtain ⟨rfl, -⟩ := Prod.mk.inj (Option.some.inj h)
        exact Nat.zero_le _
      · obtain ⟨u, -, heq⟩ := Option.map_eq_some_iff.mp h
        obtain ⟨rfl, -⟩ := Prod.mk.inj heq
        exact hpos
  | hex missing value =>
      obtain ⟨d, -, heq⟩ := Option.map_eq_some_iff.mp h
      split_ifs at heq
      · obtain ⟨rfl, -⟩ := Prod.mk.inj heq
        exact hpos
      · obtain ⟨rfl, -⟩ := Prod.mk.inj heq
        exact Nat.zero_le _

/-- One character of a string that ends with the text. -/
theorem scanStr_cons_inv (h : scanStr q (c :: s) = some (us, [])) (hs : s ≠ []) :
    ∃ us₁ q' us₂, q.next c = some (us₁, some q') ∧ scanStr q' s = some (us₂, []) ∧
      us = us₁ ++ us₂ := by
  rw [scanStr] at h
  split at h
  · cases h
  · obtain ⟨-, rfl⟩ := Prod.mk.inj (Option.some.inj h)
    exact absurd rfl hs
  · next us₁ q' hnext =>
      obtain ⟨⟨us₂, rest⟩, hrest, heq⟩ := Option.map_eq_some_iff.mp h
      obtain ⟨rfl, rfl⟩ := Prod.mk.inj heq
      exact ⟨us₁, q', us₂, hnext, hrest, rfl⟩

theorem scanStr_closing (h : scanStr q ['"'] = some (us, [])) : us = [] := by
  cases q with
  | plain => exact (congrArg Prod.fst (Option.some.inj h)).symm
  | escape => cases h
  | hex missing value => cases h

/-- A string ends with its closing quote. -/
theorem scanStr_last (h : scanStr q s = some (us, [])) : ∃ raw, s = raw ++ ['"'] := by
  induction s generalizing q us with
  | nil => cases h
  | cons c s ih =>
      by_cases hs : s = []
      · subst hs
        rw [scanStr] at h
        split at h
        · cases h
        · next hnext => exact ⟨[], congrArg (· :: []) (next_closing hnext)⟩
        · obtain ⟨r, hr, -⟩ := Option.map_eq_some_iff.mp h
          cases hr
      · obtain ⟨us₁, q', us₂, -, hs, -⟩ := scanStr_cons_inv h hs
        obtain ⟨raw, rfl⟩ := ih hs
        exact ⟨c :: raw, rfl⟩

theorem append_quote_ne_nil : raw ++ ['"'] ≠ [] := by simp

/-- Only the quotation mark has its code unit. -/
theorem quote_mem_units (h : 0x22 ∈ units c) : c = '"' := by
  have hval := char_toNat c
  have hunit : ∀ {n : ℕ}, n < 0x10000 → (0x22 : UInt16) = UInt16.ofNat n → n = 0x22 := by
    intro n hn heq
    have := congrArg UInt16.toNat heq
    rw [UInt16.toNat_ofNat_of_lt' hn] at this
    exact this.symm
  unfold units at h
  split at h
  · next hc =>
      have hn := hunit hc (List.mem_singleton.mp h)
      rw [← Char.ofNat_toNat c, hn]
  · rcases List.mem_cons.mp h with h | h
    · have := hunit (by omega) h
      omega
    · have := hunit (by omega) (List.mem_singleton.mp h)
      omega

theorem quote_mem_flatMap (h : 0x22 ∈ s.flatMap units) : '"' ∈ s := by
  obtain ⟨c, hc, hmem⟩ := List.mem_flatMap.mp h
  exact quote_mem_units hmem ▸ hc

/-- Without a backslash a string is what it is written as. -/
theorem scanStr_unescaped (h : scanStr .plain (raw ++ ['"']) = some (us, [])) (hraw : '\\' ∉ raw) :
    '"' ∉ raw ∧ us = raw.flatMap units := by
  induction raw generalizing us with
  | nil => exact ⟨nofun, scanStr_closing h⟩
  | cons c raw ih =>
      obtain ⟨us₁, q', us₂, hnext, hrest, rfl⟩ := scanStr_cons_inv h append_quote_ne_nil
      obtain ⟨hquote, ⟨rfl, -⟩ | ⟨-, rfl, rfl⟩⟩ := next_plain hnext
      · exact absurd List.mem_cons_self hraw
      · obtain ⟨hnone, rfl⟩ := ih hrest fun hmem => hraw (List.mem_cons_of_mem _ hmem)
        refine ⟨fun hmem => ?_, rfl⟩
        rcases List.mem_cons.mp hmem with rfl | hmem
        · exact hquote rfl
        · exact hnone hmem

/-- A quotation mark inside a string is one of its characters. -/
theorem scanStr_quote_mem (h : scanStr q (raw ++ ['"']) = some (us, [])) (hraw : '"' ∈ raw) :
    0x22 ∈ us := by
  induction raw generalizing q us with
  | nil => cases hraw
  | cons c raw ih =>
      obtain ⟨us₁, q', us₂, hnext, hrest, rfl⟩ := scanStr_cons_inv h append_quote_ne_nil
      rcases List.mem_cons.mp hraw with rfl | hraw
      · cases q with
        | plain => cases hnext
        | escape =>
            obtain ⟨rfl, -⟩ := Prod.mk.inj (Option.some.inj hnext)
            exact List.mem_cons_self
        | hex missing value => cases hnext
      · exact List.mem_append_right _ (ih hrest hraw)

theorem scanStr_length (h : scanStr q (raw ++ ['"']) = some (us, [])) :
    us.length ≤ (raw.flatMap units).length := by
  induction raw generalizing q us with
  | nil => exact (scanStr_closing h) ▸ le_rfl
  | cons c raw ih =>
      obtain ⟨us₁, q', us₂, hnext, hrest, rfl⟩ := scanStr_cons_inv h append_quote_ne_nil
      have hfirst := next_length hnext
      have := ih hrest
      simp only [List.flatMap_cons, List.length_append]
      omega

/-- An escape takes more room than what it stands for. -/
theorem scanStr_length_lt (h : scanStr .plain (raw ++ ['"']) = some (us, [])) (hraw : '\\' ∈ raw) :
    us.length < (raw.flatMap units).length := by
  induction raw generalizing us with
  | nil => cases hraw
  | cons c raw ih =>
      obtain ⟨us₁, q', us₂, hnext, hrest, rfl⟩ := scanStr_cons_inv h append_quote_ne_nil
      simp only [List.flatMap_cons, List.length_append]
      obtain ⟨-, ⟨rfl, rfl⟩ | ⟨hslash, rfl, rfl⟩⟩ := next_plain hnext
      · have := scanStr_length hrest
        have := units_pos '\\'
        rw [List.length_nil]
        omega
      · have := ih hrest ((List.mem_cons.mp hraw).resolve_left (Ne.symm hslash))
        omega

/-- **What stands in front of the first quotation mark is the string, exactly if nothing
is escaped.** -/
theorem eq_flatMap_units_iff (h : scanStr .plain (raw ++ ['"']) = some (us, []))
    (ht : raw ++ '"' :: s = t ++ '"' :: rest) (hquote : '"' ∉ t) :
    t.flatMap units = us ↔ '\\' ∉ raw := by
  have hupTo : ∀ a b : Text, '"' ∉ a → (a ++ '"' :: b).takeWhile (· ≠ '"') = a := by
    intro a b ha
    rw [List.takeWhile_append_of_pos fun c hc => by simpa using fun heq : c = '"' => ha (heq ▸ hc)]
    simp
  have hsame : '"' ∉ raw → raw = t := fun hraw => by
    rw [← hupTo raw s hraw, ht, hupTo t rest hquote]
  constructor
  · rintro rfl hslash
    have hraw : '"' ∉ raw := fun hmem =>
      hquote (quote_mem_flatMap (scanStr_quote_mem h hmem))
    obtain rfl := hsame hraw
    exact (scanStr_length_lt h hslash).false
  · intro hslash
    obtain ⟨hraw, rfl⟩ := scanStr_unescaped h hslash
    rw [hsame hraw]

theorem Source.text_str {v : Source} (hv : v.json = .str us) :
    ∃ raw, v.text = '"' :: (raw ++ ['"']) ∧ scanStr .plain (raw ++ ['"']) = some (us, []) := by
  have h := v.readBy
  rw [hv] at h
  obtain ⟨t, htext, hscan⟩ := h
  obtain ⟨raw, rfl⟩ := scanStr_last hscan
  exact ⟨raw, htext, hscan⟩

/-- A string as it is written between the quotes. -/
def Source.string (raw : Text) (us : Utf16) (h : scanStr .plain (raw ++ ['"']) = some (us, [])) :
    Source where
  text := '"' :: (raw ++ ['"'])
  json := .str us
  reads := by
    rw [parse, Json.parseValue, skipSpace_cons rfl]
    dsimp only
    rw [if_neg (by decide), if_neg (by decide), if_pos rfl, h]
    rfl
  head c hc := by
    obtain rfl := Option.some.inj hc
    rfl
  last c hc := by
    rw [← List.cons_append, List.getLast?_concat, Option.mem_some] at hc
    subst hc
    rfl

end Strings

/-! ## Objects -/

theorem Item.length_text (i : Item) : i.member.value.text.length + 3 ≤ i.text.length := by
  simp only [Item.text, Member.text, Member.keyText, List.length_append, List.length_cons]
  omega

/-- One member, up to what follows its value. -/
theorem parseMembers_item (i : Item) {n : ℕ} {u : Text} (hn : i.text.length ≤ n + 1)
    (hu : EndsNumber (i.after.val ++ u)) :
    parseMembers (n + 1) (i.text ++ u) =
      match expect ',' u with
      | some s => (parseMembers n s).map fun r => (i.member.entry :: r.1, r.2)
      | none => (expect '}' u).map fun rest => ([i.member.entry], rest) := by
  obtain ⟨before, ⟨key, name, hname, beforeColon, afterColon, value⟩, after⟩ := i
  have hlen := Item.length_text ⟨before, ⟨key, name, hname, beforeColon, afterColon, value⟩, after⟩
  have hkey : ∀ s, scanStr .plain (key ++ '"' :: s) = some (name, s) := by
    intro s
    have h := scanStr_stable (t := s) hname
    rwa [List.append_assoc, List.singleton_append, List.nil_append] at h
  simp only [Item.text, Member.text, Member.keyText, List.append_assoc, List.cons_append]
  rw [parseMembers, expect_append before.2, expect_cons rfl, if_pos rfl, Option.bind_some, hkey,
    Option.bind_some, expect_append beforeColon.2, expect_cons rfl, if_pos rfl, Option.bind_some,
    parseValue_append afterColon.2, value.parseValue_append (by dsimp only at hlen; omega) hu,
    Option.bind_some]
  simp only [expect_append after.2]
  rfl

/-- Members are read one by one. -/
theorem parseMembers_items : ∀ (i : Item) (is : List Item) (n : ℕ) (t : Text),
    (i.text ++ itemsText ',' is).length ≤ n →
      parseMembers n (i.text ++ (itemsText ',' is ++ '}' :: t)) =
        some ((i :: is).map fun i => i.member.entry, t)
  | i, is, 0, t, hn => by
      have := i.length_text
      rw [List.length_append] at hn
      omega
  | i, [], n + 1, t, hn => by
      rw [itemsText, List.append_nil] at hn
      rw [itemsText, List.nil_append,
        parseMembers_item i hn (endsNumber_append i.after.2 (by decide))]
      rfl
  | i, i' :: is, n + 1, t, hn => by
      have hlen := i.length_text
      simp only [itemsText, List.length_append, List.length_cons] at hn
      have ih := parseMembers_items i' is n t (by rw [List.length_append]; omega)
      rw [itemsText, List.cons_append, List.append_assoc,
        parseMembers_item i (by omega) (endsNumber_append i.after.2 (by decide))]
      simp only [expect_cons (show isSpace ',' = false from rfl), if_true, ih]
      rfl

/-- **The pieces put together are the object they stand for.** -/
theorem ObjectSource.parse_text (o : ObjectSource) : parse o.text = some o.json := by
  obtain ⟨lead, items, trail, hne⟩ := o
  cases items with
  | nil => exact absurd rfl hne
  | cons i is =>
      have hopen : ∀ u, expect '}' (i.text ++ u) = none := by
        intro u
        simp only [Item.text, Member.text, Member.keyText, List.append_assoc, List.cons_append]
        rw [expect_append i.before.2]
        rfl
      have hmembers := fun n => parseMembers_items i is n trail.val
      simp only [ObjectSource.text, itemsText, parse, List.cons_append, List.append_assoc]
      rw [parseValue_append lead.2, parseValue, skipSpace_cons rfl]
      simp only [if_true, hopen]
      rw [hmembers _ (by simp only [List.length_append, List.length_cons]; omega)]
      exact if_pos (List.dropWhile_eq_nil_iff.mpr trail.2)

/-- An object without white space around it is a value. -/
def ObjectSource.source (o : ObjectSource) (hlead : o.lead.val = []) (htrail : o.trail.val = []) :
    Source where
  text := o.text
  json := o.json
  reads := o.parse_text
  head c hc := by
    obtain ⟨i, is, hitems⟩ := List.exists_cons_of_ne_nil o.nonempty
    simp only [ObjectSource.text, hlead, hitems, itemsText, List.nil_append, List.cons_append,
      List.head?_cons, Option.mem_some] at hc
    subst hc
    rfl
  last c hc := by
    simp only [ObjectSource.text, htrail, hlead, List.nil_append, List.getLast?_concat,
      Option.mem_some] at hc
    subst hc
    rfl

end Json

end Bartok.Foundation
