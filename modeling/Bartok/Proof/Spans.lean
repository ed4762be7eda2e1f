import Bartok.Proof.Presentation

/-!
# The disclosure of the spans

The presentation is made of spans, and the oracle reads a text. The spans of a response
whose body is an object are computed from the pieces of the body, and the walk over them
reveals the pieces that `JsonResponse.disclose` does. So what the oracle reads back is read
from what `present.rs` discloses.
-/

namespace Bartok.Proof

open Foundation Text Json

/-! ## Where the members stand -/

/-- Behind its quotation mark a member goes on with its key. -/
theorem encodeUtf8_member (m : Member) :
    ∃ rest, encodeUtf8 m.text = 0x22 :: (encodeUtf8 m.key ++ rest) := by
  refine ⟨encodeUtf8 ('"' :: (m.beforeColon.val ++ ':' :: (m.afterColon.val ++ m.value.text))), ?_⟩
  rw [Member.text, Member.keyText]
  simp [encodeUtf8, encodeChar_ascii]

/-- A member that begins at `k`, as the parser marks it. -/
def memberFrom (k : ℕ) (m : Member) : KeyValue where
  span := ⟨k, k + (encodeUtf8 m.text).length⟩
  key := ⟨k + 1, k + 1 + (encodeUtf8 m.key).length⟩
  key_within := by
    intro i hi
    obtain ⟨rest, hrest⟩ := encodeUtf8_member m
    simp only [Span.mem_positions, hrest, List.length_cons, List.length_append] at hi ⊢
    omega

/-- The members of items from `k` on. -/
def keyValues : ℕ → Char → List Item → List KeyValue
  | _, _, [] => []
  | k, sep, i :: is =>
      let start := k + (encodeUtf8 (sep :: i.before.val)).length
      let stop := start + (encodeUtf8 i.member.text).length
      memberFrom start i.member :: keyValues (stop + (encodeUtf8 i.after.val).length) ',' is

namespace JsonResponse

variable (r : JsonResponse)

def bytes : List UInt8 := r.head ++ encodeUtf8 r.body.text

def keyValues : List KeyValue :=
  Proof.keyValues (r.head.length + (encodeUtf8 r.body.lead.val).length) '{' r.body.items

/-- The spans are those of the response: what is outside the data makes up its head with the
headers, and the members of the body stand where they are written. -/
structure SpansOf (m : HttpMessage) : Prop where
  head : ∀ i, (i ∈ m.withoutData ∨ ∃ h ∈ m.headers, i ∈ h.span.positions) ↔ i < r.head.length
  members : members m.body = r.keyValues

/-- The spans without headers. -/
def message : HttpMessage where
  span := ⟨0, r.bytes.length⟩
  line := ⟨0, r.head.length⟩
  headers := []
  body := some ⟨⟨r.head.length, r.bytes.length⟩, .json (.object r.keyValues)⟩
  withoutData := Finset.Ico 0 r.head.length
  withoutData_within := Finset.Ico_subset_Ico_right (by simp [bytes])
  hides_headers := nofun
  hides_body := by
    rintro _ ⟨⟩
    exact Finset.Ico_disjoint_Ico_consecutive 0 r.head.length r.bytes.length

theorem spansOf_message : r.SpansOf r.message :=
  ⟨fun i => by simp [message], rfl⟩

end JsonResponse

section Reading

variable {crates : Crates} {m : HttpMessage} {r : JsonResponse} {l : List Item} {b : List UInt8}
  {s : Finset ℕ} {i k : ℕ}

theorem mem_revealRecv : i ∈ allOf (revealRecv b m) ↔
    (i ∈ m.withoutData ∨ ∃ h ∈ m.headers, i ∈ h.span.positions) ∨
      ∃ path ∈ paths, ∃ kv, memberAt b (members m.body) path = some kv ∧ i ∈ kv.span.positions := by
  rw [mem_allOf, revealRecv]
  simp only [List.mem_cons, List.mem_append, List.mem_map, List.mem_filterMap]
  constructor
  · rintro ⟨s, rfl | ⟨h, hh, rfl⟩ | ⟨kv, ⟨path, hpath, hkv⟩, rfl⟩, hi⟩
    · exact .inl (.inl hi)
    · exact .inl (.inr ⟨h, hh, hi⟩)
    · exact .inr ⟨path, hpath, kv, hkv, hi⟩
  · rintro ((hi | ⟨h, hh, hi⟩) | ⟨path, hpath, kv, hkv, hi⟩)
    · exact ⟨_, .inl rfl, hi⟩
    · exact ⟨_, .inr (.inl ⟨h, hh, rfl⟩), hi⟩
    · exact ⟨_, .inr (.inr ⟨kv, ⟨path, hpath, hkv⟩, rfl⟩), hi⟩

/-- What stands at the key is the key of the member. -/
theorem memberFrom_key (pre post : List UInt8) (m : Member) :
    (memberFrom pre.length m).key.text (pre ++ (encodeUtf8 m.text ++ post)) = encodeUtf8 m.key := by
  obtain ⟨rest, hrest⟩ := encodeUtf8_member m
  have htext := Span.text_append (pre ++ [0x22]) (encodeUtf8 m.key) (rest ++ post)
  rw [List.length_append, List.length_singleton] at htext
  rw [hrest]
  simpa [memberFrom] using htext

/-- The first member with a key is that of the first item with it. -/
theorem memberAt_keyValues (path : Text) (post : List UInt8) : ∀ (is : List Item)
    (pre : List UInt8) (sep : Char), memberAt (pre ++ (encodeUtf8 (itemsText sep is) ++ post))
      (keyValues pre.length sep is) path = (is.findIdx? fun i => i.member.key = path).bind
        fun n => (keyValues pre.length sep is)[n]? := by
  intro is
  induction is with
  | nil =>
      intro pre sep
      rfl
  | cons i is ih =>
      intro pre sep
      have hstart := memberFrom_key (pre ++ encodeUtf8 (sep :: i.before.val))
        (encodeUtf8 i.after.val ++ (encodeUtf8 (itemsText ',' is) ++ post)) i.member
      have hrest := ih (pre ++ encodeUtf8 (sep :: i.before.val) ++ encodeUtf8 i.member.text ++
        encodeUtf8 i.after.val) ','
      have htext : encodeUtf8 (itemsText sep (i :: is)) = encodeUtf8 (sep :: i.before.val) ++
          (encodeUtf8 i.member.text ++ (encodeUtf8 i.after.val ++
            encodeUtf8 (itemsText ',' is))) := by
        simp [itemsText, Item.text, encodeUtf8]
      simp only [List.length_append, List.append_assoc] at hstart hrest
      rw [keyValues, htext]
      simp only [memberAt, List.append_assoc, List.find?_cons, List.findIdx?_cons] at hrest ⊢
      rw [hstart]
      by_cases hkey : i.member.key = path
      · simp [hkey]
      · have hne : (encodeUtf8 i.member.key == encodeUtf8 path) = false := by
          simpa [encodeUtf8_injective.eq_iff] using hkey
        rw [hne]
        simp only [hkey, decide_false]
        simp only [← Nat.add_assoc] at hrest
        rw [hrest]
        simp [Option.bind_map]

theorem exists_getElem?_cons {α : Type*} {P : ℕ → α → Prop} {x : α} {xs : List α} :
    (∃ n y, (x :: xs)[n]? = some y ∧ P n y) ↔ P 0 x ∨ ∃ n y, xs[n]? = some y ∧ P (n + 1) y := by
  constructor
  · rintro ⟨n, y, hy, hP⟩
    cases n with
    | zero =>
        obtain rfl := Option.some.inj hy
        exact .inl hP
    | succ n => exact .inr ⟨n, y, hy, hP⟩
  · rintro (hP | ⟨n, y, hy, hP⟩)
    · exact ⟨0, x, rfl, hP⟩
    · exact ⟨n + 1, y, hy, hP⟩

/-- The members stand behind the position that they are counted from. -/
theorem le_of_keyValues {n : ℕ} {kv : KeyValue} {sep : Char} {is : List Item}
    (h : (keyValues k sep is)[n]? = some kv) (hi : i ∈ kv.span.positions) : k ≤ i := by
  induction is generalizing n k sep with
  | nil => cases h
  | cons u is ih =>
      cases n with
      | zero =>
          obtain rfl := Option.some.inj h
          exact (Nat.le_add_right k _).trans (Span.mem_positions.mp hi).1
      | succ n =>
          have := ih h
          omega

/-- The bytes of a piece, and whether they are revealed. -/
theorem segments_shown {revealed : List ℕ} (t : Text) : ∀ (is : List Item) (k : ℕ)
    (sep : Char) (j : ℕ), (∀ i, k ≤ i → (i ∈ s ↔ ∃ n kv, (keyValues k sep is)[n]? = some kv ∧
      j + n ∈ revealed ∧ i ∈ kv.span.positions)) →
    (JsonResponse.segments revealed j sep is ++ [(t, false)]).flatMap
        (fun t => (encodeUtf8 t.1).map (·, t.2)) =
      shownFrom s k (encodeUtf8 (itemsText sep is ++ t)) := by
  intro is
  induction is with
  | nil =>
      intro k sep j h
      have hnone : ∀ i, k ≤ i → i < k + (encodeUtf8 t).length → (i ∈ s ↔ false = true) := by
        intro i hi _
        rw [h i hi]
        simp [keyValues]
      simpa [JsonResponse.segments, itemsText] using (shownFrom_all hnone).symm
  | cons u is ih =>
      intro k sep j h
      simp only [keyValues, exists_getElem?_cons] at h
      set start := k + (encodeUtf8 (sep :: u.before.val)).length with hstart
      set stop := start + (encodeUtf8 u.member.text).length with hstop
      set next := stop + (encodeUtf8 u.after.val).length with hnext
      have hmember : ∀ i, i ∈ (memberFrom start u.member).span.positions ↔ start ≤ i ∧ i < stop :=
        fun i => Span.mem_positions
      -- in front of the next item only this member is shown
      have hitem := shownFrom_middle (s := s) (k := k) (a := encodeUtf8 (sep :: u.before.val))
        (b := encodeUtf8 u.member.text) (c := encodeUtf8 u.after.val) fun i hi hlt => by
          rw [← hstart, ← hstop, h i hi, hmember, Nat.add_zero, ← decide_eq_true_iff (p := j ∈ revealed)]
          apply or_iff_left
          rintro ⟨n, kv, hkv, -, hmem⟩
          exact absurd (le_of_keyValues hkv hmem) (Nat.not_le_of_lt hlt)
      have hrest := ih next ',' (j + 1) (by
        intro i hi
        rw [h i (by omega), hmember]
        simp only [Nat.add_assoc, Nat.add_comm 1]
        apply or_iff_right
        rintro ⟨-, -, hlt⟩
        omega)
      have hsplit : encodeUtf8 (itemsText sep (u :: is) ++ t) =
          (encodeUtf8 (sep :: u.before.val) ++ (encodeUtf8 u.member.text ++
            encodeUtf8 u.after.val)) ++ encodeUtf8 (itemsText ',' is ++ t) := by
        simp [itemsText, Item.text, encodeUtf8]
      have hlen : k + (encodeUtf8 (sep :: u.before.val) ++ (encodeUtf8 u.member.text ++
          encodeUtf8 u.after.val)).length = next := by
        rw [List.length_append, List.length_append]
        omega
      rw [hsplit, shownFrom_append, hitem, hlen, ← hrest]
      simp [JsonResponse.segments]

/-- The walk finds the member of the first item whose key is written so. -/
theorem memberAt_spans (h : r.SpansOf m) (path : Text) :
    memberAt r.bytes (members m.body) path =
      (r.body.items.findIdx? fun i => i.member.key = path).bind fun n => r.keyValues[n]? := by
  have hall := memberAt_keyValues path (encodeUtf8 ('}' :: r.body.trail.val)) r.body.items
    (r.head ++ encodeUtf8 r.body.lead.val) '{'
  have hbytes : r.bytes = (r.head ++ encodeUtf8 r.body.lead.val) ++
      (encodeUtf8 (itemsText '{' r.body.items) ++ encodeUtf8 ('}' :: r.body.trail.val)) := by
    simp [JsonResponse.bytes, ObjectSource.text, encodeUtf8_append]
  rw [List.length_append, ← hbytes] at hall
  rw [h.members]
  exact hall

/-- What it reveals: the head, and the members of the items that `disclose` reveals. -/
theorem mem_revealed_spans (h : r.SpansOf m) :
    i ∈ allOf (revealRecv r.bytes m) ↔ i < r.head.length ∨ ∃ n kv,
      r.keyValues[n]? = some kv ∧ n ∈ r.revealed ∧ i ∈ kv.span.positions := by
  rw [mem_revealRecv, h.head i]
  simp only [memberAt_spans h, JsonResponse.revealed, List.mem_filterMap, Option.bind_eq_some_iff]
  apply or_congr Iff.rfl
  constructor
  · rintro ⟨path, hpath, kv, ⟨n, hn, hkv⟩, hi⟩
    exact ⟨n, kv, hkv, ⟨path, hpath, hn⟩, hi⟩
  · rintro ⟨n, kv, hkv, ⟨path, hpath, hn⟩, hi⟩
    exact ⟨path, hpath, kv, ⟨n, hn, hkv⟩, hi⟩

/-- **The walk over the spans discloses what the oracle reads.** -/
theorem disclose_eq (h : r.SpansOf m) :
    r.disclose.received = shownFrom (allOf (revealRecv r.bytes m)) 0 r.bytes := by
  set s := allOf (revealRecv r.bytes m)
  set start := r.head.length + (encodeUtf8 r.body.lead.val).length with hstart
  have hhead : shownFrom s 0 r.head = r.head.map (·, true) := by
    apply shownFrom_all
    intro i _ hi
    rw [mem_revealed_spans h]
    simp only [iff_true]
    exact .inl (by omega)
  have hlead : shownFrom s r.head.length (encodeUtf8 r.body.lead.val) =
      (encodeUtf8 r.body.lead.val).map (·, false) := by
    apply shownFrom_all
    intro i hi hlt
    rw [mem_revealed_spans h]
    simp only [Bool.false_eq_true, iff_false, not_or]
    refine ⟨Nat.not_lt_of_le hi, ?_⟩
    rintro ⟨n, kv, hkv, -, hmem⟩
    have := le_of_keyValues hkv hmem
    omega
  have hitems := segments_shown (s := s) ('}' :: r.body.trail.val) r.body.items start '{' 0 (by
    intro i hi
    rw [mem_revealed_spans h]
    simp only [Nat.zero_add]
    exact or_iff_right (by omega))
  have hbytes : r.bytes = r.head ++ (encodeUtf8 r.body.lead.val ++
      encodeUtf8 (itemsText '{' r.body.items ++ '}' :: r.body.trail.val)) := by
    simp [JsonResponse.bytes, ObjectSource.text, encodeUtf8_append]
  rw [hbytes, shownFrom_append, shownFrom_append, Nat.zero_add, ← hstart, hhead, hlead, ← hitems]
  simp [JsonResponse.disclose, JsonResponse.bodySegments]

/-- **The members are read back, exactly if the scans stop at them**, from what the walk over
the spans of the response discloses. -/
theorem read_back_iff {k : List Item} {u m : Item} {us : List (Utf16 × Json)} {total : ℤ}
    {model : Utf16} (hreads : crates.ReadsUsage)
    (husage : r.HasMember (utf16 "usage") l u) (hobj : u.member.value.json = .obj us)
    (htokens : HoldsTokens us total) (hmodel : r.HasMember (utf16 "model") k m)
    (hstr : m.member.value.json = .str model) :
    (∀ message, r.SpansOf message →
      r.disclose.received = shownFrom (allOf (revealRecv r.bytes message)) 0 r.bytes) ∧
    (ReadBack crates r.disclose.recv total model ↔
      (UsageClear r l u ∧ TokensFit us total ∨ UsageDecoy r.shown (r.valueAt l u) total) ∧
        (ModelClear r k m ∨ ModelDecoy r.shown (r.colonAt k m) model)) := by
  obtain ⟨l', hu⟩ := husage.split
  obtain ⟨k', hm⟩ := hmodel.split
  refine ⟨fun message hspans => disclose_eq hspans, ?_⟩
  rw [ReadBack, recv_disclose, usage_read_iff hreads hu hobj htokens, model_read_iff hm hstr]

end Reading

/-! An answer with a member that stays hidden, its model written in two ways. -/

def demoItem (key : String) (names : scanStr .plain (key.toList ++ ['"']) = some (utf16 key, []))
    (value : Source) : Item :=
  ⟨.none, ⟨key.toList, utf16 key, names, .none, .none, value⟩, .none⟩

def demoTokens : NumLit := ⟨"120".toList, by decide⟩

def demoCount : Item := demoItem "total_tokens" (by decide) {
  text := demoTokens.text
  json := .num demoTokens
  reads := parse_print (L := compact) (.num demoTokens)
  head := by rintro c ⟨⟩; rfl
  last := by rintro c ⟨⟩; rfl }

def demoUsageItem : Item :=
  demoItem "usage" (by decide)
    (ObjectSource.source ⟨.none, [demoCount], .none, by simp⟩ rfl rfl)

def demoChoices : Item := demoItem "choices" (by decide) {
  text := "[]".toList
  json := .arr []
  reads := parse_print (L := compact) (.arr [])
  head := by rintro c ⟨⟩; rfl
  last := by rintro c ⟨⟩; rfl }

def demoModel : Utf16 := utf16 "openai/gpt-oss-20b:free"

def plainModel : Item :=
  demoItem "model" (by decide)
    (Source.string "openai/gpt-oss-20b:free".toList demoModel (by decide))

/-- With the escape for a slash. -/
def escapedModel : Item :=
  demoItem "model" (by decide)
    (Source.string "openai\\/gpt-oss-20b:free".toList demoModel (by decide))

def demoAnswer (model : Item) : JsonResponse where
  head := encodeUtf8 "HTTP/1.1 200 OK\r\n\r\n".toList
  ends := ⟨encodeUtf8 "HTTP/1.1 200 OK".toList, by decide⟩
  body := ⟨.none, [model, demoChoices, demoUsageItem], .none, by simp⟩

def parsingCrates : Crates := { demoCrates with usage := fun s => (parse s).bind usageOf }

theorem parsingCrates_reads : parsingCrates.ReadsUsage := fun _ => rfl

theorem demoTokens_held : HoldsTokens [(utf16 "total_tokens", .num demoTokens)] 120 :=
  ⟨demoTokens, List.mem_singleton.mpr rfl, by decide⟩

theorem demoTokens_fit : TokensFit [(utf16 "total_tokens", .num demoTokens)] 120 where
  names m hm := by
    rw [List.mem_singleton.mp hm]
    decide
  once := by decide
  unsigned x hx := by
    simp only [List.mem_singleton, Prod.mk.injEq, Json.num.injEq, true_and] at hx
    rw [hx]
    decide
  size := by decide

theorem read_back_demo : ReadBack parsingCrates (demoAnswer plainModel).disclose.recv 120 demoModel :=
  (read_back_iff parsingCrates_reads (l := [plainModel, demoChoices]) (u := demoUsageItem)
    (k := []) (m := plainModel) ⟨rfl, [], rfl⟩ rfl demoTokens_held
    ⟨rfl, [demoChoices, demoUsageItem], rfl⟩ rfl).2.mpr
    ⟨.inl ⟨⟨by decide, by decide, by decide⟩, demoTokens_fit⟩,
      .inl ⟨by decide, by decide, by decide⟩⟩

/-- The backslash of the escape is read as a part of the model. -/
theorem model_not_decoded : ¬ ∀ (crates : Crates) (r : JsonResponse) (l k : List Item) (u m : Item)
    (us : List (Utf16 × Json)) (total : ℤ) (model : Utf16), crates.ReadsUsage →
      r.HasMember (utf16 "usage") l u → u.member.value.json = .obj us → HoldsTokens us total →
        r.HasMember (utf16 "model") k m → m.member.value.json = .str model →
          ReadBack crates r.disclose.recv total model := by
  intro h
  obtain ⟨-, hmodel⟩ := h parsingCrates (demoAnswer escapedModel) [escapedModel, demoChoices] []
    demoUsageItem escapedModel _ 120 demoModel parsingCrates_reads ⟨rfl, [], rfl⟩ rfl demoTokens_held
    ⟨rfl, [demoChoices, demoUsageItem], rfl⟩ rfl
  rw [recv_disclose] at hmodel
  revert hmodel
  decide

end Bartok.Proof
