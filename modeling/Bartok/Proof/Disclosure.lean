import Bartok.Foundation.JsonPieces
import Bartok.Foundation.JsonValue
import Bartok.Foundation.Scan
import Bartok.Proof.Oracle

/-!
# Reading the disclosed text back

`present.rs` finds `id`, `model` and `usage` in the tree of the body and discloses their
text, and the whole head of the response. The oracle has only the text, with an `X` for
each byte that is hidden, and scans it: for the first `"usage"`, the next `{` and its
closing brace, and for the first `"model"`, the next colon and what stands in quotes.
-/

namespace Bartok.Proof

open Foundation Text Json

/-! ## The disclosure -/

/-- A response with a JSON object as its body. -/
structure JsonResponse where
  /-- The status line and the headers. -/
  head : List UInt8
  /-- An empty line ends them. -/
  ends : ∃ lines, head = lines ++ [0x0D, 0x0A, 0x0D, 0x0A]
  body : ObjectSource

/-- `["id", "model", "usage"]`. -/
def paths : List Text := ["id".toList, "model".toList, "usage".toList]

namespace JsonResponse

variable (r : JsonResponse)

/-- The positions of the members that are revealed: for each path the first whose key is
written so. -/
def revealed : List ℕ := paths.filterMap fun path =>
  r.body.items.findIdx? fun i => i.member.key = path

/-- The text of the items in pieces, and which of them are revealed. -/
def segments (revealed : List ℕ) : ℕ → Char → List Item → List (Text × Bool)
  | _, _, [] => []
  | k, sep, i :: is =>
      (sep :: i.before.val, false) :: (i.member.text, decide (k ∈ revealed)) ::
        (i.after.val, false) :: segments revealed (k + 1) ',' is

def bodySegments : List (Text × Bool) :=
  (r.body.lead.val, false) :: (segments r.revealed 0 '{' r.body.items ++
    [('}' :: r.body.trail.val, false)])

/-- The received bytes as the presentation discloses them. -/
def disclose : PartialTranscript where
  received := r.head.map (·, true) ++
    r.bodySegments.flatMap fun t => (encodeUtf8 t.1).map (·, t.2)

end JsonResponse

section Wire

variable {head : List UInt8} {body : Text} {ms : List (Utf16 × Json)}

/-- Every response whose body is an object with members is one of these. -/
theorem JsonResponse.of_parse (hends : ∃ lines, head = lines ++ [0x0D, 0x0A, 0x0D, 0x0A])
    (h : parse body = some (.obj ms)) (hms : ms ≠ []) :
    ∃ r : JsonResponse, r.head = head ∧ r.body.text = body ∧ r.body.json = .obj ms := by
  obtain ⟨o, htext, hjson⟩ := ObjectSource.of_parse h hms
  exact ⟨⟨head, hends, o⟩, rfl, htext, hjson⟩

end Wire

/-! ## What the oracle sees of it -/

/-- A revealed piece, or an `X` for each of its bytes. -/
def shownPiece (t : Text × Bool) : Text :=
  if t.2 then t.1 else List.replicate (encodeUtf8 t.1).length 'X'

namespace JsonResponse

variable (r : JsonResponse)

def shown : Text := fromUtf8Lossy r.head ++ r.bodySegments.flatMap shownPiece

/-- What is shown in front of the item `u`, when the items `l` come before it. -/
def textBefore (l : List Item) (u : Item) : Text :=
  fromUtf8Lossy r.head ++ (shownPiece (r.body.lead.val, false) ++
    ((segments r.revealed 0 '{' l).flatMap shownPiece ++
      shownPiece ((if l = [] then '{' else ',') :: u.before.val, false)))

/-- In front of the colon of the item, if it is revealed. -/
def colonAt (l : List Item) (u : Item) : Text := r.textBefore l u ++ u.member.keyText

/-- In front of its value. -/
def valueAt (l : List Item) (u : Item) : Text :=
  r.colonAt l u ++ ':' :: u.member.afterColon.val

end JsonResponse

section Shown

variable {r : JsonResponse} {l l' : List Item} {u : Item} {pre t : Text}

theorem encodeUtf8_replicate (n : ℕ) :
    encodeUtf8 (List.replicate n 'X') = List.replicate n 0x58 := by
  induction n with
  | zero => rfl
  | succ n ih =>
      rw [List.replicate_succ, encodeUtf8, List.flatMap_cons, ← encodeUtf8, ih]
      rfl

theorem masked_piece (t : Text × Bool) :
    ((encodeUtf8 t.1).map (·, t.2)).map (fun b => if b.2 then b.1 else 0x58) =
      encodeUtf8 (shownPiece t) := by
  obtain ⟨t, revealed⟩ := t
  cases revealed with
  | true => simp [shownPiece, Function.comp_def]
  | false => simp [shownPiece, encodeUtf8_replicate, Function.comp_def, List.map_const']

/-- The oracle reads the shown text. -/
theorem recv_disclose : r.disclose.recv = r.shown := by
  have hmasked : r.disclose.masked 0x58 =
      r.head ++ encodeUtf8 (r.bodySegments.flatMap shownPiece) := by
    rw [PartialTranscript.masked, JsonResponse.disclose, List.map_append, List.map_map,
      List.map_flatMap]
    simp only [masked_piece]
    rw [encodeUtf8, List.flatMap_assoc]
    simp [Function.comp_def, encodeUtf8]
  obtain ⟨lines, hlines⟩ := r.ends
  have hsplit : ∀ bytes, r.head ++ bytes = (lines ++ [0x0D, 0x0A, 0x0D]) ++ 0x0A :: bytes := by
    simp [hlines]
  rw [PartialTranscript.recv, hmasked, JsonResponse.shown, hsplit, fromUtf8Lossy,
    utf8Decode_append (by decide) _ aboveAscii_none, ← hsplit, List.append_nil, ← fromUtf8Lossy,
    ← fromUtf8Lossy, fromUtf8Lossy_encodeUtf8]

theorem segments_append (revealed : List ℕ) (u : Item) (l' : List Item) :
    ∀ (l : List Item) (k : ℕ) (sep : Char),
      JsonResponse.segments revealed k sep (l ++ u :: l') =
        JsonResponse.segments revealed k sep l ++
          ((if l = [] then sep else ',') :: u.before.val, false) ::
            (u.member.text, decide (k + l.length ∈ revealed)) :: (u.after.val, false) ::
              JsonResponse.segments revealed (k + l.length + 1) ',' l'
  | [], k, sep => by simp [JsonResponse.segments]
  | i :: l, k, sep => by
      rw [List.cons_append, JsonResponse.segments, segments_append revealed u l' l]
      have hlen : k + 1 + l.length = k + (i :: l).length := by
        rw [List.length_cons]
        omega
      simp [JsonResponse.segments, hlen]

theorem shown_eq (h : r.body.items = l ++ u :: l') :
    ∃ after, r.shown = r.textBefore l u ++
      (shownPiece (u.member.text, decide (l.length ∈ r.revealed)) ++ after) := by
  simp only [JsonResponse.shown, JsonResponse.bodySegments, JsonResponse.textBefore, h,
    segments_append, List.flatMap_cons, List.flatMap_append, List.append_assoc, Nat.zero_add]
  exact ⟨_, rfl⟩

end Shown

/-! ## Where the scans stop -/

/-- The braces, those in strings included, close where the text ends. -/
def Nested (o : Text) : Prop := ∃ t, o = '{' :: t ∧ Closes '{' '}' 1 t

/-- `json_object_fragment` passes `pre` and returns `o`. -/
structure FragmentAt (s key pre o : Text) : Prop where
  shown : ∃ post, s = pre ++ (o ++ post)
  clear : Clear (quoted key) '{' pre
  nested : Nested o

/-- `json_string` passes `pre` and returns `t`. -/
structure StringAt (s key pre t : Text) : Prop where
  shown : ∃ pad post, (∀ c ∈ pad, isWhitespace c = true) ∧
    s = pre ++ ':' :: (pad ++ '"' :: (t ++ '"' :: post))
  clear : Clear (quoted key) ':' pre
  ends : '"' ∉ t

section Scans

variable {s t o key pre : Text} {c : Char} {d : ℕ}

theorem dropWhile_ne_cons {x : Char} (h : s.dropWhile (· ≠ c) = x :: t) : x = c := by
  induction s with
  | nil => cases h
  | cons y s ih =>
      by_cases hy : y = c
      · rw [List.dropWhile_cons_of_neg (by simpa using hy)] at h
        exact (List.cons.inj h).1.symm.trans hy
      · rw [List.dropWhile_cons_of_pos (by simpa using hy)] at h
        exact ih h

/-- The counter finds the brace that closes. -/
theorem balanced_eq_some (hd : 0 < d) :
    balanced d s = some o ↔ (∃ post, s = o ++ post) ∧ Closes '{' '}' d o := by
  induction s generalizing d o with
  | nil =>
      simp only [balanced, reduceCtorEq, false_iff, not_and, forall_exists_index]
      rintro post h hclose
      obtain ⟨rfl, -⟩ := List.append_eq_nil_iff.mp h.symm
      exact hd.ne' (closes_nil.mp hclose)
  | cons c s ih =>
      -- the first character of the fragment is `c`, and the rest is scanned one
      -- character deeper
      have hnil : ∀ {o : Text}, Closes '{' '}' d o → o ≠ [] := by
        rintro o hclose rfl
        exact hd.ne' (closes_nil.mp hclose)
      have hcons : (∃ post, c :: s = o ++ post) ∧ Closes '{' '}' d o ↔
          ∃ o', o = c :: o' ∧ (∃ post, s = o' ++ post) ∧
            Closes '{' '}' (deeper '{' '}' d c) o' := by
        constructor
        · rintro ⟨⟨post, h⟩, hclose⟩
          cases o with
          | nil => exact absurd rfl (hnil hclose)
          | cons x o' =>
              obtain ⟨rfl, hs⟩ := List.cons.inj h
              exact ⟨o', rfl, ⟨post, hs⟩, ((closes_cons (by decide)).mp hclose).2⟩
        · rintro ⟨o', rfl, ⟨post, rfl⟩, hclose⟩
          exact ⟨⟨post, rfl⟩, (closes_cons (by decide)).mpr ⟨hd, hclose⟩⟩
      have hgo : ∀ {d'}, 0 < d' → deeper '{' '}' d c = d' →
          ((balanced d' s).map (c :: ·) = some o ↔
            (∃ post, c :: s = o ++ post) ∧ Closes '{' '}' d o) := by
        rintro d' hd' rfl
        rw [hcons, Option.map_eq_some_iff]
        apply exists_congr
        intro o'
        rw [ih hd', and_comm, @eq_comm _ _ o]
      rw [balanced]
      split_ifs with hop hcl hzero
      · exact hgo (Nat.succ_pos d) (by simp [deeper, hop])
      · subst hcl
        rw [hcons, show deeper '{' '}' d '}' = 0 from hzero, Option.some.injEq]
        constructor
        · rintro rfl
          exact ⟨[], rfl, ⟨s, rfl⟩, (closes_zero (by decide)).mpr rfl⟩
        · rintro ⟨o', rfl, -, hclose⟩
          rw [(closes_zero (by decide)).mp hclose]
      · exact hgo (Nat.pos_of_ne_zero hzero) (by simp [deeper, hcl])
      · exact hgo hd (by simp [deeper, hop, hcl])

instance (o : Text) : Decidable (Nested o) :=
  match o with
  | [] => isFalse fun ⟨_, h, _⟩ => by cases h
  | c :: t => decidable_of_iff (c = '{' ∧ balanced 1 t = some t) <| by
      rw [balanced_eq_some Nat.one_pos]
      constructor
      · rintro ⟨rfl, -, hclose⟩
        exact ⟨t, rfl, hclose⟩
      · rintro ⟨t', h, hclose⟩
        obtain ⟨rfl, rfl⟩ := List.cons.inj h
        exact ⟨rfl, ⟨[], by simp⟩, hclose⟩

theorem jsonObjectFragment_eq_some :
    jsonObjectFragment s key = some o ↔ ∃ pre, FragmentAt s key pre o := by
  constructor
  · intro h
    obtain ⟨rest, hrest, hbal⟩ := Option.bind_eq_some_iff.mp h
    cases hdrop : rest.dropWhile (· ≠ '{') with
    | nil =>
        rw [hdrop] at hbal
        cases hbal
    | cons x t =>
        obtain rfl := dropWhile_ne_cons hdrop
        obtain ⟨pre, rfl, hclear⟩ := scan_eq_some.mp ⟨rest, hrest, hdrop⟩
        rw [hdrop, balanced, if_pos rfl] at hbal
        obtain ⟨o', ho', rfl⟩ := Option.map_eq_some_iff.mp hbal
        obtain ⟨⟨post, rfl⟩, hclose⟩ := (balanced_eq_some (Nat.succ_pos 0)).mp ho'
        exact ⟨pre, ⟨post, rfl⟩, hclear, o', rfl, hclose⟩
  · rintro ⟨pre, ⟨post, rfl⟩, hclear, t, rfl, hclose⟩
    obtain ⟨rest, hrest, hdrop⟩ := hclear.scan (t ++ post)
    rw [jsonObjectFragment, List.cons_append, hrest, Option.bind_some, hdrop, balanced,
      if_pos rfl, (balanced_eq_some (Nat.succ_pos 0)).mpr ⟨⟨post, rfl⟩, hclose⟩]
    rfl

theorem isWhitespace_quote : isWhitespace '"' = false := by decide

theorem trimStart_append {pad : Text} (h : ∀ c ∈ pad, isWhitespace c = true) :
    trimStart (pad ++ '"' :: s) = '"' :: s := by
  rw [trimStart, List.dropWhile_append_of_pos h]
  exact List.dropWhile_cons_of_neg (by simp [isWhitespace_quote])

/-- The first quotation mark and what is in front of it. -/
theorem takeWhile_quote (h : '"' ∈ s) :
    ∃ post, s = s.takeWhile (· ≠ '"') ++ '"' :: post := by
  refine ⟨(s.dropWhile (· ≠ '"')).tail, ?_⟩
  cases hdrop : s.dropWhile (· ≠ '"') with
  | nil =>
      have := List.dropWhile_eq_nil_iff.mp hdrop '"' h
      simp at this
  | cons x t =>
      obtain rfl := dropWhile_ne_cons hdrop
      rw [List.tail_cons, ← hdrop, List.takeWhile_append_dropWhile]

theorem takeWhile_quote_append {post : Text} (h : '"' ∉ t) :
    (t ++ '"' :: post).takeWhile (· ≠ '"') = t := by
  rw [List.takeWhile_append_of_pos fun c hc => by simpa using fun heq : c = '"' => h (heq ▸ hc)]
  simp

/-- The search for a colon. -/
theorem after?_char : after? [c] s = some t ↔ s.dropWhile (· ≠ c) = c :: t := by
  induction s with
  | nil => simp [after?]
  | cons x s ih =>
      rw [after?]
      by_cases hx : x = c
      · subst hx
        simp
      · have hpre : ¬([c] : Text).isPrefixOf (x :: s) = true := by
          rw [List.isPrefixOf_iff_prefix, List.cons_prefix_cons]
          exact fun h => hx h.1.symm
        rw [if_neg hpre, List.dropWhile_cons_of_pos (by simpa using hx)]
        exact ih

theorem jsonString_eq_some : jsonString s key = some t ↔ ∃ pre, StringAt s key pre t := by
  constructor
  · intro h
    obtain ⟨rest, hrest, hfound⟩ := Option.bind_eq_some_iff.mp h
    obtain ⟨afterColon, hcolon, hvalue⟩ := Option.bind_eq_some_iff.mp hfound
    obtain ⟨pre, rfl, hclear⟩ := scan_eq_some.mp ⟨rest, hrest, after?_char.mp hcolon⟩
    split at hvalue
    · next inner htrim =>
        rw [Option.ite_none_right_eq_some, Option.some.injEq] at hvalue
        obtain ⟨hquote, rfl⟩ := hvalue
        obtain ⟨post, hpost⟩ := takeWhile_quote hquote
        refine ⟨pre, ⟨afterColon.takeWhile isWhitespace, post,
          fun c hc => List.mem_takeWhile_imp hc, ?_⟩, hclear, fun hmem => ?_⟩
        · rw [← hpost, ← htrim, trimStart, List.takeWhile_append_dropWhile]
        · simpa using List.mem_takeWhile_imp hmem
    · cases hvalue
  · rintro ⟨pre, ⟨pad, post, hpad, rfl⟩, hclear, hquote⟩
    obtain ⟨rest, hrest, hdrop⟩ := hclear.scan (pad ++ '"' :: (t ++ '"' :: post))
    rw [jsonString, hrest, Option.bind_some, after?_char.mpr hdrop, Option.bind_some,
      trimStart_append hpad]
    apply (if_pos (by simp)).trans
    rw [takeWhile_quote_append hquote]

end Scans

/-! ## The usage parse -/

/-- Each half of a surrogate pair stands by the other half. -/
def paired : Utf16 → Bool
  | [] => true
  | [u] => !(isHighSurrogate u || isLowSurrogate u)
  | u :: v :: s =>
      if isHighSurrogate u then isLowSurrogate v && paired s
      else !isLowSurrogate u && paired (v :: s)

/-- The `Usage` of these members: their names are Unicode, and one is `total_tokens`. -/
def usageTokens (ms : List (Utf16 × Json)) : Option UInt64 :=
  if ms.all fun m => paired m.1 then
    match ms.filter fun m => m.1 = utf16 "total_tokens" with
    | [(_, .num x)] => parseU64 x.text
    | _ => none
  else none

def usageOf : Json → Option UInt64
  | .obj ms => usageTokens ms
  | _ => none

/-- `serde_json` reads JSON, and of an object the fields of `Usage`. -/
def Crates.ReadsUsage (crates : Crates) : Prop :=
  ∀ s, crates.usage ('{' :: s) = (parse ('{' :: s)).bind usageOf

/-- The integer that a number is written as. -/
def integer : Text → Option ℤ
  | '-' :: digits => if digits.all Char.isDigit then some (-(NumLit.numeral digits : ℤ)) else none
  | digits => if digits.all Char.isDigit then some (NumLit.numeral digits : ℤ) else none

/-- The members hold an integer `total_tokens`. -/
def HoldsTokens (ms : List (Utf16 × Json)) (total : ℤ) : Prop :=
  ∃ x : NumLit, (utf16 "total_tokens", .num x) ∈ ms ∧ integer x.text = some total

/-- It is the only one, it is a `u64` without a sign, and all the names are Unicode. -/
structure TokensFit (ms : List (Utf16 × Json)) (total : ℤ) : Prop where
  names : ∀ m ∈ ms, paired m.1 = true
  once : ms.countP (fun m => m.1 = utf16 "total_tokens") = 1
  unsigned : ∀ x : NumLit, (utf16 "total_tokens", .num x) ∈ ms → '-' ∉ x.text
  size : total < UInt64.size

section Usage

variable {ms : List (Utf16 × Json)} {total : ℤ} {x : NumLit} {n : UInt64}

theorem parseU64_integer (h : integer x.text = some total) (hsign : '-' ∉ x.text)
    (hsize : total < UInt64.size) : ∃ n, parseU64 x.text = some n ∧ (n.toNat : ℤ) = total := by
  obtain ⟨c, t, htext, -⟩ := num_head x
  unfold integer at h
  split at h
  · next digits heq => exact absurd (heq ▸ List.mem_cons_self) hsign
  · rw [Option.ite_none_right_eq_some, Option.some.injEq] at h
    obtain ⟨hdigits, rfl⟩ := h
    have hlt : NumLit.numeral x.text < UInt64.size := by exact_mod_cast hsize
    have hplus : ∀ rest, x.text ≠ '+' :: rest := by
      intro rest heq
      rw [heq] at hdigits
      cases hdigits
    refine ⟨UInt64.ofNat (NumLit.numeral x.text), ?_, ?_⟩
    · rw [parseU64]
      · exact if_pos ⟨by simp [htext], hdigits, hlt⟩
      · exact hplus
    · rw [UInt64.toNat_ofNat_of_lt' hlt]

/-- What is read as a `u64` has no minus sign. -/
theorem parseU64_unsigned {s : Text} (h : parseU64 s = some n) : '-' ∉ s := by
  have hdigit : ∀ {t : Text}, t.all Char.isDigit = true → '-' ∉ t := fun hall hmem =>
    absurd (List.all_eq_true.mp hall _ hmem) (by decide)
  unfold parseU64 at h
  rw [Option.ite_none_right_eq_some] at h
  obtain ⟨⟨-, hall, -⟩, -⟩ := h
  split at hall
  · exact fun hmem => hdigit hall ((List.mem_cons.mp hmem).resolve_left (by decide))
  · exact hdigit hall

theorem usageTokens_iff (h : HoldsTokens ms total) :
    (usageTokens ms).map (fun n => (n.toNat : ℤ)) = some total ↔ TokensFit ms total := by
  obtain ⟨x, hx, hinteger⟩ := h
  have hmem : ∀ {y}, (utf16 "total_tokens", Json.num y) ∈ ms →
      (utf16 "total_tokens", Json.num y) ∈ ms.filter fun m => m.1 = utf16 "total_tokens" :=
    fun hy => List.mem_filter.mpr ⟨hy, by simp⟩
  unfold usageTokens
  constructor
  · intro hsome
    obtain ⟨n, hn, rfl⟩ := Option.map_eq_some_iff.mp hsome
    rw [Option.ite_none_right_eq_some] at hn
    obtain ⟨hnames, hn⟩ := hn
    split at hn
    · next hfilter =>
        refine ⟨by simpa using hnames, ?_, fun y hy => ?_, by exact_mod_cast n.toNat_lt⟩
        · rw [List.countP_eq_length_filter, hfilter]
          rfl
        · have hsame := hmem hy
          rw [hfilter, List.mem_singleton, Prod.mk.injEq, Json.num.injEq] at hsame
          exact hsame.2 ▸ parseU64_unsigned hn
    · cases hn
  · rintro ⟨hnames, honce, hsign, hsize⟩
    rw [List.countP_eq_length_filter, List.length_eq_one_iff] at honce
    obtain ⟨m, hm⟩ := honce
    have hfirst := hmem hx
    rw [hm, List.mem_singleton] at hfirst
    subst hfirst
    obtain ⟨n, hn, htotal⟩ := parseU64_integer hinteger (hsign x hx) hsize
    rw [if_pos (by simpa using hnames), hm]
    simp [hn, htotal]

end Usage

/-! ## Reading back -/

/-- The oracle reads this total and this model. -/
def ReadBack (crates : Crates) (recv : Text) (total : ℤ) (model : Utf16) : Prop :=
  ((jsonObjectFragment recv "usage".toList).bind crates.usage).map (fun n => (n.toNat : ℤ)) =
      some total ∧
    (jsonString recv "model".toList).map (List.flatMap units) = some model

/-- The item is a member of this name, and the items `l` come before it. -/
structure JsonResponse.HasMember (r : JsonResponse) (name : Utf16) (l : List Item) (u : Item) :
    Prop where
  name : u.member.name = name
  split : ∃ l', r.body.items = l ++ u :: l'

/-- The member is revealed, no brace stands between a `"usage"` and its value, and the
braces of the value nest. -/
structure UsageClear (r : JsonResponse) (l : List Item) (u : Item) : Prop where
  revealed : l.length ∈ r.revealed
  clear : Clear (quoted "usage".toList) '{' (r.valueAt l u)
  nested : Nested u.member.value.text

/-- The member is revealed, no colon stands between a `"model"` and its own colon, and its
value has no escapes. -/
structure ModelClear (r : JsonResponse) (k : List Item) (m : Item) : Prop where
  revealed : k.length ∈ r.revealed
  clear : Clear (quoted "model".toList) ':' (r.colonAt k m)
  plain : '\\' ∉ m.member.value.text

/-- What the scan meets elsewhere is an object with the same total. -/
def UsageDecoy (recv pre : Text) (total : ℤ) : Prop :=
  ∃ pre' o ms, pre' ≠ pre ∧ FragmentAt recv "usage".toList pre' o ∧
    parse o = some (.obj ms) ∧ (usageTokens ms).map (fun n => (n.toNat : ℤ)) = some total

/-- What the scan meets elsewhere is a copy of the model. -/
def ModelDecoy (recv pre : Text) (model : Utf16) : Prop :=
  ∃ pre' t, pre' ≠ pre ∧ StringAt recv "model".toList pre' t ∧ t.flatMap units = model

section ReadBack

variable {crates : Crates} {r : JsonResponse} {l l' : List Item} {u : Item}
  {us : List (Utf16 × Json)} {total : ℤ} {model : Utf16} {pre t o : Text}

theorem Nested.getLast (h : Nested o) : o.getLast? = some '}' := by
  obtain ⟨t, rfl, hclose⟩ := h
  have hlast := hclose.getLast (by decide) (Nat.succ_pos 0)
  have hne : t ≠ [] := by
    rintro rfl
    cases hlast
  rw [List.getLast?_cons_of_ne_nil hne, hlast]

/-- A hidden member shows no quotation mark. -/
theorem revealed_of_quote (h : r.body.items = l ++ u :: l')
    (hshown : r.shown = r.textBefore l u ++ '"' :: t) : l.length ∈ r.revealed := by
  by_contra hhidden
  obtain ⟨after, hafter⟩ := shown_eq h
  rw [hshown, List.append_cancel_left_eq, decide_eq_false hhidden] at hafter
  have hlen : (encodeUtf8 u.member.text).length ≠ 0 := by
    have hquote : encodeChar '"' ≠ [] := by decide
    simp [Member.text, Member.keyText, encodeUtf8, hquote]
  obtain ⟨n, hn⟩ := Nat.exists_eq_succ_of_ne_zero hlen
  rw [shownPiece, if_neg Bool.false_ne_true, hn, List.replicate_succ] at hafter
  cases (List.cons.inj hafter).1

theorem shown_revealed (h : r.body.items = l ++ u :: l') (hrev : l.length ∈ r.revealed) :
    ∃ after, r.shown = r.valueAt l u ++ (u.member.value.text ++ after) := by
  obtain ⟨after, hafter⟩ := shown_eq h
  refine ⟨after, ?_⟩
  rw [hafter, decide_eq_true hrev]
  simp [shownPiece, JsonResponse.valueAt, JsonResponse.colonAt, Member.text]

theorem getLast_of_append {c : Char} (h : t.getLast? = some c) : (o ++ t).getLast? = some c := by
  rw [List.getLast?_append_of_ne_nil _ (by rintro rfl; cases h), h]

/-- Of two objects at one place, one is the other. -/
theorem fragment_unique {ms : List (Utf16 × Json)} {v : Source} {post after : Text}
    (hv : v.json = .obj us) (ho : parse o = some (.obj ms)) (hnested : Nested o)
    (h : o ++ post = v.text ++ after) : o = v.text := by
  have hreads := v.reads
  rw [hv] at hreads
  rcases List.append_eq_append_iff.mp h with ⟨d, hd, -⟩ | ⟨d, hd, -⟩
  · have hnil : d = [] := parse_prefix_free ho (hd ▸ v.reads) fun c hc =>
      v.last c (by rw [hd]; exact getLast_of_append hc)
    rw [hd, hnil, List.append_nil]
  · have hnil : d = [] := parse_prefix_free hreads (hd ▸ ho) fun c hc => by
      have hlast := (getLast_of_append hc).symm.trans (hd ▸ hnested.getLast)
      obtain rfl := Option.some.inj hlast
      rfl
    rw [hd, hnil, List.append_nil]

theorem usage_read_iff (hreads : crates.ReadsUsage) (hu : r.body.items = l ++ u :: l')
    (hobj : u.member.value.json = .obj us) (htokens : HoldsTokens us total) :
    ((jsonObjectFragment r.shown "usage".toList).bind crates.usage).map
        (fun n => (n.toNat : ℤ)) = some total ↔
      UsageClear r l u ∧ TokensFit us total ∨ UsageDecoy r.shown (r.valueAt l u) total := by
  have husage : ∀ {o}, Nested o → crates.usage o = (parse o).bind usageOf := by
    rintro _ ⟨t, rfl, -⟩
    exact hreads t
  have hvalue : parse u.member.value.text = some (.obj us) := hobj ▸ u.member.value.reads
  constructor
  · intro h
    obtain ⟨n, hn, htotal⟩ := Option.map_eq_some_iff.mp h
    obtain ⟨o, ho, hparse⟩ := Option.bind_eq_some_iff.mp hn
    obtain ⟨pre, hat⟩ := jsonObjectFragment_eq_some.mp ho
    rw [husage hat.nested] at hparse
    obtain ⟨j, hj, hms⟩ := Option.bind_eq_some_iff.mp hparse
    cases j with
    | obj ms =>
        have htot : (usageTokens ms).map (fun n => (n.toNat : ℤ)) = some total := by
          rw [show usageTokens ms = some n from hms, Option.map_some, htotal]
        by_cases hpre : pre = r.valueAt l u
        · subst hpre
          obtain ⟨⟨post, hpost⟩, hclear, hnested⟩ := hat
          have hrev : l.length ∈ r.revealed := revealed_of_quote hu (by
            rw [hpost, JsonResponse.valueAt, JsonResponse.colonAt, Member.keyText]
            simp only [List.append_assoc, List.cons_append]
            rfl)
          obtain ⟨after, hafter⟩ := shown_revealed hu hrev
          rw [hpost, List.append_cancel_left_eq] at hafter
          obtain rfl := fragment_unique hobj hj hnested hafter
          obtain rfl : ms = us := by
            have := hj.symm.trans hvalue
            simpa using this
          exact .inl ⟨⟨hrev, hclear, hnested⟩, (usageTokens_iff htokens).mp htot⟩
        · exact .inr ⟨pre, o, ms, hpre, hat, hj, htot⟩
    | _ => cases hms
  · have hread : ∀ {pre o ms}, FragmentAt r.shown "usage".toList pre o →
        parse o = some (.obj ms) →
          (usageTokens ms).map (fun n => (n.toNat : ℤ)) = some total →
            ((jsonObjectFragment r.shown "usage".toList).bind crates.usage).map
              (fun n => (n.toNat : ℤ)) = some total := by
      intro pre o ms hat hparse htot
      rw [jsonObjectFragment_eq_some.mpr ⟨pre, hat⟩, Option.bind_some, husage hat.nested, hparse]
      exact htot
    rintro (⟨⟨hrev, hclear, hnested⟩, hfit⟩ | ⟨pre, o, ms, -, hat, hparse, htot⟩)
    · obtain ⟨after, hafter⟩ := shown_revealed hu hrev
      exact hread ⟨⟨after, hafter⟩, hclear, hnested⟩ hvalue ((usageTokens_iff htokens).mpr hfit)
    · exact hread hat hparse htot

theorem isWhitespace_of_isSpace {c : Char} (h : isSpace c = true) : isWhitespace c = true := by
  simp only [isSpace, Bool.or_eq_true, decide_eq_true_eq] at h
  rcases h with ((rfl | rfl) | rfl) | rfl <;> decide

theorem model_read_iff {k k' : List Item} {m : Item} (hm : r.body.items = k ++ m :: k')
    (hstr : m.member.value.json = .str model) :
    (jsonString r.shown "model".toList).map (List.flatMap units) = some model ↔
      ModelClear r k m ∨ ModelDecoy r.shown (r.colonAt k m) model := by
  obtain ⟨raw, htext, hscan⟩ := m.member.value.text_str hstr
  have hspace : ∀ c ∈ m.member.afterColon.val, isWhitespace c = true :=
    fun c hc => isWhitespace_of_isSpace (m.member.afterColon.2 c hc)
  have hplain : '\\' ∉ m.member.value.text ↔ '\\' ∉ raw := by simp [htext]
  -- the member, from its colon on
  have hmember : k.length ∈ r.revealed → ∃ after, r.shown = r.colonAt k m ++
      ':' :: (m.member.afterColon.val ++ '"' :: (raw ++ '"' :: after)) := by
    intro hrev
    obtain ⟨after, hafter⟩ := shown_revealed hm hrev
    exact ⟨after, by rw [hafter, JsonResponse.valueAt, htext]; simp⟩
  constructor
  · intro h
    obtain ⟨t, ht, hunits⟩ := Option.map_eq_some_iff.mp h
    obtain ⟨pre, hat⟩ := jsonString_eq_some.mp ht
    by_cases hpre : pre = r.colonAt k m
    · subst hpre
      obtain ⟨⟨pad, post, hpad, hpost⟩, hclear, hquote⟩ := hat
      have hrev : k.length ∈ r.revealed := revealed_of_quote hm (by
        rw [hpost, JsonResponse.colonAt, Member.keyText]
        simp only [List.append_assoc, List.cons_append]
        rfl)
      obtain ⟨after, hafter⟩ := hmember hrev
      rw [hpost, List.append_cancel_left_eq, List.cons.injEq] at hafter
      have hsame := congrArg trimStart hafter.2
      rw [trimStart_append hpad, trimStart_append hspace, List.cons.injEq] at hsame
      exact .inl ⟨hrev, hclear,
        hplain.mpr ((eq_flatMap_units_iff hscan hsame.2.symm hquote).mp hunits)⟩
    · exact .inr ⟨pre, t, hpre, hat, hunits⟩
  · rintro (⟨hrev, hclear, hslash⟩ | ⟨pre, t, -, hat, hunits⟩)
    · obtain ⟨after, hafter⟩ := hmember hrev
      obtain ⟨hquote, rfl⟩ := scanStr_unescaped hscan (hplain.mp hslash)
      rw [jsonString_eq_some.mpr ⟨_, ⟨_, after, hspace, hafter⟩, hclear, hquote⟩, Option.map_some]
    · rw [jsonString_eq_some.mpr ⟨pre, hat⟩, Option.map_some, hunits]

end ReadBack

end Bartok.Proof
