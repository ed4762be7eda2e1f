import Bartok.Bridge.SettleOutput
import Bartok.Foundation.JsonObjects
import Bartok.Foundation.MarkedLine
import Bartok.Foundation.Streams

/-!
# The output of a child process

`run` puts the pieces of both pipes into one text, each decoded by itself, and `lastJson`
takes its last line that begins like an object. What a bin prints last on stdout is that
line if nothing of stderr comes near it and no character of it is cut. An object that writes
each name once is recovered in every order of the pieces only if there is nothing that could
come near and nothing to cut.
-/

namespace Bartok.Bridge

open Foundation Text Json

/-! ## The last line of JSON -/

section LastJson

variable {pre post w q inner s : Text} {ms : List (Utf16 × Json)}

theorem lastJson_eq (out : Text) :
    lastJson out = (lastMarked State.isSpace '\n' '{' out).bind parse := rfl

/-- White space of JSON is stripped. -/
theorem isSpace_json {c : Char} (h : Json.isSpace c = true) : State.isSpace c = true := by
  simp only [Json.isSpace, Bool.or_eq_true, decide_eq_true_eq] at h
  rcases h with ((rfl | rfl) | rfl) | rfl <;> decide

theorem isSpace_space (ws : Space) : ∀ c ∈ ws.val, State.isSpace c = true :=
  fun c hc => isSpace_json (ws.2 c hc)

/-- The line that `lastJson` takes, up to white space around it. -/
theorem lastJson_line (hpre : EndsLine '\n' pre) (hw : ∀ c ∈ w, State.isSpace c = true)
    (hline : '\n' ∉ w ++ '{' :: q) (hpost : StartsLine '\n' post)
    (hlater : ¬ MarksLater State.isSpace '\n' '{' post) :
    ∃ a w' q' b, w = a ++ w' ∧ q = q' ++ b ∧ (∀ c ∈ b, State.isSpace c = true) ∧
      lastJson (pre ++ (w ++ '{' :: (q ++ post))) = parse (w' ++ '{' :: q') := by
  obtain ⟨a, w', q', b, hwa, hqb, hb, hlast⟩ :=
    lastMarked_lines (by decide) hpre hw hline hpost hlater
  exact ⟨a, w', q', b, hwa, hqb, hb, by rw [lastJson_eq, hlast, Option.bind_some]⟩

/-- An object on a line is recovered, if no later line begins like one. -/
theorem lastJson_object (pre : Text) (lead trail : Space) (hpre : EndsLine '\n' pre)
    (hline : '\n' ∉ lead.val ++ '{' :: (inner ++ '}' :: trail.val)) (hpost : StartsLine '\n' post)
    (hlater : ¬ MarksLater State.isSpace '\n' '{' post) (h : Inside inner ms) :
    lastJson (pre ++ (lead.val ++ '{' :: (inner ++ '}' :: trail.val ++ post))) =
      some (.obj ms) := by
  obtain ⟨a, w', q', b, hlead, hq, hb, hlast⟩ :=
    lastJson_line hpre (isSpace_space lead) hline hpost hlater
  have hw' : ∀ c ∈ w', Json.isSpace c = true := fun c hc =>
    lead.2 c (hlead ▸ List.mem_append_right _ hc)
  have hbrace : '}' ∉ b := fun hmem => by
    have := hb '}' hmem
    revert this
    decide
  -- the brace is not stripped
  obtain ⟨t, hq', ht⟩ : ∃ t, q' = inner ++ '}' :: t ∧ trail.val = t ++ b := by
    rcases List.append_eq_append_iff.mp hq with ⟨d, rfl, hd⟩ | ⟨d, -, rfl⟩
    · cases d with
      | nil =>
          rw [List.nil_append] at hd
          exact absurd (by simp [← hd]) hbrace
      | cons c t =>
          obtain ⟨rfl, ht⟩ := List.cons.inj hd
          exact ⟨t, rfl, ht⟩
    · exact absurd (by simp) hbrace
  rw [hlast, hq']
  exact h ⟨w', hw'⟩ ⟨t, fun c hc => trail.2 c (ht ▸ List.mem_append_left _ hc)⟩

/-- What is recovered of a line is an object that stands on it. -/
theorem lastJson_inside (post : Text) (hpre : EndsLine '\n' pre)
    (hw : ∀ c ∈ w, State.isSpace c = true) (hline : '\n' ∉ w ++ '{' :: q) (hpost : StartsLine '\n' post)
    (hlater : ¬ MarksLater State.isSpace '\n' '{' post)
    (h : lastJson (pre ++ (w ++ '{' :: (q ++ post))) = some (.obj ms)) :
    ∃ inner b, q = inner ++ '}' :: b ∧ (∀ c ∈ b, State.isSpace c = true) ∧ Inside inner ms := by
  obtain ⟨a, w', q', b, rfl, rfl, hb, hlast⟩ := lastJson_line hpre hw hline hpost hlater
  rw [hlast] at h
  obtain ⟨lead, trail, inner, hsplit, hinside⟩ := inside_of_parse h
  obtain ⟨-, hq'⟩ := mark_unique (by decide) (by decide)
    (fun c hc => hw c (List.mem_append_right _ hc)) (isSpace_space lead) hsplit
  refine ⟨inner, trail.val ++ b, by simp [hq'], ?_, hinside⟩
  exact List.forall_mem_append.mpr ⟨isSpace_space trail, hb⟩

end LastJson

/-! ## The process -/

inductive Pipe
  | stdout
  | stderr
deriving DecidableEq

/-- What a `data` event of a pipe brings. -/
abbrev Chunk := StreamPiece Pipe

/-- The listener of both pipes; `onChunk` only watches. -/
def cap (out : Text) (d : Chunk) : Text := out ++ fromUtf8Lossy d.bytes

/-- What `run` resolves to when the process has ended and both pipes are closed. -/
def run (code : Option ℤ) (data : List Chunk) : RunOutput := ⟨code, data.foldl cap []⟩

/-- What a bin prints: an object on the last line of stdout. -/
structure Printout where
  before : List UInt8
  line : Text
  /-- The end of the line, which may be missing. -/
  last : List UInt8
  stderr : List UInt8
  members : List (Utf16 × Json)
  before_ends : EndsLine 0x0A before
  line_single : '\n' ∉ line
  last_ends : last = [] ∨ last = [0x0A]
  line_object : parse line = some (.obj members)

/-- A bin that prints nothing else on stdout. -/
def Printout.ofObject (ms : List (Utf16 × Json)) (stderr : List UInt8) : Printout where
  before := []
  line := stringify (.obj ms)
  last := [0x0A]
  stderr := stderr
  members := ms
  before_ends := .inl rfl
  line_single := newline_not_mem_stringify _
  last_ends := .inr rfl
  line_object := parse_print _ _

namespace Printout

variable (p : Printout)

def stdout : List UInt8 := p.before ++ (encodeUtf8 p.line ++ p.last)

/-- These are the pieces of what it prints, in some order of the pipes. -/
def Arrives (data : List Chunk) : Prop :=
  bytesOf .stdout data = p.stdout ∧ bytesOf .stderr data = p.stderr

/-- `lastJson` of what `run` resolves to is the object, as `JSON.parse` makes it of a line. -/
def Recovered {N : Type} (number : NumLit → N) (code : Option ℤ) (data : List Chunk) : Prop :=
  (lastJson (run code data).out).map (value number) = some (value number (.obj p.members))

end Printout

/-- A byte of white space that ends no line. -/
def Blank (x : UInt8) : Prop := x = 0x20 ∨ x = 0x09 ∨ x = 0x0D

/-- Nothing comes near the last line, and nothing in it can be cut: stderr is empty and the
line ASCII, or white space comes to an object that is empty itself. -/
def Printout.Undisturbed (p : Printout) : Prop :=
  (p.stderr = [] ∧ ∀ c ∈ p.line, c.toNat < 0x80) ∨ (p.members = [] ∧ ∀ x ∈ p.stderr, Blank x)

/-- An order that does not disturb the last line: it begins behind the end of a line, comes
in pieces that are cut between its characters with none of stderr among them, and nothing
behind it opens an object. -/
def Printout.Apart (p : Printout) (data : List Chunk) : Prop :=
  ∃ (front back : List Chunk) (first : List UInt8) (t : Text) (ts : List Text) (post : Text),
    data = front ++ ⟨.stdout, first ++ encodeUtf8 t⟩ ::
      (ts.map (fun t => ⟨.stdout, encodeUtf8 t⟩) ++ back) ∧
    EndsLine 0x0A (allBytes front ++ first) ∧ t ++ ts.flatten = p.line ++ post ∧
    StartsLine '\n' (post ++ textOf back) ∧
    ¬ MarksLater State.isSpace '\n' '{' (post ++ textOf back)

section Process

variable {N : Type} {number : NumLit → N} {code : Option ℤ} {data : List Chunk} {p : Printout}
  {x : UInt8} {t : Text} {bytes : List UInt8}

theorem run_out (code : Option ℤ) (data : List Chunk) : (run code data).out = textOf data := by
  have hfold : ∀ (data : List Chunk) (out : Text), data.foldl cap out = out ++ textOf data := by
    intro data
    induction data with
    | nil => exact fun out => (List.append_nil out).symm
    | cons d data ih =>
        intro out
        rw [List.foldl_cons, ih, cap, textOf_cons, List.append_assoc]
  exact hfold data []

theorem Printout.Recovered.of_parsed (h : lastJson (textOf data) = some (.obj p.members)) :
    p.Recovered number code data := by
  rw [Recovered, run_out, h]
  rfl

theorem blank_ascii (h : Blank x) : x.toNat < 0x80 ∧
    Json.isSpace (Char.ofNat x.toNat) = true ∧ Char.ofNat x.toNat ≠ '\n' := by
  rcases h with rfl | rfl | rfl <;> decide

theorem blank_of_byteChar (h : Json.isSpace (byteChar x) = true) (hnl : byteChar x ≠ '\n') :
    Blank x := by
  unfold byteChar at h hnl
  split_ifs at h hnl with hx
  · have hbyte : ∀ y : UInt8, Char.ofNat x.toNat = Char.ofNat y.toNat → y.toNat < 0x80 → x = y := by
      intro y hy hlt
      have hnat := congrArg Char.toNat hy
      rw [toNat_ofNat (.inl (by omega)), toNat_ofNat (.inl (by omega))] at hnat
      exact UInt8.toNat_inj.mp hnat
    simp only [Json.isSpace, Bool.or_eq_true, decide_eq_true_eq] at h
    rcases h with ((h | h) | h) | h
    · exact .inl (hbyte 0x20 h (by decide))
    · exact .inr (.inl (hbyte 0x09 h (by decide)))
    · exact absurd h hnl
    · exact .inr (.inr (hbyte 0x0D h (by decide)))
  · exact absurd h (by decide)

theorem blank_encodeUtf8 (h : ∀ c ∈ t, Json.isSpace c = true) (hline : '\n' ∉ t) :
    ∀ x ∈ encodeUtf8 t, Blank x := by
  intro x hx
  obtain ⟨c, hc, hx⟩ := List.mem_flatMap.mp hx
  have hspace := h c hc
  simp only [Json.isSpace, Bool.or_eq_true, decide_eq_true_eq] at hspace
  rcases hspace with ((rfl | rfl) | rfl) | rfl
  · exact .inl (List.mem_singleton.mp hx)
  · exact .inr (.inl (List.mem_singleton.mp hx))
  · exact absurd hc hline
  · exact .inr (.inr (List.mem_singleton.mp hx))

/-- Pieces of white space have a text of white space, on one line. -/
theorem textOf_blank (data : List Chunk) (h : ∀ pipe, ∀ x ∈ bytesOf pipe data, Blank x) :
    (∀ c ∈ textOf data, Json.isSpace c = true) ∧ '\n' ∉ textOf data := by
  have hbytes : ∀ x ∈ allBytes data, Blank x := fun x hx => by
    obtain ⟨pipe, hx⟩ := mem_allBytes hx
    exact h pipe x hx
  have hall := textOf_all Blank (fun c => Json.isSpace c = true ∧ c ≠ '\n')
    (fun x hx => blank_ascii hx) hbytes
  exact ⟨fun c hc => (hall c hc).1, fun hmem => (hall _ hmem).2 rfl⟩

/-- The text in front of the last line is whole lines. -/
theorem textOf_before (h : bytesOf .stdout data = p.before ++ bytes) :
    ∃ (pre : Text) (data' : List Chunk), textOf data = pre ++ textOf data' ∧ EndsLine '\n' pre ∧
      bytesOf .stdout data' = bytes ∧ ∃ e, bytesOf .stderr data = e ++ bytesOf .stderr data' := by
  rcases p.before_ends with hbefore | ⟨b, hbefore⟩
  · exact ⟨[], data, rfl, .inl rfl, by simpa [hbefore] using h, [], rfl⟩
  · rw [hbefore, List.append_assoc] at h
    obtain ⟨data₁, data₂, htext, -, ha, hothers⟩ := textOf_cut (x := 0x0A) (by decide) h
    exact ⟨textOf data₁ ++ ['\n'], data₂, by simp [htext], .inr ⟨_, rfl⟩, ha, _,
      hothers .stderr (by decide)⟩

theorem not_marksLater (h : '{' ∉ t) : ¬ MarksLater State.isSpace '\n' '{' t := by
  rintro ⟨pre, w, q, rfl, -⟩
  exact h (by simp)

theorem brace_not_mem (h : ∀ c ∈ t, Json.isSpace c = true) : '{' ∉ t := fun hmem =>
  absurd (h _ hmem) (by decide)

/-- White space, the end of the last line, and more white space. -/
theorem textOf_tail (hout : bytesOf .stdout data = bytes ++ p.last) (hbytes : ∀ x ∈ bytes, Blank x)
    (herr : ∀ x ∈ bytesOf .stderr data, Blank x) :
    ∃ (trail : Space) (post : Text), textOf data = trail.val ++ post ∧ '\n' ∉ trail.val ∧
      StartsLine '\n' post ∧ ¬ MarksLater State.isSpace '\n' '{' post := by
  rcases p.last_ends with hlast | hlast <;> rw [hlast] at hout
  · obtain ⟨hspace, hnl⟩ := textOf_blank data fun pipe => by
      cases pipe with
      | stdout => rwa [hout, List.append_nil]
      | stderr => exact herr
    exact ⟨⟨_, hspace⟩, [], by simp, hnl, .inl rfl, not_marksLater List.not_mem_nil⟩
  · obtain ⟨data₁, data₂, htext, hfront, hback, hothers⟩ :=
      textOf_cut (x := 0x0A) (by decide) hout
    rw [hothers .stderr (by decide)] at herr
    obtain ⟨hspace, hnl⟩ := textOf_blank data₁ fun pipe => by
      cases pipe with
      | stdout => rwa [hfront]
      | stderr => exact fun x hx => herr x (List.mem_append_left _ hx)
    obtain ⟨hmore, -⟩ := textOf_blank data₂ fun pipe => by
      cases pipe with
      | stdout => rw [hback]; exact nofun
      | stderr => exact fun x hx => herr x (List.mem_append_right _ hx)
    refine ⟨⟨_, hspace⟩, _, htext, hnl, .inr ⟨_, rfl⟩, not_marksLater ?_⟩
    exact List.not_mem_cons_of_ne_of_not_mem (by decide) (brace_not_mem hmore)

/-- A line of ASCII that comes alone comes as it is. -/
theorem recovered_alone (hempty : p.stderr = []) (hascii : ∀ c ∈ p.line, c.toNat < 0x80)
    (h : p.Arrives data) : p.Recovered number code data := by
  obtain ⟨pre, rest, htext, hpre, hout, e, herr⟩ := textOf_before (p := p) h.1
  obtain ⟨lead, trail, inner, hline, hinside⟩ := inside_of_parse p.line_object
  have hsingle := hline ▸ p.line_single
  have hnone : bytesOf .stderr rest = [] := by
    rw [h.2, hempty] at herr
    exact (List.append_eq_nil_iff.mp herr.symm).2
  obtain ⟨rest', hrest, hlast, hothers⟩ := textOf_ascii hascii hout fun pipe hpipe => by
    cases pipe with
    | stdout => exact absurd rfl hpipe
    | stderr => exact hnone
  obtain ⟨trail', post, hpost, hnl, hstarts, hlater⟩ :=
    textOf_tail (show bytesOf .stdout rest' = [] ++ p.last from hlast) nofun
      (by rw [hothers .stderr (by decide)]; exact nofun)
  have hall := lastJson_object pre lead ⟨trail.val ++ trail'.val,
    List.forall_mem_append.mpr ⟨trail.2, trail'.2⟩⟩ hpre (by
      simp only [List.mem_append, List.mem_cons] at hsingle ⊢
      tauto) hstarts hlater hinside
  apply Printout.Recovered.of_parsed
  rw [htext, hrest, hpost, hline]
  simpa using hall

/-- White space comes to the white space of an empty object. -/
theorem recovered_blank (hmembers : p.members = []) (hblank : ∀ x ∈ p.stderr, Blank x)
    (h : p.Arrives data) : p.Recovered number code data := by
  obtain ⟨pre, rest, htext, hpre, hout, e, herr⟩ := textOf_before (p := p) h.1
  obtain ⟨lead, trail, inner, hline, hinside⟩ := inside_of_parse p.line_object
  have hsingle := hline ▸ p.line_single
  simp only [List.mem_append, List.mem_cons, not_or] at hsingle
  obtain ⟨hlead, -, hinner, -, htrail⟩ := hsingle
  have hspace : ∀ c ∈ inner, Json.isSpace c = true := by
    rcases hinside.head with ⟨-, hspace⟩ | ⟨hne, -⟩
    · exact hspace
    · exact absurd hmembers hne
  have hrest : ∀ x ∈ bytesOf .stderr rest, Blank x := by
    intro x hx
    apply hblank
    rw [← h.2, herr]
    exact List.mem_append_right _ hx
  have hbytes : encodeUtf8 p.line ++ p.last = encodeUtf8 lead.val ++
      0x7B :: (encodeUtf8 inner ++ 0x7D :: (encodeUtf8 trail.val ++ p.last)) := by
    rw [hline]
    simp [encodeUtf8, encodeChar_ascii]
  rw [hbytes] at hout
  -- in front of the braces, between them and behind them
  obtain ⟨data₁, data₂, htext₁, hout₁, hout₂, hothers₁⟩ :=
    textOf_cut (x := 0x7B) (by decide) hout
  obtain ⟨data₃, data₄, htext₂, hout₃, hout₄, hothers₂⟩ :=
    textOf_cut (x := 0x7D) (by decide) hout₂
  rw [hothers₁ .stderr (by decide), hothers₂ .stderr (by decide)] at hrest
  simp only [List.forall_mem_append] at hrest
  obtain ⟨hrest₁, hrest₃, hrest₄⟩ := hrest
  obtain ⟨hspace₁, hnl₁⟩ := textOf_blank data₁ fun pipe => by
    cases pipe with
    | stdout => rw [hout₁]; exact blank_encodeUtf8 lead.2 hlead
    | stderr => exact hrest₁
  obtain ⟨hspace₃, hnl₃⟩ := textOf_blank data₃ fun pipe => by
    cases pipe with
    | stdout => rw [hout₃]; exact blank_encodeUtf8 hspace hinner
    | stderr => exact hrest₃
  obtain ⟨trail', post, hpost, hnl, hstarts, hlater⟩ :=
    textOf_tail hout₄ (blank_encodeUtf8 trail.2 htrail) hrest₄
  have hall := lastJson_object pre ⟨_, hspace₁⟩ trail' hpre (by
    simp [hnl₁, hnl₃, hnl]) hstarts hlater (inside_space ⟨_, hspace₃⟩)
  apply Printout.Recovered.of_parsed
  rw [htext, htext₁, htext₂, hpost, hmembers]
  simpa using hall

/-- Then the line is recovered in every order. -/
theorem recovered_of_undisturbed (hp : p.Undisturbed) (h : p.Arrives data) :
    p.Recovered number code data := by
  rcases hp with ⟨hempty, hascii⟩ | ⟨hmembers, hblank⟩
  · exact recovered_alone hempty hascii h
  · exact recovered_blank hmembers hblank h

/-- What follows the end of a line is decoded by itself. -/
theorem fromUtf8Lossy_line {b : List UInt8} (h : EndsLine 0x0A b) (bytes : List UInt8) :
    fromUtf8Lossy (b ++ bytes) = fromUtf8Lossy b ++ fromUtf8Lossy bytes := by
  rcases h with rfl | ⟨b, rfl⟩
  · rfl
  · rw [List.append_assoc, List.singleton_append, fromUtf8Lossy_ascii (by decide),
      fromUtf8Lossy_ascii (by decide), List.append_assoc]
    rfl

theorem endsLine_textOf (data : List Chunk) (h : EndsLine 0x0A (allBytes data)) :
    EndsLine '\n' (textOf data) := by
  rcases h with hnil | ⟨b, hb⟩
  · exact .inl (textOf_eq_nil hnil)
  · exact .inr (textOf_ends (by decide) hb)

/-- The last line is parsed in an order that does not disturb it, whatever else comes. -/
theorem lastJson_of_apart (h : p.Apart data) : lastJson (run code data).out = some (.obj p.members) := by
  obtain ⟨front, back, first, t, ts, post, rfl, hends, hline, hstarts, hlater⟩ := h
  obtain ⟨lead, trail, inner, hobject, hinside⟩ := inside_of_parse p.line_object
  have hpre : EndsLine '\n' (textOf front ++ fromUtf8Lossy first) := by
    have hall := endsLine_textOf (front ++ [⟨.stdout, first⟩]) (by simpa [allBytes] using hends)
    simpa using hall
  have hfirst : EndsLine 0x0A first := by
    rcases hends with hnil | ⟨b, hb⟩
    · exact .inl (List.append_eq_nil_iff.mp hnil).2
    · rcases List.eq_nil_or_concat first with rfl | ⟨first, x, rfl⟩
      · exact .inl rfl
      · rw [List.concat_eq_append, ← List.append_assoc] at hb
        obtain ⟨-, hx⟩ := List.append_inj' hb rfl
        exact .inr ⟨first, by rw [List.concat_eq_append, hx]⟩
  have hall := lastJson_object _ lead trail hpre (hobject ▸ p.line_single) hstarts hlater hinside
  have htext : textOf (front ++ (⟨.stdout, first ++ encodeUtf8 t⟩ : Chunk) ::
      (ts.map (fun t => ⟨.stdout, encodeUtf8 t⟩) ++ back)) =
        textOf front ++ fromUtf8Lossy first ++ (p.line ++ (post ++ textOf back)) := by
    rw [textOf_append, textOf_cons, textOf_append, textOf_encoded, fromUtf8Lossy_line hfirst,
      fromUtf8Lossy_encodeUtf8, ← List.append_assoc p.line, ← hline]
    simp
  rw [run_out, htext, hobject]
  simpa using hall

theorem recovered_of_apart (h : p.Apart data) : p.Recovered number code data := by
  have hparsed : lastJson (run code data).out = some (.obj p.members) := lastJson_of_apart h
  exact .of_parsed (run_out code data ▸ hparsed)

end Process

/-! ## Orders that disturb it -/

section Orders

variable {N : Type} {number : NumLit → N} {code : Option ℤ} {data : List Chunk} {p : Printout}
  {u v inner : Text} {lead trail : Space}

/-- What is recovered is an object of the same value. -/
theorem Printout.Recovered.object (h : p.Recovered number code data) :
    ∃ ms, lastJson (textOf data) = some (.obj ms) ∧
      value number (.obj ms) = value number (.obj p.members) := by
  rw [Recovered, run_out] at h
  obtain ⟨j, hj, hvalue⟩ := Option.map_eq_some_iff.mp h
  cases j with
  | obj ms => exact ⟨ms, hj, hvalue⟩
  | _ => simp [value] at hvalue

theorem endsLine_before (p : Printout) : EndsLine '\n' (fromUtf8Lossy p.before) := by
  rcases p.before_ends with hbefore | ⟨b, hbefore⟩
  · exact .inl (by rw [hbefore]; rfl)
  · exact .inr ⟨_, by rw [hbefore, fromUtf8Lossy_ascii (by decide)]; rfl⟩

theorem startsLine_last (p : Printout) : StartsLine '\n' (fromUtf8Lossy p.last) := by
  rcases p.last_ends with hlast | hlast
  · exact .inl (by rw [hlast]; rfl)
  · exact .inr ⟨[], by rw [hlast]; rfl⟩

theorem brace_not_mem_last (p : Printout) : '{' ∉ fromUtf8Lossy p.last := by
  rcases p.last_ends with hlast | hlast
  · rw [hlast]
    exact List.not_mem_nil
  · rw [hlast]
    decide

/-- What all orders recover is recovered when the text of stderr, byte by byte, is put in
front of the line, somewhere in it and behind it. -/
theorem recovered_spread (T₀ T₁ T₂ u v : Text) (h : ∀ data, p.Arrives data → p.Recovered number code data)
    (hT : T₀ ++ (T₁ ++ T₂) = p.stderr.map byteChar) (hline : u ++ v = p.line) :
    ∃ ms, lastJson (fromUtf8Lossy p.before ++ (T₀ ++ (u ++ (T₁ ++ (v ++ (T₂ ++
        fromUtf8Lossy p.last)))))) = some (.obj ms) ∧
      value number (.obj ms) = value number (.obj p.members) := by
  obtain ⟨E₀, E, hE, rfl, hmap⟩ := List.map_eq_append_iff.mp hT.symm
  obtain ⟨E₁, E₂, rfl, rfl, rfl⟩ := List.map_eq_append_iff.mp hmap
  let data : List Chunk := ⟨.stdout, p.before⟩ :: (bytewise .stderr E₀ ++
    ⟨.stdout, encodeUtf8 u⟩ :: (bytewise .stderr E₁ ++ ⟨.stdout, encodeUtf8 v⟩ ::
      (bytewise .stderr E₂ ++ [⟨.stdout, p.last⟩])))
  have harrives : p.Arrives data := by
    refine ⟨?_, by simp [data, hE]⟩
    simp [data, Printout.stdout, ← hline, encodeUtf8]
  obtain ⟨ms, hms, hvalue⟩ := (h data harrives).object
  exact ⟨ms, by simpa [data, fromUtf8Lossy_encodeUtf8] using hms, hvalue⟩

/-- Behind its brace an object goes on with a quotation mark or the other brace. -/
theorem inside_first {ms : List (Utf16 × Json)} (h : Inside inner ms) (b : Text) :
    ∃ (ws : Space) (c : Char) (t : Text), inner ++ '}' :: b = ws.val ++ c :: t ∧
      State.isSpace c = false ∧ c ≠ '{' := by
  rcases h.head with ⟨-, hspace⟩ | ⟨-, ws, t, rfl⟩
  · exact ⟨⟨inner, hspace⟩, '}', b, rfl, by decide, by decide⟩
  · exact ⟨ws, '"', t ++ '}' :: b, by simp, by decide, by decide⟩

/-- What all orders recover is recovered when a character of the line is cut. -/
theorem recovered_cut {c : Char} (h : ∀ data, p.Arrives data → p.Recovered number code data)
    (hempty : p.stderr = []) (hline : u ++ c :: v = p.line) (hwide : 1 < (encodeChar c).length) :
    ∃ ms, lastJson (fromUtf8Lossy p.before ++ (u ++
        (List.replicate (encodeChar c).length replacement ++ (v ++ fromUtf8Lossy p.last)))) =
          some (.obj ms) ∧
      value number (.obj ms) = value number (.obj p.members) := by
  let data : List Chunk :=
    [⟨.stdout, p.before ++ (encodeUtf8 u ++ (encodeChar c).take 1)⟩,
      ⟨.stdout, (encodeChar c).drop 1 ++ (encodeUtf8 v ++ p.last)⟩]
  have hbytes : encodeUtf8 p.line =
      encodeUtf8 u ++ ((encodeChar c).take 1 ++ ((encodeChar c).drop 1 ++ encodeUtf8 v)) := by
    rw [← hline, ← List.append_assoc (List.take 1 _), List.take_append_drop]
    simp [encodeUtf8]
  have harrives : p.Arrives data := by
    refine ⟨?_, by simp [data, hempty]⟩
    rw [Printout.stdout, hbytes]
    simp [data]
  have hcut : fromUtf8Lossy ((encodeChar c).take 1) ++
      fromUtf8Lossy ((encodeChar c).drop 1 ++ (encodeUtf8 v ++ p.last)) =
        List.replicate (encodeChar c).length replacement ++ (v ++ fromUtf8Lossy p.last) := by
    rw [← fromUtf8Lossy_encodeUtf8_append v]
    exact decode_cut hwide _
  obtain ⟨ms, hms, hvalue⟩ := (h data harrives).object
  refine ⟨ms, ?_, hvalue⟩
  rw [← hcut]
  simpa [data, fromUtf8Lossy_line p.before_ends, fromUtf8Lossy_encodeUtf8_append] using hms

/-- The rest of the line opens no other object. -/
theorem not_marksLater_rest {s : Text} {ms : List (Utf16 × Json)} (hinside : Inside inner ms)
    (hnl : '\n' ∉ inner ++ '}' :: trail.val) (hs : ¬ MarksLater State.isSpace '\n' '{' s) :
    ¬ MarksLater State.isSpace '\n' '{' (s ++ (inner ++ '}' :: trail.val ++
      fromUtf8Lossy p.last)) := by
  intro h
  rcases marksLater_append h with h | h | ⟨w, q, hfirst, hw⟩
  · exact hs h
  · rcases marksLater_append h with ⟨s, w, q, hsplit, -⟩ | h | ⟨w, q, hlast, -⟩
    · exact hnl (hsplit ▸ by simp)
    · exact not_marksLater (brace_not_mem_last p) h
    · exact brace_not_mem_last p (hlast ▸ by simp)
  · obtain ⟨ws, c, t, hopen, hc, hbrace⟩ := inside_first hinside trail.val
    rw [hopen, List.append_assoc] at hfirst
    exact hbrace (mark_unique hc (by decide) (isSpace_space ws) hw hfirst).1

/-- A line with a second brace behind its first is no object. -/
theorem second_brace (post : Text) {pre w q : Text} {ms : List (Utf16 × Json)}
    (hpre : EndsLine '\n' pre) (hw : ∀ c ∈ w, State.isSpace c = true)
    (hline : '\n' ∉ lead.val ++ '{' :: (w ++ '{' :: q))
    (hpost : StartsLine '\n' post) (hlater : ¬ MarksLater State.isSpace '\n' '{' post) :
    lastJson (pre ++ (lead.val ++ '{' :: (w ++ '{' :: q ++ post))) ≠ some (.obj ms) := by
  intro h
  obtain ⟨inner, b, hq, -, hinside⟩ :=
    lastJson_inside _ hpre (isSpace_space lead) hline hpost hlater h
  obtain ⟨ws, c, t, hfirst, hc, hbrace⟩ := inside_first hinside b
  rw [hfirst] at hq
  exact hbrace (mark_unique hc (by decide) (isSpace_space ws) hw hq.symm).1

end Orders

section AllOrders

variable {N : Type} {number : NumLit → N} {code : Option ℤ} {p : Printout} {T inner : Text}
  {lead trail : Space}

/-! Of a bin whose result is recovered in all orders. -/

variable (h : ∀ data, p.Arrives data → p.Recovered number code data)
  (hline : p.line = lead.val ++ '{' :: (inner ++ '}' :: trail.val))
  (hinside : Inside inner p.members)
include h hline hinside

/-- Nothing but white space is on the line that is recovered in all orders. -/
theorem stderr_space (hT : T = p.stderr.map byteChar) (hsingle : '\n' ∉ T) :
    ∀ c ∈ T, Json.isSpace c = true := by
  have hnl := hline ▸ p.line_single
  -- behind the line
  have hblank : ∀ c ∈ T, State.isSpace c = true := by
    obtain ⟨ms, hbehind, -⟩ := recovered_spread [] T [] _ [] h (by simp [hT])
      (List.append_nil _)
    obtain ⟨inner', b, hq, hb, hinside'⟩ := lastJson_inside _ (w := lead.val)
      (q := inner ++ '}' :: (trail.val ++ T)) (endsLine_before p) (isSpace_space lead)
      (by simp only [List.mem_append, List.mem_cons] at hnl ⊢; tauto) (startsLine_last p)
      (not_marksLater (brace_not_mem_last p)) (by simpa [hline] using hbehind)
    obtain ⟨-, rfl⟩ := inside_unique hinside hinside' hq
    exact fun c hc => hb c (List.mem_append_right _ hc)
  -- behind the brace
  obtain ⟨ms, hin, -⟩ := recovered_spread [] T [] (lead.val ++ ['{'])
    (inner ++ '}' :: trail.val) h (by simp [hT]) (by simp [hline])
  obtain ⟨inner', b, hq, -, hinside'⟩ := lastJson_inside _ (w := lead.val)
    (q := T ++ (inner ++ '}' :: trail.val)) (endsLine_before p) (isSpace_space lead)
    (by simp only [List.mem_append, List.mem_cons] at hnl ⊢; tauto) (startsLine_last p)
    (not_marksLater (brace_not_mem_last p)) (by simpa using hin)
  obtain ⟨ws, c, t, hfirst, hc, -⟩ := inside_first hinside' b
  rw [hfirst] at hq
  rcases List.append_eq_append_iff.mp hq with ⟨d, hd, -⟩ | ⟨d, rfl, hd⟩
  · exact fun c hc => ws.2 c (hd ▸ List.mem_append_left _ hc)
  · cases d with
    | nil => simpa using ws.2
    | cons c' d =>
        obtain ⟨rfl, -⟩ := List.cons.inj hd
        rw [hblank c (by simp)] at hc
        cases hc

/-- White space in a key makes another key. -/
theorem members_nil (hnames : (Json.obj p.members).NamesDistinct)
    (hT : T = p.stderr.map byteChar) (hspace : ∀ c ∈ T, Json.isSpace c = true)
    (hsingle : '\n' ∉ T) (hne : T ≠ []) : p.members = [] := by
  have hnl := hline ▸ p.line_single
  rcases hinside.head with ⟨hnil, -⟩ | ⟨-, ws, t, rfl⟩
  · exact hnil
  obtain ⟨ms, hkey, hvalue⟩ := recovered_spread [] T [] (lead.val ++ '{' :: (ws.val ++ ['"']))
    (t ++ '}' :: trail.val) h (by simp [hT])
    (by simp [hline])
  obtain ⟨inner', b, hq, hb, hinside'⟩ := lastJson_inside _ (w := lead.val)
    (q := ws.val ++ '"' :: (T ++ (t ++ '}' :: trail.val))) (endsLine_before p)
    (isSpace_space lead) (by simp only [List.mem_append, List.mem_cons] at hnl ⊢; tauto)
    (startsLine_last p) (not_marksLater (brace_not_mem_last p)) (by simpa using hkey)
  have hinner : ws.val ++ '"' :: (T ++ t) = inner' :=
    mark_unique_last '}' (by decide) (isSpace_space trail) hb (by simpa using hq)
  have hopen : Lexes ((T.flatMap units).length + 1) ('{' :: ws.val) 0 :=
    Lexes.behind .none (by decide) (lexes_space ws)
  have hparse := hinside'.parse
  rw [← hinner] at hparse
  exact absurd hvalue (value_ne_of_longer (u := '{' :: (ws.val ++ ['"'])) (x := []) (y := T)
    (v := t ++ ['}']) (Nat.lt_succ_self _) hnames (by simpa using hinside.parse)
    (by simpa using hparse) hopen.quote rfl
    (fun c hc => by
      have := hspace c hc
      constructor <;> rintro rfl <;> exact absurd this (by decide))
    (List.length_pos_of_ne_nil hne))

/-- A character that is cut in a string makes another string. -/
theorem line_ascii (hnames : (Json.obj p.members).NamesDistinct) (hempty : p.stderr = []) :
    ∀ c ∈ p.line, c.toNat < 0x80 := by
  intro c hc
  by_contra hnot
  have hnl := hline ▸ p.line_single
  have hwide : 0x80 ≤ c.toNat := Nat.le_of_not_lt hnot
  have hspaces : ∀ ws : Space, c ∉ ws.val := fun ws hmem => by
    have hspace := ws.2 c hmem
    simp only [Json.isSpace, Bool.or_eq_true, decide_eq_true_eq] at hspace
    rcases hspace with ((rfl | rfl) | rfl) | rfl <;> exact absurd hwide (by decide)
  -- the character is between the braces
  have hmem : c ∈ inner := by
    rw [hline] at hc
    simp only [List.mem_append, List.mem_cons, hspaces lead, hspaces trail, false_or,
      or_false] at hc
    rcases hc with rfl | hc | rfl
    · exact absurd hwide (by decide)
    · exact hc
    · exact absurd hwide (by decide)
  obtain ⟨s, t, rfl⟩ := List.append_of_mem hmem
  have hlen := length_units_lt hwide
  have hpos := units_pos c
  obtain ⟨ms, hcut, hvalue⟩ := recovered_cut (c := c) (u := lead.val ++ '{' :: s) (v := t ++ '}' :: trail.val) h
    hempty (by simp [hline]) (by omega)
  have hreplacement : '\n' ∉ List.replicate (encodeChar c).length replacement := fun hmem =>
    absurd (List.eq_of_mem_replicate hmem) (by decide)
  obtain ⟨inner', b, hq, hb, hinside'⟩ := lastJson_inside _ (w := lead.val) (q := s ++
      (List.replicate (encodeChar c).length replacement ++ (t ++ '}' :: trail.val)))
    (endsLine_before p) (isSpace_space lead)
    (by simp only [List.mem_append, List.mem_cons] at hnl ⊢; tauto)
    (startsLine_last p) (not_marksLater (brace_not_mem_last p)) (by simpa using hcut)
  have hinner : s ++ (List.replicate (encodeChar c).length replacement ++ t) = inner' :=
    mark_unique_last '}' (by decide) (isSpace_space trail) hb (by simpa using hq)
  have hparse : parse (('{' :: s) ++ ([c] ++ (t ++ ['}']))) = some (.obj p.members) := by
    simpa using hinside.parse
  have hparse' := hinside'.parse
  rw [← hinner] at hparse'
  set y := List.replicate (encodeChar c).length replacement with hy
  have hread : Lexes ((y.flatMap units).length + 1) _ _ := lexes_of_parse hparse
  obtain ⟨a, _, q, hs, hrest, -⟩ := lex_append_eq_some hread
  obtain ⟨k, _, q', hchar, -, -⟩ := lex_append_eq_some hrest
  obtain ⟨rfl, rfl, rfl⟩ := lex_of_not_ascii hwide hchar
  exact absurd hvalue (value_ne_of_longer (y := y) (Nat.lt_succ_self _) hnames hparse
    (by simpa using hparse') hs hchar (fun d hd => by rw [List.eq_of_mem_replicate hd]; decide)
    (by simpa [hy] using hlen))

/-- A line of stderr breaks the last line in two, or opens another object in it. -/
theorem stderr_single (hT : T = p.stderr.map byteChar) : '\n' ∉ T := by
  intro hmem
  have hnl := hline ▸ p.line_single
  have hrest : '\n' ∉ inner ++ '}' :: trail.val := fun h => hnl (by simp [h])
  by_cases hmarks : MarksLater State.isSpace '\n' '{' ('\n' :: T)
  -- stderr opens an object: the brace of the line comes in front of the last of them
  · obtain ⟨_, _, _, hsplit, hblank⟩ := hmarks
    obtain ⟨pre, w, q, rfl, hpre, hw, hwnl, hlater⟩ := exists_last_mark _ _ _ hsplit hblank
    obtain ⟨ms, hopen, -⟩ := recovered_spread pre (w ++ '{' :: q) [] (lead.val ++ ['{'])
      (inner ++ '}' :: trail.val) h (by simp [hT]) (by simp [hline])
    have hfront : EndsLine '\n' (fromUtf8Lossy p.before ++ pre) := by
      rcases hpre with rfl | ⟨pre, rfl⟩
      · rw [List.append_nil]
        exact endsLine_before p
      · exact .inr ⟨_, (List.append_assoc ..).symm⟩
    by_cases hq : '\n' ∈ q
    · obtain ⟨q₁, q₂, rfl, hq₁⟩ := List.eq_append_cons_of_mem hq
      refine second_brace ('\n' :: q₂ ++ (inner ++ '}' :: trail.val ++ fromUtf8Lossy p.last))
        (w := w) (q := q₁) hfront hw ?_ (.inr ⟨_, rfl⟩) ?_ (by simpa using hopen)
      · simp only [List.mem_append, List.mem_cons] at hnl ⊢
        tauto
      · exact not_marksLater_rest hinside hrest fun hq₂ => hlater (hq₂.behind q₁)
    · refine second_brace _ (w := w) (q := q ++ (inner ++ '}' :: trail.val)) hfront hw ?_
        (startsLine_last p) (not_marksLater (brace_not_mem_last p)) (by simpa using hopen)
      simp only [List.mem_append, List.mem_cons] at hnl ⊢
      tauto
  -- it opens none: its first line cannot both end the object and leave the rest to it
  · obtain ⟨F, G, rfl, hF⟩ := List.eq_append_cons_of_mem hmem
    have hG : ¬ MarksLater State.isSpace '\n' '{' ('\n' :: G) := fun hG =>
      hmarks (hG.behind ('\n' :: F))
    obtain ⟨ms₁, hbroken, -⟩ := recovered_spread [] (F ++ '\n' :: G) [] (lead.val ++ ['{'])
      (inner ++ '}' :: trail.val) h (by simp [hT]) (by simp [hline])
    obtain ⟨inner₁, b₁, hq₁, -, hinside₁⟩ := lastJson_inside
      ('\n' :: G ++ (inner ++ '}' :: trail.val ++ fromUtf8Lossy p.last)) (w := lead.val) (q := F)
      (endsLine_before p) (isSpace_space lead)
      (by simp only [List.mem_append, List.mem_cons] at hnl ⊢; tauto) (.inr ⟨_, rfl⟩)
      (not_marksLater_rest hinside hrest hG) (by simpa using hbroken)
    obtain ⟨ms₂, hwhole, -⟩ := recovered_spread [] F ('\n' :: G) (lead.val ++ ['{'])
      (inner ++ '}' :: trail.val) h (by simp [hT]) (by simp [hline])
    obtain ⟨inner₂, b₂, hq₂, hb₂, hinside₂⟩ := lastJson_inside
      ('\n' :: G ++ fromUtf8Lossy p.last) (w := lead.val) (q := F ++ (inner ++ '}' :: trail.val))
      (endsLine_before p) (isSpace_space lead)
      (by simp only [List.mem_append, List.mem_cons] at hnl ⊢; tauto) (.inr ⟨_, rfl⟩)
      (by
        intro hlater
        rcases marksLater_append hlater with h | h | ⟨w, q, hlast, -⟩
        · exact hG h
        · exact not_marksLater (brace_not_mem_last p) h
        · exact brace_not_mem_last p (hlast ▸ by simp))
      (by simpa using hwhole)
    rw [hq₁, List.append_assoc, List.cons_append] at hq₂
    obtain ⟨-, rfl⟩ := inside_unique hinside₁ hinside₂ hq₂
    exact absurd (hb₂ '}' (by simp)) (by decide)

end AllOrders

/-- **An object that writes each name once is recovered in every order of the pieces of the
output exactly if nothing can disturb it.** Any object is recovered in every order if nothing
can disturb it, and in an order that does not disturb it, whatever the bin prints. -/
theorem recovered_iff {N : Type} (number : NumLit → N) (p : Printout) (code : Option ℤ) :
    ((Json.obj p.members).NamesDistinct →
        ((∀ data, p.Arrives data → p.Recovered number code data) ↔ p.Undisturbed)) ∧
      (p.Undisturbed → ∀ data, p.Arrives data → p.Recovered number code data) ∧
      ∀ data, p.Arrives data → p.Apart data → p.Recovered number code data := by
  have hundisturbed : p.Undisturbed → ∀ data, p.Arrives data → p.Recovered number code data :=
    fun hp data hdata => recovered_of_undisturbed hp hdata
  refine ⟨fun hnames => ⟨fun h => ?_, hundisturbed⟩, hundisturbed,
    fun data _ hapart => recovered_of_apart hapart⟩
  obtain ⟨lead, trail, inner, hline, hinside⟩ := inside_of_parse p.line_object
  have hsingle := stderr_single h hline hinside rfl
  have hspace := stderr_space h hline hinside rfl hsingle
  by_cases hempty : p.stderr = []
  · exact .inl ⟨hempty, line_ascii h hline hinside hnames hempty⟩
  · refine .inr ⟨members_nil h hline hinside hnames rfl hspace hsingle (by simpa using hempty), ?_⟩
    intro x hx
    have hchar : byteChar x ∈ p.stderr.map byteChar := List.mem_map_of_mem hx
    exact blank_of_byteChar (hspace _ hchar) fun hnl => hsingle (hnl ▸ hchar)

/-! ## A warning in the middle of the line -/

/-- A settlement that has landed, and a warning. -/
def warned : Printout :=
  .ofObject [(utf16 "refund", .str (utf16 "458"))] (encodeUtf8 "warning\n".toList)

/-- The warning comes between two pieces of the line. -/
def warnedData : List Chunk :=
  [⟨.stdout, encodeUtf8 "\x7b\"refund\"".toList⟩, ⟨.stderr, encodeUtf8 "warning\n".toList⟩,
    ⟨.stdout, encodeUtf8 ":\"458\"\x7d\n".toList⟩]

theorem warning_hides_line : ¬ ∀ (p : Printout) (code : Option ℤ) (data : List Chunk),
    p.Arrives data → p.Recovered id code data := by
  intro h
  have harrives : warned.Arrives warnedData := ⟨by decide +kernel, by decide +kernel⟩
  have hlost : lastJson (run (some 0) warnedData).out = none := by
    apply Option.isNone_iff_eq_none.mp
    decide +kernel
  have hrecovered := h warned (some 0) warnedData harrives
  rw [Printout.Recovered, hlost] at hrecovered
  cases hrecovered

/-- The warning disturbs the line, and so it is lost in some order. -/
theorem recovered_iff_warned :
    ¬ ∀ data, warned.Arrives data → warned.Recovered id (some 0) data := by
  have hdisturbed : ¬ warned.Undisturbed := by
    rintro (⟨hempty, -⟩ | ⟨hmembers, -⟩)
    · exact absurd hempty (by decide)
    · cases hmembers
  exact fun h => hdisturbed (((recovered_iff id warned (some 0)).1
    ⟨by decide, trivial, trivial⟩).mp h)

end Bartok.Bridge
