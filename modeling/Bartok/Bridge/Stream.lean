import Bartok.Bridge.Handlers
import Bartok.Foundation.JsonCompact
import Bartok.Foundation.JsonValue
import Bartok.Foundation.LineReader

/-!
# The event stream between bridge and page

`/api/chat` and `/api/session/end` answer with one JSON object per line, and `runMessage` and
`settleUp` read them while they come. The network cuts the bytes where it likes: the reader
loops keep an unfinished character in the decoder and an unfinished line in `buf`, and their
events are those that the bridge emitted, in that order.
-/

namespace Bartok.Bridge

open Foundation Text Json

/-! ## The bridge's side -/

/-- What `ndjsonHead` writes for one event. -/
def emit (obj : Json) : Text := stringify obj ++ ['\n']

def ndjson (evts : List Json) : Text := evts.flatMap emit

/-! ## The page's side -/

/-- What the page's script takes from JavaScript: the text of a number, how deep arrays may
be nested for `String`, and what every object inherits. -/
structure Browser where
  numText : NumLit → Utf16
  stack : ℕ
  /-- The property of this name that `STAGE_LABELS` inherits, as it is shown. -/
  inherited : Utf16 → Option String

/-- What the loop throws. -/
inductive ReadError
  | syntaxError
  | typeError

def stageLabels : List (String × String) :=
  [("answer", "Delivering your question…"), ("thinking", "João is thinking…"),
    ("received", "Answer's in — sealing the proof…"), ("verify", "Checking it's genuine…"),
    ("settle", "Wrapping up your chat…"),
    ("settle_wait", "Network is busy — retrying automatically, hang tight…")]

/-- `STAGE_LABELS[evt.stage] || fallback`; the stage becomes a property name first. -/
def Browser.label (br : Browser) (fallback : String) (evt : Json) : Except ReadError String :=
  let key := (evt.get "stage").bind fun
    | none => some (utf16 "undefined")
    | some v => v.toText br.numText br.stack
  match key with
  | none => .error .typeError
  | some key =>
      let own := (stageLabels.find? fun l => utf16 l.1 = key).map Prod.snd
      .ok ((own.or (br.inherited key)).getD fallback)

/-- What a reader loop has made of the events: what the page shows, and `data`. -/
structure Progress (ui : Type) where
  shown : ui
  data : Option Json

section Loop

variable {ui : Type} (onStage : ui → Json → Except ReadError ui)

/-- `value === name`. -/
def isText (name : String) : Option Json → Bool
  | some (.str us) => us = utf16 name
  | _ => false

def onEvent (p : Progress ui) (evt : Json) : Except ReadError (Progress ui) :=
  match evt.get "type" with
  | none => .error .typeError
  | some type =>
      if isText "stage" type then (onStage p.shown evt).map fun shown => { p with shown := shown }
      else if isText "done" type then .ok { p with data := some evt }
      else .ok p

def onLine (p : Progress ui) (line : Text) : Except ReadError (Progress ui) :=
  let line := State.trim line
  if line = [] then .ok p
  else
    match parse line with
    | none => .error .syntaxError
    | some evt => onEvent onStage p evt

/-- The loop over the chunks that `reader.read()` gives. -/
def readEvents (shown : ui) (chunks : List (List UInt8)) : Except ReadError (Progress ui) :=
  (chunks.foldlM (Reader.feed (onLine onStage)) (Reader.new ⟨shown, none⟩)).map Reader.state

end Loop

/-- `setStage` in `runMessage`. -/
def messageStage (br : Browser) (_ : String) (evt : Json) : Except ReadError String :=
  br.label "Working…" evt

def runMessageLoop (br : Browser) : List (List UInt8) → Except ReadError (Progress String) :=
  readEvents (messageStage br) "Delivering your question…"

/-- `settleUp` shows the stage where the element for it is on the page. -/
def wrapStage (br : Browser) : Option String → Json → Except ReadError (Option String)
  | none, _ => .ok none
  | some _, evt => (br.label "Wrapping up…" evt).map some

def settleUpLoop (br : Browser) (shown : Option String) :
    List (List UInt8) → Except ReadError (Progress (Option String)) :=
  readEvents (wrapStage br) shown

/-! ## What arrives -/

section Arrives

variable {ui : Type} {onStage : ui → Json → Except ReadError ui} {ms : List (Utf16 × Json)}
  {evts : List (List (Utf16 × Json))} {chunks : List (List UInt8)} {shown : ui} {p : Progress ui}

theorem trim_stringify : State.trim (stringify (.obj ms)) = stringify (.obj ms) := by
  obtain ⟨inner, h⟩ := stringify_obj ms
  rw [h, State.trim_braces]

theorem ndjson_eq : ndjson (evts.map Json.obj) = joinLines ((evts.map Json.obj).map stringify) := by
  rw [ndjson, joinLines, List.flatMap_map (f := stringify)]
  rfl

theorem onLine_stringify :
    onLine onStage p (stringify (.obj ms)) = onEvent onStage p (.obj ms) := by
  obtain ⟨inner, h⟩ := stringify_obj ms
  have hne : stringify (.obj ms) ≠ [] := h ▸ List.cons_ne_nil _ _
  rw [onLine, trim_stringify]
  simp only [hne, if_false]
  rw [stringify, parse_print]

/-- The loop is the handler of the events, called for each of them in turn. -/
theorem readEvents_eq (h : chunks.flatten = encodeUtf8 (ndjson (evts.map Json.obj))) :
    readEvents onStage shown chunks =
      (evts.map Json.obj).foldlM (onEvent onStage) ⟨shown, none⟩ := by
  have hlines : ∀ line ∈ (evts.map Json.obj).map stringify, '\n' ∉ line := by
    intro line hline
    obtain ⟨evt, -, rfl⟩ := List.mem_map.mp hline
    exact newline_not_mem_stringify evt
  have hmark : (joinLines ((evts.map Json.obj).map stringify)).head? ≠ some byteOrderMark := by
    cases evts with
    | nil => decide
    | cons ms evts =>
        obtain ⟨inner, hinner⟩ := stringify_obj ms
        rw [List.map_cons, List.map_cons, joinLines, List.flatMap_cons, hinner]
        exact fun hhead => absurd (Option.some.inj hhead) (by decide)
  rw [ndjson_eq] at h
  rw [readEvents, Reader.feed_lines _ hlines hmark h, List.foldlM_map, List.foldlM_map,
    List.foldlM_map]
  congr 1
  funext p ms
  exact onLine_stringify

def isDone (evt : Json) : Bool := (evt.get "type").any (isText "done")

/-- The event that `data` is left with. -/
def lastDone (evts : List Json) : Option Json := (evts.filter isDone).getLast?

theorem isText_done {type : Option Json} (h : isText "stage" type = true) :
    isText "done" type = false := by
  unfold isText at h ⊢
  split at h
  · next us =>
      obtain rfl := of_decide_eq_true h
      exact decide_eq_false (by decide)
  · cases h

theorem data_onEvent {evt : Json} {p' : Progress ui} (h : onEvent onStage p evt = .ok p') :
    p'.data = if isDone evt then some evt else p.data := by
  cases htype : evt.get "type" with
  | none =>
      rw [onEvent, htype] at h
      cases h
  | some type =>
      have hdone : isDone evt = isText "done" type := by rw [isDone, htype, Option.any_some]
      rw [onEvent, htype] at h
      dsimp only at h
      by_cases hstage : isText "stage" type = true
      · rw [if_pos hstage] at h
        rw [if_neg (by rw [hdone, isText_done hstage]; exact Bool.false_ne_true)]
        cases hshown : onStage p.shown evt with
        | error e => rw [hshown] at h; cases h
        | ok shown => rw [hshown] at h; cases h; rfl
      · rw [if_neg hstage] at h
        by_cases hlast : isText "done" type = true
        · rw [if_pos hlast] at h
          rw [if_pos (hdone.trans hlast)]
          cases h
          rfl
        · rw [if_neg hlast] at h
          rw [if_neg (hdone ▸ hlast)]
          cases h
          rfl

theorem data_foldlM {evts : List Json} {p' : Progress ui}
    (h : evts.foldlM (onEvent onStage) p = .ok p') : p'.data = (lastDone evts).or p.data := by
  induction evts generalizing p with
  | nil => cases h; rfl
  | cons evt evts ih =>
      rw [List.foldlM_cons] at h
      cases hfirst : onEvent onStage p evt with
      | error e => rw [hfirst] at h; cases h
      | ok p₁ =>
          rw [hfirst] at h
          rw [ih h, data_onEvent hfirst, lastDone, lastDone, List.filter_cons]
          split
          · rw [List.getLast?_cons]
            cases (evts.filter isDone).getLast? <;> rfl
          · rfl

/-- **Any chunking gives the events.** However the bytes of the emitted events are cut, both
reader loops handle exactly these events, in their order, and are left with the last one that
says `done`. -/
theorem any_chunking (br : Browser) (wrap : Option String)
    (h : chunks.flatten = encodeUtf8 (ndjson (evts.map Json.obj))) :
    runMessageLoop br chunks = (evts.map Json.obj).foldlM (onEvent (messageStage br))
        ⟨"Delivering your question…", none⟩ ∧
      settleUpLoop br wrap chunks = (evts.map Json.obj).foldlM (onEvent (wrapStage br)) ⟨wrap, none⟩ ∧
      (∀ p, runMessageLoop br chunks = .ok p → p.data = lastDone (evts.map Json.obj)) ∧
      ∀ p, settleUpLoop br wrap chunks = .ok p → p.data = lastDone (evts.map Json.obj) := by
  have hmessage : runMessageLoop br chunks = _ := readEvents_eq h
  have hsettle : settleUpLoop br wrap chunks = _ := readEvents_eq h
  refine ⟨hmessage, hsettle, fun p hp => ?_, fun p hp => ?_⟩
  · exact (data_foldlM (hmessage.symm.trans hp)).trans (Option.or_none)
  · exact (data_foldlM (hsettle.symm.trans hp)).trans (Option.or_none)

end Arrives

/-! Every byte in a chunk of its own. -/

def demoBrowser : Browser := ⟨fun n => n.text.flatMap units, 0, fun _ => none⟩

def demoReply : List (Utf16 × Json) :=
  [(utf16 "type", .str (utf16 "done")), (utf16 "reply", .str (utf16 "Olá 👋"))]

def demoEvents : List (List (Utf16 × Json)) :=
  [[(utf16 "type", .str (utf16 "stage")), (utf16 "stage", .str (utf16 "thinking"))], demoReply]

theorem any_chunking_demo :
    runMessageLoop demoBrowser ((encodeUtf8 (ndjson (demoEvents.map Json.obj))).map fun b => [b]) =
      .ok ⟨"João is thinking…", some (.obj demoReply)⟩ :=
  (any_chunking demoBrowser none (List.flatMap_singleton' _)).1.trans rfl

end Bartok.Bridge
