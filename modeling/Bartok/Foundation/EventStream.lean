import Bartok.Foundation.LineReader

/-!
# Event streams

The `text/event-stream` format. A stream is lines, each ended by a CR, an LF or both; a line
is a field with its value, and an empty line hands over the message that the fields before it
describe. What is not ended by an empty line is never handed over. A reader of such a stream
gets the same messages however the bytes were cut, and of the first bytes of a stream it gets
the first messages.
-/

namespace Bartok.Foundation

namespace Text

/-! ## Machines that read and write -/

section Machine

variable {σ α β : Type*}

/-- What a machine writes while it reads a list. -/
def transduce (next : σ → α → σ × List β) : σ → List α → σ × List β
  | s, [] => (s, [])
  | s, a :: as =>
      let r := next s a
      let rest := transduce next r.1 as
      (rest.1, r.2 ++ rest.2)

variable {next : σ → α → σ × List β} {s : σ} {a : α} {as as' : List α}

@[simp] theorem transduce_nil : transduce next s [] = (s, []) := rfl

theorem transduce_cons : transduce next s (a :: as) =
    ((transduce next (next s a).1 as).1, (next s a).2 ++ (transduce next (next s a).1 as).2) := rfl

theorem transduce_append : transduce next s (as ++ as') =
    ((transduce next (transduce next s as).1 as').1,
      (transduce next s as).2 ++ (transduce next (transduce next s as).1 as').2) := by
  induction as generalizing s with
  | nil => rfl
  | cons a as ih => rw [List.cons_append, transduce_cons, transduce_cons, ih, List.append_assoc]

/-- A machine that reads pieces as it reads the whole. -/
theorem transduce_pieces {read : σ → List α → σ × List β} (hnil : ∀ s, read s [] = (s, []))
    (happend : ∀ s as as', read s (as ++ as') =
      ((read (read s as).1 as').1, (read s as).2 ++ (read (read s as).1 as').2))
    (pieces : List (List α)) : transduce read s pieces = read s pieces.flatten := by
  induction pieces generalizing s with
  | nil => exact (hnil s).symm
  | cons piece pieces ih =>
      rw [transduce_cons, ih, List.flatten_cons]
      exact (happend s piece pieces.flatten).symm

end Machine

/-! ## The format -/

structure Message where
  type : Text
  data : Text
  lastEventId : Text
deriving DecidableEq

/-- Between two characters: the line that is not finished, whether an LF would belong to the
line before, and what the fields of the next message say so far. -/
structure EventStream where
  line : Text
  afterCR : Bool
  type : Text
  data : Text
  id : Text

namespace EventStream

def new : EventStream := ⟨[], false, [], [], []⟩

/-- What follows the colon, without one space. -/
def fieldValue : Text → Text
  | [] => []
  | _ :: ' ' :: value => value
  | _ :: value => value

/-- A line that is not empty; one that begins with a colon has no name and says nothing. -/
def field (q : EventStream) (line : Text) : EventStream :=
  let name := line.takeWhile (· ≠ ':')
  let value := fieldValue (line.dropWhile (· ≠ ':'))
  if name = "event".toList then { q with type := value }
  else if name = "data".toList then { q with data := q.data ++ value ++ ['\n'] }
  else if name = "id".toList then (if '\x00' ∈ value then q else { q with id := value })
  -- `retry` is a time, and no part of a message
  else q

/-- An empty line; nothing is handed over when no field was data. -/
def dispatch (q : EventStream) : EventStream × List Message :=
  ({ q with type := [], data := [] },
    if q.data = [] then []
    else [⟨if q.type = [] then "message".toList else q.type, q.data.dropLast, q.id⟩])

def endLine (q : EventStream) : EventStream × List Message :=
  if q.line = [] then q.dispatch else ({ q.field q.line with line := [] }, [])

def isLineEnd (c : Char) : Bool := c = '\n' || c = '\r'

def next (q : EventStream) (c : Char) : EventStream × List Message :=
  if c = '\n' ∧ q.afterCR = true then ({ q with afterCR := false }, [])
  else if isLineEnd c then
    let r := q.endLine
    ({ r.1 with afterCR := c = '\r' }, r.2)
  else ({ q with line := q.line ++ [c], afterCR := false }, [])

def read : EventStream → Text → EventStream × List Message := transduce next

/-! ## A message as it is written -/

/-- A message of one line of data. -/
def frame (type data : Text) : Text :=
  "event: ".toList ++ type ++ "\ndata: ".toList ++ data ++ "\n\n".toList

/-- No field has been read since the last message. -/
def between (id : Text) : EventStream := ⟨[], false, [], [], id⟩

section Frames

variable {q : EventStream} {t t' name value type data id : Text} {c : Char}

theorem read_cons : q.read (c :: t) =
    (((q.next c).1.read t).1, (q.next c).2 ++ ((q.next c).1.read t).2) := rfl

theorem read_append : q.read (t ++ t') =
    (((q.read t).1.read t').1, (q.read t).2 ++ ((q.read t).1.read t').2) := transduce_append

theorem read_text (ht : ∀ c ∈ t, isLineEnd c = false) (hq : q.afterCR = false) :
    q.read t = ({ q with line := q.line ++ t }, []) := by
  induction t generalizing q with
  | nil =>
      rw [List.append_nil]
      rfl
  | cons c t ih =>
      obtain ⟨hc, ht⟩ := List.forall_mem_cons.mp ht
      have hnext : q.next c = ({ q with line := q.line ++ [c], afterCR := false }, []) := by
        rw [next, if_neg (by simp [hq]), hc]
        rfl
      rw [read_cons, hnext, ih ht rfl, hq]
      simp

theorem next_newline (hq : q.afterCR = false) :
    q.next '\n' = ({ q.endLine.1 with afterCR := false }, q.endLine.2) := by
  rw [next, if_neg (by simp [hq])]
  rfl

theorem field_line : ({ q with line := t } : EventStream).field t' =
    { q.field t' with line := t } := by
  unfold field
  dsimp only
  split_ifs <;> rfl

/-- A line and its end, in front of which no other line is open. -/
theorem read_line (ht : ∀ c ∈ t, isLineEnd c = false) (hne : t ≠ []) (hline : q.line = [])
    (hq : q.afterCR = false) :
    q.read (t ++ ['\n']) = ({ q.field t with line := [], afterCR := false }, []) := by
  have hend : ({ q with line := t } : EventStream).next '\n' =
      ({ q.field t with line := [], afterCR := false }, []) := by
    rw [next_newline (q := { q with line := t }) hq, endLine, if_neg hne, field_line]
  rw [read_append, read_text ht hq, hline, List.nil_append, read_cons]
  dsimp only
  rw [hend]
  rfl

theorem field_eq (hname : ':' ∉ name) : q.field (name ++ ':' :: ' ' :: value) =
    if name = "event".toList then { q with type := value }
    else if name = "data".toList then { q with data := q.data ++ value ++ ['\n'] }
    else if name = "id".toList then (if '\x00' ∈ value then q else { q with id := value })
    else q := by
  have hplain : ∀ c ∈ name, decide (c ≠ ':') = true := fun c hc => by
    simpa using ne_of_mem_of_not_mem hc hname
  have hbefore : (name ++ ':' :: ' ' :: value).takeWhile (· ≠ ':') = name := by
    rw [List.takeWhile_append_of_pos hplain]
    simp
  have hafter : (name ++ ':' :: ' ' :: value).dropWhile (· ≠ ':') = ':' :: ' ' :: value := by
    rw [List.dropWhile_append_of_pos hplain]
    simp
  rw [field, hbefore, hafter, fieldValue]

theorem isLineEnd_field (hname : ∀ c ∈ name, isLineEnd c = false)
    (hvalue : ∀ c ∈ value, isLineEnd c = false) :
    ∀ c ∈ name ++ ':' :: ' ' :: value, isLineEnd c = false := by
  intro c hc
  rcases List.mem_append.mp hc with hc | hc
  · exact hname c hc
  · rcases List.mem_cons.mp hc with rfl | hc
    · rfl
    · rcases List.mem_cons.mp hc with rfl | hc
      · rfl
      · exact hvalue c hc

theorem isLineEnd_of_all (h : name.all (fun c => !isLineEnd c) = true) :
    ∀ c ∈ name, isLineEnd c = false := by
  intro c hc
  have hplain := List.all_eq_true.mp h c hc
  rwa [Bool.not_eq_true'] at hplain

theorem read_event (htype : ∀ c ∈ type, isLineEnd c = false) :
    (between id).read ("event".toList ++ ':' :: ' ' :: type ++ ['\n']) =
      (⟨[], false, type, [], id⟩, []) := by
  have hname : ∀ c ∈ "event".toList, isLineEnd c = false := isLineEnd_of_all (by decide)
  rw [read_line (isLineEnd_field hname htype) (by simp) rfl rfl, field_eq (by decide), if_pos rfl]
  rfl

theorem read_data (hdata : ∀ c ∈ data, isLineEnd c = false) :
    (⟨[], false, type, [], id⟩ : EventStream).read ("data".toList ++ ':' :: ' ' :: data ++ ['\n']) =
      (⟨[], false, type, data ++ ['\n'], id⟩, []) := by
  have hname : ∀ c ∈ "data".toList, isLineEnd c = false := isLineEnd_of_all (by decide)
  rw [read_line (isLineEnd_field hname hdata) (by simp) rfl rfl, field_eq (by decide),
    if_neg (by decide), if_pos rfl]
  rfl

theorem read_empty (hne : type ≠ []) :
    (⟨[], false, type, data ++ ['\n'], id⟩ : EventStream).read ['\n'] =
      (between id, [⟨type, data, id⟩]) := by
  rw [read_cons, next_newline rfl, endLine, if_pos rfl, dispatch,
    if_neg (List.append_ne_nil_of_right_ne_nil _ (List.cons_ne_nil _ _)), if_neg hne,
    List.dropLast_concat]
  rfl

theorem frame_eq : frame type data = ("event".toList ++ ':' :: ' ' :: type ++ ['\n']) ++
    (("data".toList ++ ':' :: ' ' :: data ++ ['\n']) ++ ['\n']) := by
  have hevent : "event: ".toList = "event".toList ++ [':', ' '] := by decide
  have hdata : "\ndata: ".toList = '\n' :: "data".toList ++ [':', ' '] := by decide
  have hend : "\n\n".toList = ['\n', '\n'] := by decide
  unfold frame
  rw [hevent, hdata, hend]
  simp only [List.append_assoc, List.cons_append, List.nil_append]

/-- A message that is written is read. -/
theorem read_frame (hne : type ≠ []) (htype : ∀ c ∈ type, isLineEnd c = false)
    (hdata : ∀ c ∈ data, isLineEnd c = false) :
    (between id).read (frame type data) = (between id, [⟨type, data, id⟩]) := by
  rw [frame_eq, read_append, read_event htype, read_append, read_data hdata, read_empty hne]
  rfl

/-- Messages one after the other. -/
theorem read_frames {ms : List (Text × Text)} (h : ∀ m ∈ ms, m.1 ≠ [] ∧
      (∀ c ∈ m.1, isLineEnd c = false) ∧ ∀ c ∈ m.2, isLineEnd c = false) :
    (between id).read (ms.flatMap fun m => frame m.1 m.2) =
      (between id, ms.map fun m => ⟨m.1, m.2, id⟩) := by
  induction ms with
  | nil => rfl
  | cons m ms ih =>
      obtain ⟨⟨hne, htype, hdata⟩, hrest⟩ := List.forall_mem_cons.mp h
      rw [List.flatMap_cons, read_append, read_frame hne htype hdata, ih hrest]
      rfl

end Frames

end EventStream

/-! ## A stream of bytes -/

/-- Between two pieces: the decoder and the stream. -/
structure EventSource where
  dec : TextDecoder
  stream : EventStream

namespace EventSource

def new : EventSource := ⟨.new, .new⟩

/-- One piece. -/
def receive (src : EventSource) (bytes : List UInt8) : EventSource × List Message :=
  let decoded := src.dec.decode bytes
  let r := src.stream.read decoded.1
  (⟨decoded.2, r.1⟩, r.2)

/-- The messages that the pieces of a stream give. -/
def messages (chunks : List (List UInt8)) : List Message := (transduce receive new chunks).2

section Pieces

variable {src : EventSource} {bytes bytes' : List UInt8} {chunks : List (List UInt8)}
  {ms : List (Text × Text)}

theorem receive_nil : src.receive [] = (src, []) := by
  rw [receive, TextDecoder.decode_nil]
  rfl

theorem receive_append : src.receive (bytes ++ bytes') =
    (((src.receive bytes).1.receive bytes').1,
      (src.receive bytes).2 ++ ((src.receive bytes).1.receive bytes').2) := by
  simp only [receive, TextDecoder.decode_append, EventStream.read_append]

theorem messages_eq (chunks : List (List UInt8)) :
    messages chunks = (new.receive chunks.flatten).2 :=
  congrArg Prod.snd (transduce_pieces (fun _ => receive_nil) (fun _ _ _ => receive_append) chunks)

/-- The first bytes give the first messages. -/
theorem messages_prefix (h : chunks.flatten <+: bytes) :
    messages chunks <+: (new.receive bytes).2 := by
  obtain ⟨rest, rfl⟩ := h
  rw [messages_eq, receive_append]
  exact List.prefix_append _ _

/-- **However the bytes of some messages are cut, these messages are received, in their
order.** -/
theorem receive_frames (h : ∀ m ∈ ms, m.1 ≠ [] ∧ (∀ c ∈ m.1, EventStream.isLineEnd c = false) ∧
      ∀ c ∈ m.2, EventStream.isLineEnd c = false) :
    (new.receive (encodeUtf8 (ms.flatMap fun m => EventStream.frame m.1 m.2))).2 =
      ms.map fun m => ⟨m.1, m.2, []⟩ := by
  have hmark : (ms.flatMap fun m => EventStream.frame m.1 m.2).head? ≠ some byteOrderMark := by
    cases ms with
    | nil => simp
    | cons m ms =>
        have hfirst : "event".toList = 'e' :: "vent".toList := by decide
        rw [List.flatMap_cons, EventStream.frame_eq, hfirst]
        intro hhead
        exact absurd (Option.some.inj hhead) (by decide)
  rw [receive, new, TextDecoder.decode_encodeUtf8 hmark]
  have hread : EventStream.new.read _ = _ := EventStream.read_frames h
  exact congrArg Prod.snd hread

end Pieces

end EventSource

end Text

end Bartok.Foundation
