import Bartok.Foundation.Unicode
import Bartok.Proof.Disclosure
import Bartok.Proof.Request

/-!
# The memory of a session

Each delivered reply is remembered by its first 400 code units, and sent again with the
messages that follow. The prover reads the conversation as JSON, in which half of a
surrogate pair is an error. A reply that is cut between the two halves stays in the
history with one of them.
-/

namespace Bartok.Proof

open Foundation Json Text Bridge State

/-- A message and the reply that was delivered to it. -/
structure Round where
  prompt : JsString
  answer : Answer

/-- The history after these rounds, of which `/api/chat` appends one after the other. -/
def historyOf (rounds : List Round) : List Turn :=
  rounds.flatMap fun r => [⟨.user, r.prompt⟩, ⟨.assistant, gist r.answer.reply⟩]

theorem history_pushTurns (s : Session) : ∀ rounds : List Round,
    (rounds.foldl (fun s r => pushTurns r.prompt r.answer s) s).history.getD [] =
      s.history.getD [] ++ historyOf rounds
  | [] => (List.append_nil _).symm
  | r :: rounds => by
      have hcons : historyOf (r :: rounds) =
          [⟨.user, r.prompt⟩, ⟨.assistant, gist r.answer.reply⟩] ++ historyOf rounds := rfl
      rw [List.foldl_cons, history_pushTurns _ rounds, hcons, ← List.append_assoc]
      rfl

/-- The members of a message, as pairs of texts. -/
def chatMessage (m : JsString × JsString) : Json :=
  .obj [(utf16 "role", .str m.1), (utf16 "content", .str m.2)]

/-- `serde_json` reads the messages exactly if their texts are Unicode: the escape of a
lone surrogate is an error. -/
def ReadsChat (fromStr : Text → Option Json) : Prop :=
  ∀ ms : List (JsString × JsString), (fromStr (stringify (.arr (ms.map chatMessage)))).isSome ↔
    ∀ m ∈ ms, WellFormed m.1 ∧ WellFormed m.2

/-- The conversation that goes with the next message. -/
def nextMessages (rounds : List Round) (prompt : JsString) : List SentTurn :=
  (buildMessages ((historyOf rounds).map Turn.sent) (.str prompt)).messages

/-- The history, and each conversation built from it, holds only texts, and the prover
reads it. -/
structure TextSafe (fromStr : Text → Option Json) (rounds : List Round) : Prop where
  history : ∀ t ∈ historyOf rounds, WellFormed t.content
  messages : ∀ prompt, WellFormed prompt → ∀ m ∈ nextMessages rounds prompt,
    ∃ us, m.content = .str us ∧ WellFormed us
  accepted : ∀ prompt, WellFormed prompt → ∀ msgTier,
    (fromStr (stringify (.arr (messagesJson msgTier (nextMessages rounds prompt))))).isSome

/-- The cut of the reply falls between the halves of a pair. -/
def CutInPair (reply : JsString) : Prop :=
  400 < reply.length ∧ ∃ u ∈ reply[399]?, isHighSurrogate u = true

section Memory

variable {reply : JsString} {rounds : List Round} {prompt : JsString} {msgTier : Json}
  {fromStr : Text → Option Json}

theorem wellFormed_gist_iff (h : WellFormed reply) :
    WellFormed (gist reply) ↔ ¬ CutInPair reply := by
  unfold gist
  split
  · next hlong =>
      have hlast : (reply.take 400).getLast? = reply[399]? := by
        have hsome : reply[399]? = some reply[399] := List.getElem?_eq_getElem (by omega)
        rw [List.getLast?_take, if_neg (by decide), hsome]
        rfl
      rw [wellFormed_concat (show units '…' = [0x2026] by decide), wellFormed_take_iff h, hlast,
        CutInPair]
      simp [hlong]
  · next hshort => exact iff_of_true h fun hcut => hshort hcut.1

/-- The members of a turn. -/
def Turn.pair (t : Turn) : JsString × JsString := (utf16 t.role.name, t.content)

theorem sent_json (t : Turn) : (Turn.sent t).json = chatMessage (Turn.pair t) := rfl

/-- What is sent are the last turns of the history and the prompt. -/
theorem nextMessages_suffix : ∃ kept : List Turn, kept <:+ historyOf rounds ++ [⟨.user, prompt⟩] ∧
    nextMessages rounds prompt = kept.map Turn.sent := by
  have hsuffix : nextMessages rounds prompt <:+
      turnsOf ((historyOf rounds).map Turn.sent) (.str prompt) := buildMessages_spec.1.suffix
  have hturns : turnsOf ((historyOf rounds).map Turn.sent) (.str prompt) =
      (historyOf rounds ++ [⟨.user, prompt⟩] : List Turn).map Turn.sent := by
    rw [List.map_append]
    rfl
  rw [hturns] at hsuffix
  exact List.suffix_map_iff.mp hsuffix

/-- The role of a message is a text. -/
theorem wellFormed_utf16 (s : String) : WellFormed (utf16 s) := ⟨s.toList, rfl⟩

theorem accepted_of_wellFormed (hserde : ReadsChat fromStr) {turns : List Turn}
    (h : ∀ t ∈ turns, WellFormed t.content) :
    (fromStr (stringify (.arr (messagesJson msgTier (turns.map Turn.sent))))).isSome := by
  have hpairs : ∀ m ∈ turns.map Turn.pair, WellFormed m.1 ∧ WellFormed m.2 := by
    intro m hm
    obtain ⟨t, ht, rfl⟩ := List.mem_map.mp hm
    exact ⟨wellFormed_utf16 _, h t ht⟩
  have hjson : (turns.map Turn.sent).map SentTurn.json = (turns.map Turn.pair).map chatMessage := by
    rw [List.map_map, List.map_map]
    exact List.map_congr_left fun t _ => sent_json t
  rw [messagesJson, hjson]
  split
  · exact (hserde _).mpr hpairs
  · have hsystem : noThink :: (turns.map Turn.pair).map chatMessage =
        ((utf16 "system", utf16 "/no_think") :: turns.map Turn.pair).map chatMessage := rfl
    rw [hsystem, hserde]
    exact List.forall_mem_cons.mpr ⟨⟨wellFormed_utf16 _, wellFormed_utf16 _⟩, hpairs⟩

/-- The half stays in the history. -/
theorem not_cut_of_safe {r : Round} (h : TextSafe fromStr rounds) (hr : r ∈ rounds)
    (hreply : WellFormed r.answer.reply) : ¬ CutInPair r.answer.reply := by
  have hturn : (⟨.assistant, gist r.answer.reply⟩ : Turn) ∈ historyOf rounds :=
    List.mem_flatMap.mpr ⟨r, hr, by simp⟩
  exact (wellFormed_gist_iff hreply).mp (h.history _ hturn)

/-- **The conversation is text exactly if no reply is cut between the halves of a pair.** -/
theorem text_safe_iff (hserde : ReadsChat fromStr)
    (hrounds : ∀ r ∈ rounds, WellFormed r.prompt ∧ WellFormed r.answer.reply) :
    TextSafe fromStr rounds ↔ ∀ r ∈ rounds, ¬ CutInPair r.answer.reply := by
  constructor
  · exact fun h r hr => not_cut_of_safe h hr (hrounds r hr).2
  · intro h
    have hhistory : ∀ t ∈ historyOf rounds, WellFormed t.content := by
      intro t ht
      obtain ⟨r, hr, ht⟩ := List.mem_flatMap.mp ht
      simp only [List.mem_cons, List.not_mem_nil, or_false] at ht
      rcases ht with rfl | rfl
      · exact (hrounds r hr).1
      · exact (wellFormed_gist_iff (hrounds r hr).2).mpr (h r hr)
    have hturns : ∀ {prompt}, WellFormed prompt →
        ∀ t ∈ historyOf rounds ++ [⟨.user, prompt⟩], WellFormed t.content := by
      intro prompt hprompt t ht
      rcases List.mem_append.mp ht with ht | ht
      · exact hhistory t ht
      · rw [List.mem_singleton.mp ht]
        exact hprompt
    refine ⟨hhistory, fun prompt hprompt m hm => ?_, fun prompt hprompt msgTier => ?_⟩
    · obtain ⟨kept, hkept, hsent⟩ := @nextMessages_suffix rounds prompt
      rw [hsent] at hm
      obtain ⟨t, ht, rfl⟩ := List.mem_map.mp hm
      exact ⟨t.content, rfl, hturns hprompt t (hkept.subset ht)⟩
    · obtain ⟨kept, hkept, hsent⟩ := @nextMessages_suffix rounds prompt
      rw [hsent]
      exact accepted_of_wellFormed hserde fun t ht => hturns hprompt t (hkept.subset ht)

end Memory

/-! ## A reader of messages -/

def pairedMember : Utf16 × Json → Bool
  | (k, .str s) => paired k && paired s
  | (k, _) => paired k

def pairedMessage : Json → Bool
  | .obj ms => ms.all pairedMember
  | _ => true

def pairedMessages : Json → Bool
  | .arr vs => vs.all pairedMessage
  | _ => true

/-- `JSON.parse`, less the messages with a lone surrogate. -/
def readMessages (t : Text) : Option Json := (parse t).filter pairedMessages

theorem paired_iff (us : Utf16) : paired us = true ↔ WellFormed us := by
  induction us using paired.induct with
  | case1 => exact iff_of_true rfl wellFormed_nil
  | case2 u => simp [paired, wellFormed_cons, wellFormed_nil]
  | case3 u v s hhigh ih => simp [paired, wellFormed_cons, hhigh, ih]
  | case4 u v s hhigh ih => rw [paired, if_neg hhigh, wellFormed_cons]; simp [hhigh, ih]

theorem readMessages_reads : ReadsChat readMessages := by
  intro ms
  have hmessage : ∀ m, pairedMessage (chatMessage m) = true ↔ WellFormed m.1 ∧ WellFormed m.2 := by
    intro m
    have hrole : paired (utf16 "role") = true := by decide
    have hcontent : paired (utf16 "content") = true := by decide
    simp [pairedMessage, chatMessage, pairedMember, hrole, hcontent, paired_iff]
  rw [readMessages, stringify, parse_print, Option.isSome_filter, Option.any_some, pairedMessages,
    List.all_map, List.all_eq_true]
  exact forall₂_congr fun m _ => hmessage m

/-! The 400th and the 401st code unit of the reply are one character. -/

def emojiReply : JsString := List.replicate 399 0x61 ++ [0xD83D, 0xDE00]

def roundOf (reply : JsString) : Round := ⟨[0x68, 0x69], ⟨reply, none, false, "m", "basic", 42, 42⟩⟩

theorem wellFormed_replicate (n : ℕ) : WellFormed (List.replicate n 0x61) := by
  refine ⟨List.replicate n 'a', ?_⟩
  induction n with
  | zero => rfl
  | succ n ih =>
      rw [List.replicate_succ, List.flatMap_cons, ih]
      rfl

theorem text_safe_demo : TextSafe readMessages [roundOf [0x6f, 0x6b]] := by
  refine (text_safe_iff readMessages_reads ?_).mpr ?_
  · rintro r hr
    rw [List.mem_singleton.mp hr]
    exact ⟨⟨"hi".toList, by decide⟩, ⟨"ok".toList, by decide⟩⟩
  · rintro r hr ⟨hlong, -⟩
    rw [List.mem_singleton.mp hr] at hlong
    exact absurd hlong (by decide)

theorem emoji_cut : ¬ ∀ (fromStr : Text → Option Json) (rounds : List Round), ReadsChat fromStr →
    (∀ r ∈ rounds, WellFormed r.prompt ∧ WellFormed r.answer.reply) → TextSafe fromStr rounds := by
  intro h
  have hreply : WellFormed emojiReply := (wellFormed_replicate 399).append (wellFormed_units '😀')
  have hsafe := h readMessages [roundOf emojiReply] readMessages_reads fun r hr => by
    rw [List.mem_singleton.mp hr]
    exact ⟨⟨"hi".toList, by decide⟩, hreply⟩
  have hcut : CutInPair emojiReply := by
    refine ⟨?_, 0xD83D, ?_, by decide⟩
    · rw [emojiReply, List.length_append, List.length_replicate, List.length_cons, List.length_cons]
      omega
    · rw [emojiReply, List.getElem?_append_right (by rw [List.length_replicate]),
        List.length_replicate]
      rfl
  exact not_cut_of_safe hsafe (List.mem_singleton_self (roundOf emojiReply)) hreply hcut

end Bartok.Proof
