import Bartok.Bridge.State
import Bartok.Foundation.JsonValue
import Bartok.Foundation.Suffix

/-!
# The conversation that is sent along

Each message is sent with the last turns before it. `buildMessages` walks the turns from
the newest to the oldest, within a budget of 2400 code units of JSON; the prompt, which is
the newest, goes along whatever its size. It is what the client sent, any value of JSON.
-/

namespace Bartok.Bridge

open Foundation Json Text

def Role.name : Role → String
  | .user => "user"
  | .assistant => "assistant"

/-- A turn as it is sent; a prompt need not be a string. Its numbers are as `JSON.stringify`
writes them. -/
structure SentTurn where
  role : Role
  content : Json

def SentTurn.json (m : SentTurn) : Json :=
  .obj [(utf16 "role", .str (utf16 m.role.name)), (utf16 "content", m.content)]

def Turn.sent (t : Turn) : SentTurn := ⟨t.role, .str t.content⟩

/-- `JSON.stringify(turn).length`. -/
def SentTurn.size (m : SentTurn) : ℕ := ((print compact 0 m.json).flatMap units).length

def HISTORY_BUDGET : ℕ := 2400

structure Conversation where
  messages : List SentTurn
  truncated : Bool

/-- The history and the prompt. -/
def turnsOf (history : List SentTurn) (prompt : Json) : List SentTurn :=
  history ++ [⟨.user, prompt⟩]

def buildMessages (history : List SentTurn) (prompt : Json) : Conversation :=
  let kept := keepLoop SentTurn.size HISTORY_BUDGET (turnsOf history prompt).reverse [] 0
  ⟨kept.1, kept.2⟩

/-- The messages are the last turns, as many as the budget pays for. -/
structure KeepsLongest (history : List SentTurn) (prompt : Json) (c : Conversation) : Prop where
  suffix : c.messages <:+ turnsOf history prompt
  prompt_last : c.messages.getLast? = some ⟨.user, prompt⟩
  fits : totalCost SentTurn.size c.messages ≤ HISTORY_BUDGET ∨ c.messages = [⟨.user, prompt⟩]
  maximal : c.messages = turnsOf history prompt ∨
    ∃ older, older :: c.messages <:+ turnsOf history prompt ∧
      HISTORY_BUDGET < older.size + totalCost SentTurn.size c.messages
  longest : ∀ s, s <:+ turnsOf history prompt → totalCost SentTurn.size s ≤ HISTORY_BUDGET →
    s <:+ c.messages
  truncated : c.truncated = true ↔ c.messages.length < (turnsOf history prompt).length

section BuildMessages

variable {history : List SentTurn} {prompt : Json} {kept : List SentTurn}

/-- A suffix that is not empty ends with the prompt. -/
theorem prompt_last_of_suffix (h : kept <:+ turnsOf history prompt) (hne : kept ≠ []) :
    kept.getLast? = some ⟨.user, prompt⟩ := by
  obtain ⟨pre, hpre⟩ := h
  have hlast := congrArg List.getLast? hpre
  rwa [List.getLast?_append_of_ne_nil _ hne, turnsOf, List.getLast?_concat] at hlast

theorem buildMessages_spec :
    LongestSuffix SentTurn.size HISTORY_BUDGET (turnsOf history prompt)
        (buildMessages history prompt).messages ∧
      ((buildMessages history prompt).truncated = true ↔
        (buildMessages history prompt).messages.length < (turnsOf history prompt).length) := by
  have hloop := @keepLoop_longest _ SentTurn.size HISTORY_BUDGET (turnsOf history prompt).reverse
    [] 0 totalCost_nil.symm (by simp) (by simp [turnsOf])
  rwa [List.reverse_reverse, List.append_nil] at hloop

/-- **`buildMessages` keeps the longest recent suffix.** -/
theorem buildMessages_keeps_longest (history : List SentTurn) (prompt : Json) :
    KeepsLongest history prompt (buildMessages history prompt) := by
  obtain ⟨hspec, htruncated⟩ := @buildMessages_spec history prompt
  have hlast := prompt_last_of_suffix hspec.suffix hspec.nonempty
  refine ⟨hspec.suffix, hlast, hspec.affordable.imp_right fun hone => ?_, ?_, ?_, htruncated⟩
  · obtain ⟨m, hm⟩ := List.length_eq_one_iff.mp hone
    rw [hm] at hlast ⊢
    exact congrArg (fun m => [m]) (Option.some.inj hlast)
  · obtain ⟨pre, hpre⟩ := hspec.suffix
    cases pre using List.reverseRecOn with
    | nil => exact .inl hpre
    | append_singleton pre older =>
        have hnext : older :: (buildMessages history prompt).messages <:+ turnsOf history prompt :=
          ⟨pre, by rw [← hpre, List.append_assoc, List.singleton_append]⟩
        exact .inr ⟨older, hnext, hspec.maximal older hnext⟩
  · exact fun s hs hfits => hspec.greatest hs (.inl hfits)

end BuildMessages

end Bartok.Bridge
