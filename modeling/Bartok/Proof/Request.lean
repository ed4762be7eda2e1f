import Bartok.Bridge.Conversation
import Bartok.Bridge.FailedChat
import Bartok.Foundation.JsonCompact
import Bartok.Proof.Tlsn

/-!
# The notarised request

The prover sends the conversation in one HTTP request, and the bytes it may send are fixed
before it connects. The bridge budgets code units of the turns: not bytes, not the head of
the request and the other members of its body, and not a prompt that stands alone.
-/

namespace Bartok.Proof

open Foundation Json Text Bridge State

def MAX_SENT_DATA : ℕ := 2 ^ 12

def ROUTE : Text := "/api/v1/chat/completions".toList

def USER_AGENT : Text := "bartok-zktls-spike/0.1".toList

/-- `CONFIG.maxTokens`. -/
def maxTokens : Tier → NumLit
  | .basic => ⟨"2048".toList, by decide⟩
  | .genius => ⟨"2048".toList, by decide⟩

/-- The message that turns the reasoning off. -/
def noThink : Json :=
  .obj [(utf16 "role", .str (utf16 "system")), (utf16 "content", .str (utf16 "/no_think"))]

/-- `tier === 'genius'`, of what the client sent as the tier. Another value may still name the
tier when it is converted to a key, as `["genius"]` does. -/
def isGenius : Json → Bool
  | .str us => us = utf16 "genius"
  | _ => false

/-- `MESSAGES_JSON`. -/
def messagesJson (msgTier : Json) (messages : List SentTurn) : List Json :=
  if isGenius msgTier then messages.map SentTurn.json else noThink :: messages.map SentTurn.json

/-- The body, as `serde_json` orders its members. It writes a string as `JSON.stringify`
does; a number is counted as the bridge wrote it. -/
def requestBody (tier : Tier) (msgTier : Json) (model : String) (messages : List SentTurn) : Json :=
  .obj [(utf16 "max_tokens", .num (maxTokens tier)),
    (utf16 "messages", .arr (messagesJson msgTier messages)), (utf16 "model", .str (utf16 model))]

/-- Up to the value of the header that `hyper` adds. -/
def requestHead (apiKey : Text) : Text :=
  "POST ".toList ++ ROUTE ++ " HTTP/1.1\r\nhost: ".toList ++ SERVER_DOMAIN ++
    "\r\naccept: */*\r\naccept-encoding: identity\r\nconnection: close\r\nuser-agent: ".toList ++
    USER_AGENT ++ "\r\ncontent-type: application/json\r\nauthorization: Bearer ".toList ++ apiKey ++
    "\r\ncontent-length: ".toList

def requestText (apiKey : Text) (tier : Tier) (msgTier : Json) (model : String)
    (messages : List SentTurn) : Text :=
  let body := stringify (requestBody tier msgTier model messages)
  requestHead apiKey ++ Nat.toDigits 10 (byteLength body) ++ "\r\n\r\n".toList ++ body

/-- The bytes that the prover sends. -/
def sentData (apiKey : Text) (tier : Tier) (msgTier : Json) (model : String)
    (messages : List SentTurn) : List UInt8 :=
  encodeUtf8 (requestText apiKey tier msgTier model messages)

/-! ## Its size -/

section Size

variable {apiKey : Text} {tier : Tier} {msgTier : Json} {model : String} {messages : List SentTurn}
  {n m : ℕ}

end Size

/-! ## When it fits -/

def Fits (apiKey : Text) (tier : Tier) (msgTier : Json) (model : String) (history : List SentTurn)
    (prompt : Json) : Prop :=
  (sentData apiKey tier msgTier model (buildMessages history prompt).messages).length ≤ MAX_SENT_DATA

section Fits

variable {apiKey : Text} {tier : Tier} {msgTier : Json} {model : String} {history : List SentTurn}
  {prompt : Json} {room : ℕ}

end Fits

section LongPrompt

variable {apiKey : Text} {tier : Tier} {msgTier : Json} {model : String} {history : List SentTurn}
  {prompt : JsString}

end LongPrompt

end Bartok.Proof
