import Bartok.Bridge.State
import Bartok.Foundation.Outcome
import Bartok.Foundation.Text

/-!
# TLS sessions and their proofs

What the prover, the presenter and the oracle take from the crates they are
linked with. A TLS session is what an attestation is about: a server, and what
it answered. The crates are a parameter; `Crates.Sound` is what TLSNotary
promises about a presentation that verifies, whoever built it.
-/

namespace Bartok.Proof

open Foundation Bridge

/-- The visible and the hidden text of `choices[0].message`. -/
structure Message where
  content : JsString
  reasoning : Option JsString
deriving DecidableEq

/-- An HTTP response; `message` is what `JSON.parse` finds in the body. -/
structure HttpResponse where
  status : ℕ
  body : Text
  message : Option Message
deriving DecidableEq

/-- Sessions are numbered in the order in which they are opened. -/
structure TlsSession where
  id : ℕ
  server : Text
  response : HttpResponse
deriving DecidableEq

/-- The received bytes, each with whether the presentation discloses it. -/
structure PartialTranscript where
  received : List (UInt8 × Bool)

/-- `set_unauthed(mask)` and then `received_unsafe`. -/
def PartialTranscript.masked (t : PartialTranscript) (mask : UInt8) : List UInt8 :=
  t.received.map fun b => if b.2 then b.1 else mask

structure PresentationOutput where
  serverName : Option Text
  time : UInt64
  transcript : Option PartialTranscript

structure Crates where
  /-- The presentations that deserialize. -/
  Presentation : Type
  /-- `present.rs` on an attestation and the secrets of possibly another session. -/
  build : TlsSession → TlsSession → Option Presentation
  verifyingKey : Presentation → List UInt8
  verify : Presentation → Option PresentationOutput
  /-- `serde_json::from_str::<Usage>`, up to the one field of `Usage`. -/
  usage : Text → Option UInt64
  /-- `UNIX_EPOCH + Duration::from_secs(..)`, which panics out of range. -/
  utcTime : UInt64 → Option Text

/-- `source p` is the session `p` discloses. A name that verifies is the name of
the server of that session, and a presentation that verifies was built from an
attestation and secrets of that one session. -/
structure Crates.Sound (crates : Crates) (source : crates.Presentation → TlsSession) : Prop where
  server : ∀ p out name, crates.verify p = some out → out.serverName = some name →
    (source p).server = name
  built : ∀ a s p out, crates.build a s = some p → crates.verify p = some out →
    source p = a ∧ source p = s

/-- The server the prover is fixed to. -/
def SERVER_DOMAIN : Text := "openrouter.ai".toList

end Bartok.Proof
