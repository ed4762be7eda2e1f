import Bartok.Miden.SettlementNote

/-!
# The escrow note

The private note `build_escrow` creates for a session. The bridge keeps it as
base64 bytes; here it is the note those bytes decode to.
-/

namespace Bartok.Miden

/-- Serial number, storage and the one fungible asset of an escrow note. -/
structure EscrowNote where
  serialNum : Word
  storage : List Felt
  faucet : AccountId
  amount : ℕ
  noteType : NoteType
deriving DecidableEq

end Bartok.Miden
