import Bartok.Miden.SessionPayout

/-!
# The confirmation of an escrow

`verify_escrow` imports the note it is given and asks the node for it again and again,
until the node reports it committed or the tries are used up. What an attempt saw of the
chain is a parameter.
-/

namespace Bartok.Miden

open Foundation

/-- The JSON line of `verify_escrow`. -/
structure VerifyJson where
  committed : Bool
  budget : ℕ
deriving DecidableEq

/-- `--tries`, if it is a `u32`, else 40. -/
def verifyTries (args : List Text) : ℕ :=
  (((findArg "--tries".toList args).bind Text.parseU64).filter
    fun v => decide (v.toNat < 2 ^ 32)).elim 40 UInt64.toNat

/-- The arguments the bridge passes to `verify_escrow`. -/
def verifyArgv (path noteB64 : Text) : List Text := ['/' :: path, "--escrow-note-b64".toList, noteB64]

namespace MidenCrates

variable (lib : MidenCrates)

/-- `main` of `verify_escrow`: whether the client could import the note, and in which
attempts the node reported it committed. -/
def verifyEscrow (accounts : AccountsJson) (args : List Text) (imported : Except String Unit)
    (polls : ℕ → Bool) : Except String VerifyJson := do
  let b64 ← argValue args "--escrow-note-b64"
  let faucet ← lib.account accounts.faucet "faucet missing"
  let note ← lib.decodeNote (Text.trim b64)
  let budget ← require (note.budget faucet) "escrow note carries no BART asset"
  imported
  return ⟨(List.range (verifyTries args)).any polls, budget⟩

section Verify

variable {lib : MidenCrates} {accounts : AccountsJson} {buyer path : Text} {budget : ℕ}
  {sellerSerial buyerSerial : Word} {note : EscrowNote} {polls : ℕ → Bool}

theorem verifyTries_argv {noteB64 : Text} (hnote : '-' ∉ noteB64) :
    verifyTries (verifyArgv path noteB64) = 40 := by
  have hnone : findArg "--tries".toList (verifyArgv path noteB64) = none := by
    rw [verifyArgv, findArg_ne (by simp), findArg_ne (by simp), findArg_ne (ne_flag hnote rfl)]
    rfl
  rw [verifyTries, hnone]
  rfl

/-- A note is reported committed only when an attempt saw it. -/
theorem committed_of_verifyEscrow {args : List Text} {imported : Except String Unit}
    {json : VerifyJson} (h : lib.verifyEscrow accounts args imported polls = .ok json)
    (hcommitted : json.committed = true) : ∃ n, polls n = true := by
  simp only [MidenCrates.verifyEscrow, bind_eq_ok] at h
  obtain ⟨_, -, _, -, _, -, _, -, _, -, hjson⟩ := h
  obtain rfl := Except.ok.inj hjson
  obtain ⟨n, -, hn⟩ := List.any_eq_true.mp hcommitted
  exact ⟨n, hn⟩

/-- Of a note that `build_escrow` has printed, the bridge learns whether one of forty
attempts saw it committed. -/
theorem Prints.verifyEscrow
    (h : lib.Prints accounts buyer budget sellerSerial buyerSerial note) :
    lib.verifyEscrow accounts (verifyArgv path (lib.encodeNote note)) (.ok ()) polls =
      .ok ⟨(List.range 40).any polls, budget⟩ := by
  obtain ⟨seller, buyerId, faucet, operator, serialNum, hroles, -, -, rfl⟩ := h.escrow
  set note := escrowNote lib seller buyerId faucet operator sellerSerial buyerSerial serialNum
    budget with hnote
  obtain ⟨hex, hfaucet, hhex⟩ := hroles.faucet
  have hbase := lib.encodeNote_base64 note
  have htries : verifyTries (verifyArgv path (lib.encodeNote note)) = 40 :=
    verifyTries_argv fun hdash => (hbase _ hdash).1 rfl
  have harg : argValue (verifyArgv path (lib.encodeNote note)) "--escrow-note-b64" =
      .ok (lib.encodeNote note) := by
    rw [argValue_eq_ok, verifyArgv, findArg_ne (by simp), findArg_self]
  have htrim : Text.trim (lib.encodeNote note) = lib.encodeNote note :=
    Text.trim_eq_self fun c hc => (hbase c hc).2
  have hbudget : note.budget faucet = some budget := by
    simp [EscrowNote.budget, hnote, escrowNote]
  simp [MidenCrates.verifyEscrow, harg, htries, htrim, account, require, hfaucet, hhex,
    lib.decode_encode, hbudget, bind, Except.bind, pure, Except.pure]

end Verify

end MidenCrates

end Bartok.Miden
