import Bartok.Miden.HostNotes

/-!
# What a settlement pays

`build_escrow` has printed a note and two serial numbers. Whatever charge the note
covers, the bridge's call of `settle_session` with them succeeds, and when the operator
consumes the note with the argument that `settle_session` has computed, the charge goes
to the seller and the rest to the buyer, in the notes whose files were handed out.
-/

namespace Bartok.Miden

open Foundation

namespace MidenCrates

variable (lib : MidenCrates)

/-- `build_escrow`, called for a buyer and a budget, prints two serial numbers and a note. -/
def Prints (accounts : AccountsJson) (buyer : Text) (budget : ℕ) (sellerSerial buyerSerial : Word)
    (note : EscrowNote) : Prop :=
  ∃ path serialNum json,
    lib.buildEscrow accounts (escrowArgv path buyer budget) sellerSerial buyerSerial serialNum =
      .ok json ∧ lib.decodeNote json.noteB64 = .ok note

/-- A private P2ID note with some of the faucet's asset; no note for nothing. -/
def payment (faucet target : AccountId) (serial : Word) (amount : Felt) : List OutputNote :=
  if amount = 0 then []
  else [⟨Felt.ofNoteTag (lib.withAccountTarget target), Felt.ofNoteType .privateNote,
    lib.digest (lib.p2idRecipient target serial),
    [⟨lib.fungibleKey faucet, ![amount, 0, 0, 0]⟩]⟩]

/-- The bridge's call of `settle_session`, and what becomes of the escrow on chain. -/
structure Payout (accounts : AccountsJson) (buyer : Text) (sellerSerial buyerSerial : Word)
    (note : EscrowNote) (charge : ℕ) (s : Settlement lib) (outs : List OutputNote) : Prop where
  accepted : ∀ path, lib.settle accounts (settleArgv path (lib.encodeNote note) charge buyer
    (wordStrings sellerSerial) (wordStrings buyerSerial)) = .ok s
  split : charge + s.refund = note.amount
  agreed : ∃ operator, (∃ hex, accounts.operatorMultisig = some hex ∧ lib.fromHex hex = .ok operator) ∧
    lib.consume note operator s.argsWord = .ok outs ∧ s.Agrees operator outs
  paid : ∃ seller faucet buyerId,
    (∃ hex, accounts.sellerMultisig = some hex ∧ lib.fromHex hex = .ok seller) ∧
    (∃ hex, accounts.faucet = some hex ∧ lib.fromHex hex = .ok faucet) ∧
    lib.fromHex buyer = .ok buyerId ∧
    ∃ c r : Felt, c.asCanonicalU64 = charge ∧ r.asCanonicalU64 = s.refund ∧
      outs = lib.payment faucet seller sellerSerial c ++ lib.payment faucet buyerId buyerSerial r

/-- The escrow can be settled for this charge. -/
def Pays (accounts : AccountsJson) (buyer : Text) (sellerSerial buyerSerial : Word)
    (note : EscrowNote) (charge : ℕ) : Prop :=
  ∃ s outs, lib.Payout accounts buyer sellerSerial buyerSerial note charge s outs

section Payout

variable {lib : MidenCrates} {accounts : AccountsJson} {buyer : Text} {budget charge : ℕ}
  {sellerSerial buyerSerial : Word} {note : EscrowNote}

theorem p2idNotes_eq_payment (faucet target : AccountId) (serial : Word) (value amount : Felt) :
    p2idNotes (lib.digest (lib.p2idRecipient target serial)) (lib.withAccountTarget target)
        .privateNote ⟨lib.fungibleKey faucet, ![value, 0, 0, 0]⟩ amount =
      lib.payment faucet target serial amount := rfl

/-- What was printed is the escrow of the two parties, for this budget. -/
theorem Prints.escrow (h : lib.Prints accounts buyer budget sellerSerial buyerSerial note) :
    ∃ seller buyerId faucet operator serialNum, Roles lib accounts seller faucet operator ∧
      lib.fromHex buyer = .ok buyerId ∧ budget ≤ lib.maxAmount ∧
      note = escrowNote lib seller buyerId faucet operator sellerSerial buyerSerial serialNum
        budget := by
  obtain ⟨path, serialNum, json, hbuild, hdecode⟩ := h
  obtain ⟨seller, buyerId, faucet, operator, hroles, hbuyer, hmax, -, -, hnote⟩ :=
    buildEscrow_ok hbuild
  refine ⟨seller, buyerId, faucet, operator, serialNum, hroles, hbuyer, hmax, ?_⟩
  rw [hnote, lib.decode_encode] at hdecode
  exact (Except.ok.inj hdecode).symm

theorem Prints.amount (h : lib.Prints accounts buyer budget sellerSerial buyerSerial note) :
    note.amount = budget := by
  obtain ⟨seller, buyerId, faucet, operator, serialNum, -, -, -, rfl⟩ := h.escrow
  rfl

/-- **An escrow pays every charge it covers.** -/
theorem Prints.pays (h : lib.Prints accounts buyer budget sellerSerial buyerSerial note)
    (hgrpc : accounts.guardianGrpc.isSome = true) (hcharge : charge ≤ budget) :
    lib.Pays accounts buyer sellerSerial buyerSerial note charge := by
  obtain ⟨seller, buyerId, faucet, operator, serialNum, hroles, hbuyer, hmax, rfl⟩ := h.escrow
  have hlt : budget < modulus := lt_of_le_of_lt hmax lib.maxAmount_lt
  have hchargeLt : charge < modulus := lt_of_le_of_lt hcharge hlt
  have hrefundLt : budget - charge < modulus := lt_of_le_of_lt (Nat.sub_le _ _) hlt
  set note := escrowNote lib seller buyerId faucet operator sellerSerial buyerSerial serialNum
    budget with hnote
  -- the two output notes, as the host builds them
  obtain ⟨sellerNote, hsellerNote, hsellerExpected, hsellerEmitted, hsellerFile⟩ :=
    makeNote_spec operator .privateNote faucet seller (lib.p2idRecipient seller sellerSerial)
      ⟨budget, hlt⟩ (hcharge.trans hmax) hchargeLt
  obtain ⟨buyerNote, hbuyerNote, hbuyerExpected, hbuyerEmitted, hbuyerFile⟩ :=
    makeNote_spec operator .privateNote faucet buyerId (lib.p2idRecipient buyerId buyerSerial)
      ⟨budget, hlt⟩ ((Nat.sub_le _ _).trans hmax) hrefundLt
  have hargs : settleArgs faucet note charge =
      .ok (budget - charge, ![⟨charge, hchargeLt⟩, 0, 0, 0]) := by
    simp [settleArgs, EscrowNote.budget, hnote, escrowNote, Nat.not_lt_of_le hcharge,
      Felt.new_of_lt hchargeLt]
  have hsettle := fun path => settle_eq path hroles hgrpc hbuyer
    (lt_trans hchargeLt (by decide)) hargs hsellerNote hbuyerNote
  -- and as the script does
  have hconsume := consume_eq lib seller buyerId faucet operator sellerSerial buyerSerial
    serialNum hcharge hlt
  refine ⟨_, _, hsettle, Nat.add_sub_cancel' hcharge, ⟨operator, hroles.operator, hconsume, ?_⟩, ?_⟩
  · constructor
    · rw [List.map_append, List.map_append, hsellerExpected, hbuyerExpected]
    · exact List.rel_append hsellerEmitted hbuyerEmitted
    · exact List.rel_append hsellerFile hbuyerFile
  · refine ⟨seller, faucet, buyerId, hroles.seller, hroles.faucet, hbuyer,
      ⟨charge, hchargeLt⟩, ⟨budget - charge, hrefundLt⟩, rfl, rfl, ?_⟩
    rw [p2idNotes_eq_payment, p2idNotes_eq_payment]

end Payout

end MidenCrates

end Bartok.Miden
