import Bartok.Miden.EscrowNote

/-!
# The checks of `settle_session`

What the settlement binary checks before it proposes a transaction, and the note
argument it passes to the note script.
-/

namespace Bartok.Miden

/-- The escrowed amount, if it is in the given faucet's asset. -/
def EscrowNote.budget (note : EscrowNote) (faucet : AccountId) : Option ℕ :=
  if note.faucet = faucet then some note.amount else none

/-- The value word of the escrowed asset. -/
def EscrowNote.value (note : EscrowNote) : Option Word :=
  (Felt.new note.amount).map fun amount => ![amount, 0, 0, 0]

/-- `main` up to the transaction request: the refund and the note argument. -/
def settleArgs (faucet : AccountId) (note : EscrowNote) (charge : ℕ) : Except String (ℕ × Word) :=
  match note.budget faucet with
  | none => .error "escrow note carries no BART asset"
  | some budget =>
      if charge > budget then
        .error ("charge " ++ toString charge ++ " exceeds escrowed budget " ++ toString budget)
      else
        match Felt.new charge with
        | none => .error "bad charge felt"
        | some f => .ok (budget - charge, ![f, 0, 0, 0])

theorem settleArgs_refund {faucet : AccountId} {note : EscrowNote} {charge refund : ℕ} {arg : Word}
    (h : settleArgs faucet note charge = .ok (refund, arg)) : refund = note.amount - charge := by
  unfold settleArgs EscrowNote.budget at h
  grind

/-- A charge passes the checks of the binary and of the note script. -/
def ChargeAccepted (note : EscrowNote) (charge : ℕ) : Prop :=
  ∃ refund arg value, settleArgs note.faucet note charge = .ok (refund, arg) ∧
    note.value = some value ∧
    ∀ (self : BartokSettlement) (key : Word), ∃ outs,
      self.run ⟨self.operatorPrefix, self.operatorSuffix⟩ [⟨key, value⟩] arg = .ok outs

/-- Both check the charge against the escrowed amount, on the number and on the
field element. -/
theorem chargeAccepted_iff {note : EscrowNote} {charge : ℕ} (hamount : note.amount < modulus) :
    ChargeAccepted note charge ↔ charge ≤ note.amount := by
  constructor
  · rintro ⟨refund, arg, value, hargs, -⟩
    by_contra hgt
    simp [settleArgs, EscrowNote.budget, Nat.lt_of_not_le hgt] at hargs
  · intro hle
    refine ⟨note.amount - charge, ![⟨charge, lt_of_le_of_lt hle hamount⟩, 0, 0, 0],
      ![⟨note.amount, hamount⟩, 0, 0, 0], ?_, ?_, fun self key => ?_⟩
    · simp [settleArgs, EscrowNote.budget, Nat.not_lt_of_le hle,
        Felt.new_of_lt (lt_of_le_of_lt hle hamount)]
    · simp [EscrowNote.value, Felt.new_of_lt hamount]
    · simp [BartokSettlement.run, hle]

end Bartok.Miden
