import Bartok.Miden.Felt
import Mathlib.Tactic.FinCases

/-!
# The settlement note script

`settlementStorage` is the host's 13-felt layout and `BartokSettlement.decode`
the script's, field by field in declaration order. `BartokSettlement.run` is the
note script: it splits the escrowed asset between the seller (the charge, given
as the note argument) and the buyer (the rest), and only for the operator.

An output note is built the way the kernel builds it: `create` appends an empty
note and answers its index, `addAsset` fills the note at an index. An aborted
transaction has no outputs, which `Except.error` expresses.
-/

namespace Bartok.Miden

/-- Note storage layout of the `#[note]` struct. -/
structure BartokSettlement where
  sellerRecipient0 : Felt
  sellerRecipient1 : Felt
  sellerRecipient2 : Felt
  sellerRecipient3 : Felt
  sellerTag : Felt
  buyerRecipient0 : Felt
  buyerRecipient1 : Felt
  buyerRecipient2 : Felt
  buyerRecipient3 : Felt
  buyerTag : Felt
  noteType : Felt
  operatorPrefix : Felt
  operatorSuffix : Felt
deriving DecidableEq

/-- `settlement_storage` of the integration helpers. -/
def settlementStorage (sellerRecipient : Word) (sellerTag : UInt32) (buyerRecipient : Word)
    (buyerTag : UInt32) (noteType : NoteType) (operator : AccountId) : List Felt :=
  [sellerRecipient 0, sellerRecipient 1, sellerRecipient 2, sellerRecipient 3,
    Felt.ofNoteTag sellerTag,
    buyerRecipient 0, buyerRecipient 1, buyerRecipient 2, buyerRecipient 3,
    Felt.ofNoteTag buyerTag,
    Felt.ofNoteType noteType,
    operator.prefixFelt,
    operator.suffixFelt]

/-- A note created by a script: tag, type, recipient digest and assets. -/
structure OutputNote where
  tag : Felt
  noteType : Felt
  recipient : Word
  assets : List Asset
deriving DecidableEq

namespace OutputNote

/-- `output_note::create`: the new note and its index. -/
def create (outs : List OutputNote) (tag noteType : Felt) (recipient : Word) :
    List OutputNote × ℕ :=
  (outs ++ [⟨tag, noteType, recipient, []⟩], outs.length)

/-- `output_note::add_asset`. -/
def addAsset (outs : List OutputNote) (asset : Asset) (idx : ℕ) : List OutputNote :=
  outs.modify idx fun n => { n with assets := n.assets ++ [asset] }

theorem addAsset_create (outs : List OutputNote) (tag noteType : Felt) (recipient : Word)
    (asset : Asset) :
    addAsset (create outs tag noteType recipient).1 asset
        (create outs tag noteType recipient).2 =
      outs ++ [⟨tag, noteType, recipient, [asset]⟩] := by
  simp only [create, addAsset]
  induction outs with
  | nil => rfl
  | cons n outs ih => simpa using ih

end OutputNote

namespace BartokSettlement

/-- The `#[note]` macro reads the storage felts in declaration order. -/
def decode : List Felt → Option BartokSettlement
  | [s0, s1, s2, s3, st, b0, b1, b2, b3, bt, nt, op, os] =>
      some ⟨s0, s1, s2, s3, st, b0, b1, b2, b3, bt, nt, op, os⟩
  | _ => none

/-- The two payout blocks of the script differ in their values only: a P2ID
note to `recipient` carrying `amount` of the escrow's asset, skipped if zero. -/
def pay (outs : List OutputNote) (tag noteType : Felt) (recipient : Word) (escrow : Asset)
    (amount : Felt) : List OutputNote :=
  if amount.asCanonicalU64 > 0 then
    let created := OutputNote.create outs tag noteType recipient
    OutputNote.addAsset created.1
      ⟨escrow.key, ![amount, escrow.value 1, escrow.value 2, escrow.value 3]⟩ created.2
  else outs

/-- The note script, for the executing account and the assets of the active
note. -/
def run (self : BartokSettlement) (account : AccountId) (assets : List Asset) (arg : Word) :
    Except String (List OutputNote) :=
  if account ≠ ⟨self.operatorPrefix, self.operatorSuffix⟩ then
    .error "only the operator multisig may consume the settlement note"
  else
    let charge := arg 0
    -- `assets.pop().unwrap()`
    match assets.getLast? with
    | none => .error "called `Option::unwrap()` on a `None` value"
    | some escrow =>
        let budget := escrow.value 0
        -- felt subtraction wraps, so the guard comes first
        if ¬ budget.asCanonicalU64 ≥ charge.asCanonicalU64 then
          .error "charge exceeds escrowed budget"
        else
          let refund := budget - charge
          let outs := pay [] self.sellerTag self.noteType
            ![self.sellerRecipient0, self.sellerRecipient1, self.sellerRecipient2,
              self.sellerRecipient3] escrow charge
          let outs := pay outs self.buyerTag self.noteType
            ![self.buyerRecipient0, self.buyerRecipient1, self.buyerRecipient2,
              self.buyerRecipient3] escrow refund
          .ok outs

end BartokSettlement

/-! ## The split -/

/-- What one party is owed: a P2ID note with `amount` of the escrowed asset,
and no note at all for nothing. -/
def p2idNotes (recipient : Word) (tag : UInt32) (noteType : NoteType) (escrow : Asset)
    (amount : Felt) : List OutputNote :=
  if amount = 0 then []
  else [⟨Felt.ofNoteTag tag, Felt.ofNoteType noteType, recipient,
    [⟨escrow.key, ![amount, escrow.value 1, escrow.value 2, escrow.value 3]⟩]⟩]

theorem word_eta (w : Word) : ![w 0, w 1, w 2, w 3] = w := by
  funext i
  fin_cases i <;> rfl

theorem pay_eq (outs : List OutputNote) (tag : UInt32) (noteType : NoteType) (recipient : Word)
    (escrow : Asset) (amount : Felt) :
    BartokSettlement.pay outs (Felt.ofNoteTag tag) (Felt.ofNoteType noteType) recipient escrow
        amount =
      outs ++ p2idNotes recipient tag noteType escrow amount := by
  unfold BartokSettlement.pay p2idNotes
  by_cases h : amount = 0
  · simp [h]
  · have hpos : amount.asCanonicalU64 > 0 :=
      Nat.pos_of_ne_zero fun hz => h (Fin.ext hz)
    rw [if_pos hpos, if_neg h]
    exact OutputNote.addAsset_create _ _ _ _ _

section Split

variable (sellerRecipient : Word) (sellerTag : UInt32) (buyerRecipient : Word) (buyerTag : UInt32)
  (noteType : NoteType) (operator account : AccountId) (escrow : Asset) (arg : Word)

/-- The script on the storage the host encodes. -/
def runEncoded : Except String (List OutputNote) :=
  match BartokSettlement.decode
      (settlementStorage sellerRecipient sellerTag buyerRecipient buyerTag noteType operator) with
  | none => .error "note storage does not decode"
  | some note => note.run account [escrow] arg

/-- Encoder and decoder agree position by position, so the script works on the
values the host encoded. -/
theorem runEncoded_eq :
    runEncoded sellerRecipient sellerTag buyerRecipient buyerTag noteType operator account escrow
        arg =
      if account ≠ operator then
        .error "only the operator multisig may consume the settlement note"
      else if ¬ (arg 0).val ≤ (escrow.value 0).val then .error "charge exceeds escrowed budget"
      else .ok (p2idNotes sellerRecipient sellerTag noteType escrow (arg 0) ++
        p2idNotes buyerRecipient buyerTag noteType escrow (escrow.value 0 - arg 0)) := by
  simp only [runEncoded, settlementStorage, BartokSettlement.decode, BartokSettlement.run,
    List.getLast?_singleton, word_eta, pay_eq, List.nil_append, ge_iff_le]

/-- **The settlement note splits exactly, and only for the operator.** -/
theorem run_splits_escrow :
    ((∃ outs, runEncoded sellerRecipient sellerTag buyerRecipient buyerTag noteType operator
          account escrow arg = .ok outs) ↔
        account = operator ∧ (arg 0).asCanonicalU64 ≤ (escrow.value 0).asCanonicalU64) ∧
      ∀ outs, runEncoded sellerRecipient sellerTag buyerRecipient buyerTag noteType operator
          account escrow arg = .ok outs →
        outs = p2idNotes sellerRecipient sellerTag noteType escrow (arg 0) ++
            p2idNotes buyerRecipient buyerTag noteType escrow (escrow.value 0 - arg 0) ∧
          (arg 0).asCanonicalU64 + (escrow.value 0 - arg 0).asCanonicalU64 =
            (escrow.value 0).asCanonicalU64 := by
  rw [runEncoded_eq]
  by_cases hop : account = operator
  · by_cases hle : (arg 0).val ≤ (escrow.value 0).val
    · rw [if_neg (by simpa using hop), if_neg (by simpa using hle)]
      refine ⟨⟨fun _ => ⟨hop, hle⟩, fun _ => ⟨_, rfl⟩⟩, ?_⟩
      intro outs houts
      exact ⟨(Except.ok.inj houts).symm, Felt.sub_val_add hle⟩
    · rw [if_neg (by simpa using hop), if_pos hle]
      refine ⟨⟨?_, fun h => absurd h.2 hle⟩, ?_⟩
      · rintro ⟨outs, houts⟩
        cases houts
      · intro outs houts
        cases houts
  · rw [if_pos hop]
    refine ⟨⟨?_, fun h => absurd h.1 hop⟩, ?_⟩
    · rintro ⟨outs, houts⟩
      cases houts
    · intro outs houts
      cases houts

end Split

end Bartok.Miden
