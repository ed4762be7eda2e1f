import Bartok.Foundation.Text

/-!
# Collecting notes

`absorbNotes` collects the notes that are available to the wallet, by a Guardian proposal
that consumes them. The list of available notes also has the live escrow of a session, so
only notes with the P2ID script are asked for. But a pending proposal that has one of these
notes is taken up as it is, with whatever other notes it has.
-/

namespace Bartok.Wallet

open Foundation Text

/-! ## Notes and proposals -/

/-- `normalizeHexWord` of the multisig client. Outside ASCII no character has a hexadecimal
digit as its lower case. -/
def normalizeHexWord (hex : Text) : Text :=
  let digits := match hex with
    | '0' :: 'x' :: digits => digits
    | '0' :: 'X' :: digits => digits
    | digits => digits
  '0' :: 'x' :: (digits.map Char.toLower).leftpad 64 '0'

/-- The scripts of all notes: a note id commits to the script of its note. -/
structure NoteScripts where
  root : Text → Text
  /-- `NoteScript.p2id().root()`. -/
  p2id : Text

/-- A record of the store; `details()` throws unless it is readable. -/
structure NoteRecord where
  id : Text
  readable : Bool

/-- The answer of `listAvailable`: the store has each note once. -/
structure Listing where
  records : List NoteRecord
  distinct : (records.map fun r => normalizeHexWord r.id).Nodup

structure ProposalMetadata where
  proposalType : Text
  noteIds : Option (List Text)

structure Proposal where
  id : Text
  metadata : Option ProposalMetadata

/-- The notes that the transaction of a proposal consumes, when the client has checked that
it is the one its metadata describes. -/
def Proposal.consumed (p : Proposal) : List Text :=
  match p.metadata with
  | some m => if m.proposalType = "consume_notes".toList then
      (m.noteIds.getD []).map normalizeHexWord else []
  | none => []

/-- The proposal that `createConsumeNotesProposal` pushes. -/
def consumeNotesProposal (id : Text) (noteIds : List Text) : Proposal :=
  ⟨id, some ⟨"consume_notes".toList, some noteIds⟩⟩

/-! ## absorbNotes -/

/-- How a call of `executeProposal` ends. It can throw after its transaction was sent, and
the transaction may land all the same. -/
inductive Execution
  | done
  | threw (message : String) (landed : Bool)
deriving DecidableEq

def Execution.landed : Execution → Bool
  | .done => true
  | .threw _ landed => landed

/-- What the client, the Guardian and the chain answer to one call of `absorbNotes`. -/
structure AbsorbCalls where
  sync : Except String Unit
  listAvailable : Except String Listing
  syncProposals : Except String (List Proposal)
  /-- The id of the proposal, as computed by the client. -/
  createConsumeNotesProposal : Except String Text
  signProposal : Except String Unit
  executeProposal : Execution
  syncAgain : Except String Unit

inductive WalletEffect
  | signed (p : Proposal)
  | executed (p : Proposal) (landed : Bool)

def WalletEffect.proposal : WalletEffect → Proposal
  | .signed p => p
  | .executed p _ => p

section Absorb

variable (scripts : NoteScripts)

/-- The filter on the available notes. -/
def NoteRecord.isP2id (r : NoteRecord) : Bool :=
  r.readable && scripts.root (normalizeHexWord r.id) = scripts.p2id

/-- `ids` in `absorbNotes`. -/
def Listing.ids (l : Listing) : List Text :=
  (l.records.filter (NoteRecord.isP2id scripts)).map NoteRecord.id

/-- A pending proposal that is taken up. -/
def Proposal.resumes (ids : List Text) (p : Proposal) : Bool :=
  p.metadata.any fun m => m.proposalType = "consume_notes".toList &&
    (m.noteIds.getD []).any fun id => ids.contains id

variable (calls : AbsorbCalls)

/-- From `executeProposal` on. -/
def executeNotes (p : Proposal) (count : ℕ) : List WalletEffect × Except String ℕ :=
  match calls.executeProposal with
  | .threw message landed => ([.executed p landed], .error message)
  | .done => ([.executed p true], calls.syncAgain.map fun _ => count)

def absorbNotes : List WalletEffect × Except String ℕ :=
  match calls.sync, calls.listAvailable with
  | .error message, _ => ([], .error message)
  | .ok _, .error message => ([], .error message)
  | .ok _, .ok listing =>
      let ids := listing.ids scripts
      if ids = [] then ([], .ok 0)
      else
        -- `syncProposals().catch(() => [])`
        let proposals := calls.syncProposals.toOption.getD []
        match proposals.find? (Proposal.resumes ids) with
        | some p =>
            -- a signature that fails is let pass
            let run := executeNotes calls p ids.length
            (.signed p :: run.1, run.2)
        | none =>
            match calls.createConsumeNotesProposal, calls.signProposal with
            | .error message, _ => ([], .error message)
            | .ok id, .error message => ([.signed (consumeNotesProposal id ids)], .error message)
            | .ok id, .ok _ =>
                let p := consumeNotesProposal id ids
                let run := executeNotes calls p ids.length
                (.signed p :: run.1, run.2)

/-! ## What a call can do -/

/-- The client is in sync and lists its notes. -/
def AbsorbCalls.Lists (listing : Listing) : Prop :=
  calls.sync = .ok () ∧ calls.listAvailable = .ok listing

/-- The pending proposal that is taken up. -/
def AbsorbCalls.resumed : Option Proposal :=
  match calls.sync, calls.listAvailable with
  | .ok _, .ok listing =>
      (calls.syncProposals.toOption.getD []).find? (Proposal.resumes (listing.ids scripts))
  | _, _ => none

/-- The proposal that is executed: the pending one, or a new one that was signed. -/
def AbsorbCalls.selected : Option Proposal :=
  match calls.sync, calls.listAvailable with
  | .ok _, .ok listing =>
      match calls.resumed scripts, calls.createConsumeNotesProposal, calls.signProposal with
      | some p, _, _ => some p
      | none, .ok id, .ok _ =>
          if listing.ids scripts = [] then none
          else some (consumeNotesProposal id (listing.ids scripts))
      | none, _, _ => none
  | _, _ => none

/-- The proposal is executed after it was signed. -/
def executeSigned (p : Proposal) (count : ℕ) : List WalletEffect × Except String ℕ :=
  (.signed p :: (executeNotes calls p count).1, (executeNotes calls p count).2)

inductive AbsorbRun : List WalletEffect × Except String ℕ → Prop
  /-- A call threw, or there is nothing to collect. -/
  | idle {res : Except String ℕ} (hres : ∀ n, res = .ok n → n = 0)
      (hnone : calls.resumed scripts = none) (hsel : calls.selected scripts = none) :
      AbsorbRun ([], res)
  | unsigned {listing : Listing} {id : Text} {message : String}
      (hnone : calls.resumed scripts = none) (hsel : calls.selected scripts = none) :
      AbsorbRun ([.signed (consumeNotesProposal id (listing.ids scripts))], .error message)
  | resumed {listing : Listing} {p : Proposal} (hlists : calls.Lists listing)
      (hp : calls.resumed scripts = some p) (hsel : calls.selected scripts = some p)
      (hids : listing.ids scripts ≠ []) :
      AbsorbRun (executeSigned calls p (listing.ids scripts).length)
  | created {listing : Listing} {id : Text} (hlists : calls.Lists listing)
      (hnone : calls.resumed scripts = none)
      (hsel : calls.selected scripts = some (consumeNotesProposal id (listing.ids scripts)))
      (hids : listing.ids scripts ≠ []) :
      AbsorbRun (executeSigned calls (consumeNotesProposal id (listing.ids scripts))
        (listing.ids scripts).length)

variable {scripts calls} {listing : Listing} {ps : List Proposal} {p : Proposal} {n : ℕ}

theorem find?_resumes_nil : ps.find? (Proposal.resumes []) = none := by
  rw [List.find?_eq_none]
  intro p _ hp
  obtain ⟨m, -, hm⟩ := (Option.any_eq_true _ _).mp hp
  obtain ⟨id, -, hid⟩ := List.any_eq_true.mp (Bool.and_eq_true_iff.mp hm).2
  cases hid

theorem absorbRun : AbsorbRun scripts calls (absorbNotes scripts calls) := by
  unfold absorbNotes
  split
  · next hsync =>
      exact .idle nofun (by simp [AbsorbCalls.resumed, hsync])
        (by simp [AbsorbCalls.selected, hsync])
  · next hsync hlist =>
      exact .idle nofun (by simp [AbsorbCalls.resumed, hsync, hlist])
        (by simp [AbsorbCalls.selected, hsync, hlist])
  · next listing hsync hlist =>
      have hlists : calls.Lists listing := ⟨hsync, hlist⟩
      have hresumed : calls.resumed scripts = (calls.syncProposals.toOption.getD []).find?
          (Proposal.resumes (listing.ids scripts)) := by simp [AbsorbCalls.resumed, hsync, hlist]
      dsimp only
      split
      · next hids =>
          have hnone : calls.resumed scripts = none := by rw [hresumed, hids, find?_resumes_nil]
          refine .idle (fun n hn => (Except.ok.inj hn).symm) hnone ?_
          simp only [AbsorbCalls.selected, hsync, hlist, hnone, hids, if_true]
          split <;> first | rfl | contradiction
      · next hids =>
          split
          · next p hp =>
              have hp := hresumed.trans hp
              exact .resumed hlists hp (by simp [AbsorbCalls.selected, hsync, hlist, hp]) hids
          · next hnone =>
              have hnone := hresumed.trans hnone
              split
              · next hcreate =>
                  exact .idle nofun hnone
                    (by simp [AbsorbCalls.selected, hsync, hlist, hnone, hcreate])
              · next hcreate hsign =>
                  exact .unsigned hnone
                    (by simp [AbsorbCalls.selected, hsync, hlist, hnone, hcreate, hsign])
              · next hcreate hsign =>
                  exact .created hlists hnone
                    (by simp [AbsorbCalls.selected, hsync, hlist, hnone, hcreate, hsign, hids]) hids

theorem consumed_created {id : Text} {noteIds : List Text} :
    (consumeNotesProposal id noteIds).consumed = noteIds.map normalizeHexWord := by
  simp [Proposal.consumed, consumeNotesProposal]

/-- What is asked for has the P2ID script. -/
theorem root_of_mem_ids {id : Text} (h : id ∈ (listing.ids scripts).map normalizeHexWord) :
    scripts.root id = scripts.p2id := by
  obtain ⟨text, htext, rfl⟩ := List.mem_map.mp h
  obtain ⟨r, hr, rfl⟩ := List.mem_map.mp htext
  have hp2id := (List.mem_filter.mp hr).2
  rw [NoteRecord.isP2id, Bool.and_eq_true, decide_eq_true_eq] at hp2id
  exact hp2id.2

theorem proposal_executeSigned : ∀ e ∈ (executeSigned calls p n).1, e.proposal = p := by
  unfold executeSigned executeNotes
  split <;> simp [WalletEffect.proposal]

/-- **Only P2ID notes are touched, except by a proposal that was there before.** What
`absorbNotes` signs and executes consumes only P2ID notes exactly if the pending proposal that
it takes up does, if there is one. -/
theorem absorbs_only_p2id_iff (scripts : NoteScripts) (calls : AbsorbCalls) :
    (∀ e ∈ (absorbNotes scripts calls).1, ∀ id ∈ e.proposal.consumed,
      scripts.root id = scripts.p2id) ↔
    ∀ p, calls.resumed scripts = some p → ∀ id ∈ p.consumed, scripts.root id = scripts.p2id := by
  have hcreated : ∀ {listing : Listing} {id note : Text},
      note ∈ (consumeNotesProposal id (listing.ids scripts)).consumed →
        scripts.root note = scripts.p2id := fun h => root_of_mem_ids (consumed_created ▸ h)
  have hrun : AbsorbRun scripts calls (absorbNotes scripts calls) := absorbRun
  generalize absorbNotes scripts calls = run at hrun
  cases hrun with
  | idle hres hnone => simp [hnone]
  | unsigned hnone =>
      rw [hnone]
      refine iff_of_true (fun e he id hid => ?_) nofun
      obtain rfl := List.mem_singleton.mp he
      exact hcreated hid
  | @resumed listing p hlists hp =>
      rw [hp]
      constructor
      · rintro h p ⟨⟩
        exact h (.signed p) List.mem_cons_self
      · intro h e he
        exact proposal_executeSigned e he ▸ h p rfl
  | created hlists hnone =>
      rw [hnone]
      exact iff_of_true (fun e he id hid => hcreated (proposal_executeSigned e he ▸ hid)) nofun

end Absorb

/-! A mint and the live escrow are available, and a pending proposal has both. -/

def mintId : Text := "0x1".toList

def escrowId : Text := "0x2".toList

def demoScripts : NoteScripts where
  root id := if id = normalizeHexWord escrowId then "escrow".toList else "p2id".toList
  p2id := "p2id".toList

def demoListing : Listing := ⟨[⟨mintId, true⟩, ⟨escrowId, true⟩], by decide⟩

/-- The proposal of an app that consumed whatever it found. -/
def blanketProposal : Proposal := consumeNotesProposal "0xa".toList [mintId, escrowId]

def blanketCalls : AbsorbCalls where
  sync := .ok ()
  listAvailable := .ok demoListing
  syncProposals := .ok [blanketProposal]
  createConsumeNotesProposal := .ok "0xb".toList
  signProposal := .ok ()
  executeProposal := .done
  syncAgain := .ok ()

theorem escrow_absorbed : ¬ ∀ e ∈ (absorbNotes demoScripts blanketCalls).1,
    ∀ id ∈ e.proposal.consumed, demoScripts.root id = demoScripts.p2id := by
  have hescrow : (absorbNotes demoScripts blanketCalls).1.any fun e =>
      e.proposal.consumed.any fun id => demoScripts.root id ≠ demoScripts.p2id := by decide
  intro h
  obtain ⟨e, he, hany⟩ := List.any_eq_true.mp hescrow
  obtain ⟨id, hid, hne⟩ := List.any_eq_true.mp hany
  exact absurd (h e he id hid) (of_decide_eq_true hne)

end Bartok.Wallet
