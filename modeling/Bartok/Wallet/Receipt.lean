import Bartok.Wallet.AbsorbNotes
import Mathlib.Data.List.Dedup
import Mathlib.Data.List.Perm.Subperm

/-!
# What the wallet says it has collected

`absorbNotes` answers with the number of notes it has asked for, `waitAndAbsorb` with the
first such number that is positive, and the receipt shows the refund as in the balance when
nothing was thrown. None of the three looks at which notes were consumed.
-/

namespace Bartok.Wallet

open Foundation Text

section Receipt

variable (scripts : NoteScripts)

/-! ## The polling loop and the receipt -/

/-- `waitAndAbsorb`; `polls` are the calls of `absorbNotes` for which there is time. -/
def waitAndAbsorb : List AbsorbCalls → List WalletEffect × ℕ
  | [] => ([], 0)
  | calls :: polls =>
      let poll := absorbNotes scripts calls
      -- `absorbNotes().catch(() => 0)`
      let n := poll.2.toOption.getD 0
      if 0 < n then (poll.1, n)
      else
        let rest := waitAndAbsorb polls
        (poll.1 ++ rest.1, rest.2)

/-- `absorbNoteFile`, with the outcome of the import. -/
def absorbNoteFile (imported : Except String Unit) (polls : List AbsorbCalls) :
    List WalletEffect × Except String ℕ :=
  match imported with
  | .error message => ([], .error message)
  | .ok _ => ((waitAndAbsorb scripts polls).1, .ok (waitAndAbsorb scripts polls).2)

/-- The note on the refund line of the receipt, once it is no longer being updated. -/
inductive RefundSync
  /-- ` ✓ in your balance`. -/
  | inYourBalance
  /-- ` · your BarŦoks are safe — tap to refresh`. -/
  | tapToRefresh
deriving DecidableEq

/-- The end of `settleUp`, with the outcome of the import when there is a refund file.
`refreshBalance` does not throw. -/
def settleUp (imported : Option (Except String Unit)) (polls : List AbsorbCalls) : RefundSync :=
  match imported with
  | none => .inYourBalance
  | some imported =>
      match (absorbNoteFile scripts imported polls).2 with
      | .ok _ => .inYourBalance
      | .error _ => .tapToRefresh

end Receipt

/-- The notes an effect has consumed. -/
def WalletEffect.consumed : WalletEffect → List Text
  | .executed p true => p.consumed
  | _ => []

def consumedBy (es : List WalletEffect) : List Text := es.flatMap WalletEffect.consumed

section Reports

variable (scripts : NoteScripts)

/-! ## What is reported, and when it is so -/

/-- A positive result is the number of notes that were consumed, all of them from the list. -/
def ReportsExactly (calls : AbsorbCalls) : Prop :=
  ∀ n, (absorbNotes scripts calls).2 = .ok n → 0 < n →
    ∃ listing p, calls.Lists listing ∧ .executed p true ∈ (absorbNotes scripts calls).1 ∧
      p.consumed.dedup.length = n ∧
        ∀ id ∈ p.consumed, id ∈ (listing.ids scripts).map normalizeHexWord

/-- A pending proposal that is taken up and executed is for just the notes of the list. -/
def ResumesExactly (calls : AbsorbCalls) : Prop :=
  ∀ listing p, calls.Lists listing → calls.resumed scripts = some p →
    calls.executeProposal = .done → calls.syncAgain = .ok () →
      ∀ id, id ∈ p.consumed ↔ id ∈ (listing.ids scripts).map normalizeHexWord

/-- The poll ends the loop. -/
def AbsorbCalls.succeeds (calls : AbsorbCalls) : Bool :=
  (calls.selected scripts).isSome && calls.executeProposal = .done &&
    calls.syncAgain.toOption.isSome

/-- The poll consumes the note. -/
def AbsorbCalls.Takes (note : Text) (calls : AbsorbCalls) : Prop :=
  calls.executeProposal.landed = true ∧ ∃ p, calls.selected scripts = some p ∧ note ∈ p.consumed

/-- The polls that are made: none after the first one that succeeds. -/
def polled : List AbsorbCalls → List AbsorbCalls
  | [] => []
  | calls :: polls => calls :: if calls.succeeds scripts then [] else polled polls

variable {scripts} {calls : AbsorbCalls} {polls : List AbsorbCalls} {note : Text} {p : Proposal}
  {n : ℕ} {es es' : List WalletEffect} {imported : Except String Unit}

/-! ## One poll -/

theorem mem_consumedBy : note ∈ consumedBy es ↔ ∃ p, .executed p true ∈ es ∧ note ∈ p.consumed := by
  rw [consumedBy, List.mem_flatMap]
  constructor
  · rintro ⟨e, he, hnote⟩
    unfold WalletEffect.consumed at hnote
    split at hnote
    · exact ⟨_, he, hnote⟩
    · cases hnote
  · rintro ⟨p, he, hnote⟩
    exact ⟨_, he, hnote⟩

theorem executed_mem_executeSigned : .executed p true ∈ (executeSigned calls p n).1 ↔
    calls.executeProposal.landed = true := by
  unfold executeSigned executeNotes
  cases calls.executeProposal with
  | done => simp [Execution.landed]
  | threw message landed => simp [Execution.landed, eq_comm]

theorem result_executeSigned {m : ℕ} : (executeSigned calls p n).2 = .ok m ↔
    calls.executeProposal = .done ∧ calls.syncAgain.toOption.isSome = true ∧ m = n := by
  unfold executeSigned executeNotes
  cases calls.executeProposal with
  | done => cases calls.syncAgain <;> simp [Except.map, Except.toOption, eq_comm]
  | threw message landed => simp

/-- What a poll consumes. -/
theorem mem_consumedBy_absorbNotes :
    note ∈ consumedBy (absorbNotes scripts calls).1 ↔ calls.Takes scripts note := by
  rw [mem_consumedBy, AbsorbCalls.Takes]
  have hexecuted : ∀ q m, calls.selected scripts = some q →
      ((∃ p, .executed p true ∈ (executeSigned calls q m).1 ∧ note ∈ p.consumed) ↔
        calls.executeProposal.landed = true ∧
          ∃ p, calls.selected scripts = some p ∧ note ∈ p.consumed) := by
    intro q m hsel
    rw [hsel]
    constructor
    · rintro ⟨p, hp, hnote⟩
      obtain rfl : p = q := proposal_executeSigned _ hp
      exact ⟨executed_mem_executeSigned.mp hp, p, rfl, hnote⟩
    · rintro ⟨hlanded, p, ⟨⟩, hnote⟩
      exact ⟨q, executed_mem_executeSigned.mpr hlanded, hnote⟩
  have hrun : AbsorbRun scripts calls (absorbNotes scripts calls) := absorbRun
  generalize absorbNotes scripts calls = run at hrun
  cases hrun with
  | idle _ _ hsel => simp [hsel]
  | unsigned _ hsel => simp [hsel]
  | resumed _ _ hsel => exact hexecuted _ _ hsel
  | created _ _ hsel => exact hexecuted _ _ hsel

/-- When a poll reports a positive number. -/
theorem absorbNotes_pos :
    0 < (absorbNotes scripts calls).2.toOption.getD 0 ↔ calls.succeeds scripts = true := by
  have hexecuted : ∀ {q : Proposal} {ids : List Text}, calls.selected scripts = some q →
      ids ≠ [] → (0 < (executeSigned calls q ids.length).2.toOption.getD 0 ↔
        calls.succeeds scripts = true) := by
    intro q ids hsel hids
    have hpos : 0 < ids.length := List.length_pos_of_ne_nil hids
    simp only [AbsorbCalls.succeeds, hsel]
    unfold executeSigned executeNotes
    cases calls.executeProposal with
    | done => cases calls.syncAgain <;> simp [Except.map, Except.toOption, hpos]
    | threw message landed => simp [Except.toOption]
  have hrun : AbsorbRun scripts calls (absorbNotes scripts calls) := absorbRun
  generalize absorbNotes scripts calls = run at hrun
  cases hrun with
  | @idle res hres _ hsel =>
      cases res with
      | error message => simp [AbsorbCalls.succeeds, hsel, Except.toOption]
      | ok n => simp [AbsorbCalls.succeeds, hsel, Except.toOption, hres n rfl]
  | unsigned _ hsel => simp [AbsorbCalls.succeeds, hsel, Except.toOption]
  | resumed _ _ hsel hids => exact hexecuted hsel hids
  | created _ _ hsel hids => exact hexecuted hsel hids

theorem nodup_ids {listing : Listing} : ((listing.ids scripts).map normalizeHexWord).Nodup := by
  rw [Listing.ids, List.map_map]
  exact listing.distinct.sublist (List.filter_sublist.map _)

/-- A proposal for as many notes as are listed, all of them from the list, is for just these. -/
theorem listed_iff {listing : Listing} {consumed : List Text} :
    (consumed.dedup.length = (listing.ids scripts).length ∧
      ∀ id ∈ consumed, id ∈ (listing.ids scripts).map normalizeHexWord) ↔
    ∀ id, id ∈ consumed ↔ id ∈ (listing.ids scripts).map normalizeHexWord := by
  have hlength : ((listing.ids scripts).map normalizeHexWord).length =
      (listing.ids scripts).length := List.length_map _
  constructor
  · rintro ⟨hcount, hsub⟩ id
    have hsubperm : consumed.dedup.Subperm ((listing.ids scripts).map normalizeHexWord) :=
      (List.nodup_dedup _).subperm fun id hid => hsub id (List.mem_dedup.mp hid)
    have hperm := hsubperm.perm_of_length_le (hlength.trans hcount.symm).le
    rw [← hperm.mem_iff, List.mem_dedup]
  · intro h
    refine ⟨(List.Perm.length_eq ?_).trans hlength, fun id => (h id).mp⟩
    rw [List.perm_ext_iff_of_nodup (List.nodup_dedup _) nodup_ids]
    intro id
    rw [List.mem_dedup, h]

/-- A poll reports what its proposal consumes if that is what is listed. -/
theorem reportsExactly_executed {listing : Listing} (hlists : calls.Lists listing)
    (hids : listing.ids scripts ≠ [])
    (hrun : absorbNotes scripts calls = executeSigned calls p (listing.ids scripts).length) :
    ReportsExactly scripts calls ↔
      (calls.executeProposal = .done → calls.syncAgain = .ok () →
        ∀ id, id ∈ p.consumed ↔ id ∈ (listing.ids scripts).map normalizeHexWord) := by
  rw [ReportsExactly, hrun]
  constructor
  · intro h hdone hsync
    have hres : (executeSigned calls p (listing.ids scripts).length).2 =
        .ok (listing.ids scripts).length :=
      result_executeSigned.mpr ⟨hdone, by rw [hsync]; rfl, rfl⟩
    obtain ⟨listing', q, hlists', hq, hreport⟩ := h _ hres (List.length_pos_of_ne_nil hids)
    obtain rfl : q = p := proposal_executeSigned _ hq
    obtain rfl := Except.ok.inj (hlists.2.symm.trans hlists'.2)
    exact listed_iff.mp hreport
  · intro h n hres _
    obtain ⟨hdone, hsync, rfl⟩ := result_executeSigned.mp hres
    have hsync : calls.syncAgain = .ok () := by
      cases hcase : calls.syncAgain with
      | ok _ => rfl
      | error _ => simp [hcase, Except.toOption] at hsync
    exact ⟨listing, p, hlists, executed_mem_executeSigned.mpr (by rw [hdone]; rfl),
      listed_iff.mpr (h hdone hsync)⟩

theorem reportsExactly_iff : ReportsExactly scripts calls ↔ ResumesExactly scripts calls := by
  have hrun : AbsorbRun scripts calls (absorbNotes scripts calls) := absorbRun
  generalize hcase : absorbNotes scripts calls = run at hrun
  cases hrun with
  | idle hres hnone =>
      refine iff_of_true (fun n hn hpos => ?_) fun _ _ _ hp => ?_
      · rw [hcase] at hn
        exact absurd (hres n hn) hpos.ne'
      · rw [hnone] at hp
        cases hp
  | unsigned hnone =>
      refine iff_of_true (fun n hn => ?_) fun _ _ _ hp => ?_
      · rw [hcase] at hn
        cases hn
      · rw [hnone] at hp
        cases hp
  | @resumed listing p hlists hp _ hids =>
      rw [reportsExactly_executed hlists hids hcase]
      constructor
      · intro h listing' q hlists' hq
        obtain rfl := Except.ok.inj (hlists.2.symm.trans hlists'.2)
        obtain rfl := Option.some.inj (hp.symm.trans hq)
        exact h
      · exact fun h => h listing p hlists hp
  | created hlists hnone _ hids =>
      rw [reportsExactly_executed hlists hids hcase]
      refine iff_of_true (fun _ _ id => by rw [consumed_created]) fun _ _ _ hp => ?_
      rw [hnone] at hp
      cases hp

/-! ## The loop -/

theorem consumedBy_append : consumedBy (es ++ es') = consumedBy es ++ consumedBy es' :=
  List.flatMap_append

/-- What is consumed in the loop is what the polls that are made take. -/
theorem mem_consumedBy_waitAndAbsorb : note ∈ consumedBy (waitAndAbsorb scripts polls).1 ↔
    ∃ calls ∈ polled scripts polls, calls.Takes scripts note := by
  induction polls with
  | nil => simp [waitAndAbsorb, polled, consumedBy]
  | cons calls polls ih =>
      rw [waitAndAbsorb, polled, List.exists_mem_cons_iff]
      dsimp only
      split
      · next hpos => simp [absorbNotes_pos.mp hpos, mem_consumedBy_absorbNotes]
      · next hzero =>
          rw [consumedBy_append, List.mem_append, mem_consumedBy_absorbNotes, ih,
            if_neg fun hsucceeds => hzero (absorbNotes_pos.mpr hsucceeds)]

/-- **What the wallet reports is what it has consumed, when the proposals are for it.** For
the refund note of an imported file and any sequence of polls: `absorbNotes` counts the notes
that it consumed, `absorbNoteFile` resolves with a positive number and the receipt shows the
refund as in the balance only with the note consumed, exactly if each poll that takes up a
pending proposal takes up one for just the listed notes, and, when the file could be
imported, one of the polls that are made takes the note or somebody else has consumed it. -/
theorem absorb_reports_iff (scripts : NoteScripts) (note : Text) (elsewhere : Prop)
    (imported : Except String Unit) (polls : List AbsorbCalls) :
    ((∀ calls ∈ polls, ReportsExactly scripts calls) ∧
      (∀ n, (absorbNoteFile scripts imported polls).2 = .ok n → 0 < n →
        elsewhere ∨ note ∈ consumedBy (absorbNoteFile scripts imported polls).1) ∧
      (settleUp scripts (some imported) polls = .inYourBalance →
        elsewhere ∨ note ∈ consumedBy (absorbNoteFile scripts imported polls).1)) ↔
    (∀ calls ∈ polls, ResumesExactly scripts calls) ∧
      (imported = .ok () →
        elsewhere ∨ ∃ calls ∈ polled scripts polls, calls.Takes scripts note) := by
  refine and_congr (forall₂_congr fun calls _ => reportsExactly_iff) ?_
  cases imported with
  | error message => simp [absorbNoteFile, settleUp]
  | ok _ =>
      simp only [absorbNoteFile, settleUp, mem_consumedBy_waitAndAbsorb, forall_const]
      exact ⟨fun h => h.2, fun h => ⟨fun _ _ _ => h, h⟩⟩

end Reports

/-! A mint is there to be collected while the refund has yet to arrive. -/

def refundId : Text := normalizeHexWord "0x3".toList

def mintCalls : AbsorbCalls where
  sync := .ok ()
  listAvailable := .ok ⟨[⟨mintId, true⟩], by decide⟩
  syncProposals := .ok []
  createConsumeNotesProposal := .ok "0xb".toList
  signProposal := .ok ()
  executeProposal := .done
  syncAgain := .ok ()

theorem refund_not_absorbed :
    ¬ ((∀ n, (absorbNoteFile demoScripts (.ok ()) [mintCalls]).2 = .ok n → 0 < n →
        refundId ∈ consumedBy (absorbNoteFile demoScripts (.ok ()) [mintCalls]).1) ∧
      (settleUp demoScripts (some (.ok ())) [mintCalls] = .inYourBalance →
        refundId ∈ consumedBy (absorbNoteFile demoScripts (.ok ()) [mintCalls]).1)) := by
  rintro ⟨hpositive, -⟩
  exact absurd (hpositive 1 rfl Nat.one_pos) (by decide)

end Bartok.Wallet
