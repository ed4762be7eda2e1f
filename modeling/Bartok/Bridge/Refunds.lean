import Bartok.Bridge.Hold
import Bartok.Bridge.Restart

/-!
# What a settlement reports of its refund

A `settle_session` run that lands creates the buyer's refund note, and prints its
file once it is done: a run that says it succeeded has landed, with the refund that
it names. The bridge writes that file into the refund store of the session's buyer.
-/

namespace Bartok.Bridge

open Foundation Miden State

/-! ## What a `settle_session` run reports -/

/-- What the Guardian and the node answer to the three calls of `main`, whether
the submitted transaction got on chain, and the files of the two output notes. -/
structure SettleCalls where
  propose : Except String String
  prepare : Except String Unit
  submit : Except String Unit
  onChain : Bool
  sellerNoteFileB64 : NoteFile
  refundNoteFileB64 : NoteFile

/-- `submit_transaction` answers `Ok` only when the node took the transaction. -/
def SettleCalls.Honest (calls : SettleCalls) : Prop := calls.submit = .ok () → calls.onChain = true

/-- `main` of `settle_session`: the JSON line it prints at the end. -/
def settleSession (faucet : AccountId) (explorer : String) (note : EscrowNote) (charge : ℕ)
    (calls : SettleCalls) : Except String SettleJson := do
  let (refund, _) ← settleArgs faucet note charge
  let proposalId ← calls.propose.mapError ("propose bartok_settle: " ++ ·)
  calls.prepare.mapError ("prepare_custom_execution: " ++ ·)
  calls.submit.mapError ("submit settlement: " ++ ·)
  return { refund, settleProposalId := proposalId
           refundNoteFileB64 := if 0 < refund then some calls.refundNoteFileB64 else none
           sellerNoteFileB64 := if 0 < charge then some calls.sellerNoteFileB64 else none
           explorer }

/-- A process of `settle_session`, killed at any point or not: it exits with 0
and a JSON line only if `main` printed that line. -/
def SettleRun.Of (faucet : AccountId) (explorer : String) (note : EscrowNote) (charge : ℕ)
    (run : SettleRun) : Prop :=
  ∃ calls : SettleCalls, calls.Honest ∧
    run.landed =
      (if calls.onChain then some ⟨note.amount - charge, calls.refundNoteFileB64⟩ else none) ∧
    ∀ json, run.code = some 0 → run.json = some json →
      settleSession faucet explorer note charge calls = .ok json

/-- A reported success is of a run that landed, and brings the file of its refund. -/
def SettleRun.Reported (run : SettleRun) : Prop :=
  ∀ json, run.verdict = .settled json → ∃ l, run.landed = some l ∧
    json.refundNoteFileB64 = if 0 < l.refund then some l.refundNoteFileB64 else none

theorem settleSession_ok {faucet : AccountId} {explorer : String} {note : EscrowNote} {charge : ℕ}
    {calls : SettleCalls} {json : SettleJson}
    (h : settleSession faucet explorer note charge calls = .ok json) :
    calls.submit = .ok () ∧ json.refundNoteFileB64 =
      if 0 < note.amount - charge then some calls.refundNoteFileB64 else none := by
  simp only [settleSession, bind_eq_ok, mapError_eq_ok, pure, Except.pure, Except.ok.injEq] at h
  obtain ⟨⟨refund, arg⟩, hargs, id, -, _, -, _, hsubmit, rfl⟩ := h
  exact ⟨hsubmit, by rw [settleArgs_refund hargs]⟩

/-- What the bridge takes for a success. -/
theorem settled_of_verdict {run : SettleRun} {json : SettleJson} (hv : run.verdict = .settled json) :
    run.code = some 0 ∧ run.json = some json := by
  unfold SettleRun.verdict at hv
  split at hv
  · next json' hcode hjson' =>
      cases hv
      exact ⟨hcode, hjson'⟩
  · split at hv
    · cases hv
    · split at hv <;> cases hv

theorem SettleRun.Of.reported {faucet : AccountId} {explorer : String} {note : EscrowNote}
    {charge : ℕ} {run : SettleRun} (h : run.Of faucet explorer note charge) : run.Reported := by
  obtain ⟨calls, hhonest, hlanded, hjson⟩ := h
  intro json hv
  obtain ⟨hcode, hprinted⟩ := settled_of_verdict hv
  obtain ⟨hsubmit, hfile⟩ := settleSession_ok (hjson json hcode hprinted)
  rw [if_pos (hhonest hsubmit)] at hlanded
  exact ⟨_, hlanded, hfile⟩

/-! ## Runs and the session they settle -/

/-- The run that has ended, with its charge. -/
def Event.run : Event → Option (ℕ × SettleRun)
  | .settleEnd _ _ charge run => some (charge, run)
  | _ => none

/-- The session and the charge of a `settle_session` run in flight. -/
def Proc.settleRun : Proc → Option (SessionId × ℕ)
  | .endSettle sid charge _ => some (sid, charge)
  | .sweepSettle sid charge _ => some (sid, charge)
  | _ => none

section Session

variable {v v' : SessionView} {sid : SessionId} {safe : Bool} {es : List Event}
  {slot : Slot SessionId Session} {f : Session → Session}

/-- A write that keeps what a settlement is about. -/
def KeepsNote (f : Session → Session) : Prop :=
  ∀ s, (f s).params = s.params ∧ (f s).buyerId = s.buyerId ∧
    ((f s).escrowNoteB64 = s.escrowNoteB64 ∨ (f s).escrowNoteB64 = some s.params.noteB64)

/-- A session keeps its note and its buyer. -/
theorem SessionStep.keepsNote (hstep : SessionStep sid safe v es v') (hslot : v.slot = some slot) :
    ∃ slot', v'.slot = some slot' ∧ slot'.val.params = slot.val.params ∧
      slot'.val.buyerId = slot.val.buyerId ∧
      (slot'.val.escrowNoteB64 = slot.val.escrowNoteB64 ∨
        slot'.val.escrowNoteB64 = some slot.val.params.noteB64) := by
  have hput : ∀ {f}, KeepsNote f → ∃ slot', (v.put f).slot = some slot' ∧
      slot'.val.params = slot.val.params ∧ slot'.val.buyerId = slot.val.buyerId ∧
      (slot'.val.escrowNoteB64 = slot.val.escrowNoteB64 ∨
        slot'.val.escrowNoteB64 = some slot.val.params.noteB64) :=
    fun hf => ⟨_, put_slot hslot, hf slot.val⟩
  have hcharged : ∀ prompt a, KeepsNote (pushTurns prompt a ∘ pushCharge a v.now) :=
    fun _ _ s => ⟨rfl, rfl, .inl rfl⟩
  cases hstep with
  | world hnow hchain => exact ⟨slot, hslot, rfl, rfl, .inl rfl⟩
  | create buyerId tier budget params hnone =>
      rw [hslot] at hnone
      cases hnone
  | use hf =>
      rcases hf with rfl | rfl
      · exact hput fun s => ⟨rfl, rfl, .inr rfl⟩
      · exact hput fun s => ⟨rfl, rfl, .inl rfl⟩
  | reply pid _ hopen => exact ⟨_, put_slot (put_slot hslot), hcharged _ _ slot.val⟩
  | lost _ hopen hsafe => exact ⟨_, put_slot (put_slot hslot), hcharged _ _ slot.val⟩
  | start pid _ hlive hopen hfree hnote hf =>
      rcases hf with rfl | rfl <;> exact hput fun s => ⟨rfl, rfl, .inl rfl⟩
  | wait pid _ hnote hhold hland hrun => exact ⟨slot, slot_land.trans hslot, rfl, rfl, .inl rfl⟩
  | retry pid _ hnote hhold => exact ⟨slot, hslot, rfl, rfl, .inl rfl⟩
  | giveUp pid _ hnote hhold hland hrun hf =>
      refine ⟨_, put_slot (slot_land.trans hslot), ?_⟩
      rcases hf with rfl | ⟨rfl, -⟩ <;> exact ⟨rfl, rfl, .inl rfl⟩
  | close pid _ hnote hhold hland hrun hf =>
      refine ⟨_, slot_close hslot, ?_⟩
      rcases hf with rfl | rfl <;> exact ⟨rfl, rfl, .inl rfl⟩

end Session

/-! ## The event is the write -/

section Saved

variable {st st' : State} {sid sid' : SessionId} {w : WalletId} {file : NoteFile} {pid : Pid}
  {cursor : ℕ} {wr : Writes} {ok : Bool} {s : Session} {charge attempt : ℕ} {run : SettleRun}
  {r : State × List Event}

theorem refunds_closeSession : (st.closeSession sid wr).disk.refunds = st.disk.refunds := by
  unfold closeSession persistSessions
  split <;> rfl

/-- Of a buyer's refunds the last 20 are kept, and the new one is the last. -/
theorem recordRefund_saved (h : st.recordRefund w (some file) ok = some st') :
    file ∈ st'.loadRefunds w := by
  unfold State.recordRefund at h
  dsimp only at h
  split at h
  · cases h
    simp only [State.loadRefunds, Option.getD_some, State.appendRefund, Function.update_self]
    rw [List.drop_append_of_le_length (by simp)]
    exact List.mem_append_right _ (List.mem_singleton_self file)
  · cases h

theorem mem_refundEvents {refund : Option NoteFile} {w' : WalletId}
    (h : .refundRecorded sid w file ∈ refundEvents sid' w' refund) :
    w' = w ∧ refund = some file := by
  cases refund with
  | none => cases h
  | some file' =>
      obtain ⟨-, rfl, rfl⟩ := Event.refundRecorded.inj (List.mem_singleton.mp h)
      exact ⟨rfl, rfl⟩

theorem not_mem_startJoao {note : Option NoteFile} :
    .refundRecorded sid w file ∉ (st.startJoao note).2 := by
  cases note <;> simp [startJoao]

theorem saved_congr (h : file ∈ st.loadRefunds w) (hdisk : st'.disk.refunds = st.disk.refunds) :
    file ∈ st'.loadRefunds w := by
  rw [State.loadRefunds, hdisk]
  exact h

theorem endReturned_saved
    (h : .refundRecorded sid w file ∈ (st.endReturned pid sid' s charge attempt run wr).2) :
    file ∈ (st.endReturned pid sid' s charge attempt run wr).1.loadRefunds w := by
  unfold endReturned at h ⊢
  cases hv : run.verdict with
  | settled json =>
      simp only [hv] at h ⊢
      split at h
      · simp at h
      · next hrec =>
          simp only [List.cons_append, List.append_assoc, List.mem_cons, List.mem_append,
            reduceCtorEq, not_mem_startJoao, List.not_mem_nil, false_or, or_false] at h
          obtain ⟨rfl, hfile⟩ := mem_refundEvents h
          rw [hfile] at hrec
          apply saved_congr (recordRefund_saved hrec)
          rw [disk_startJoao]
          exact refunds_closeSession
  | spent => simp [hv] at h
  | wedged =>
      simp only [hv] at h
      split at h <;> simp at h
  | failed => simp [hv] at h

theorem sweepSettled_saved
    (h : .refundRecorded sid w file ∈ (st.sweepSettled sid' s run wr).2) :
    file ∈ (st.sweepSettled sid' s run wr).1.loadRefunds w := by
  unfold sweepSettled at h ⊢
  cases hv : run.verdict with
  | settled json =>
      simp only [hv] at h ⊢
      split at h
      · simp at h
      · next hrec =>
          simp only [List.mem_cons, List.mem_append, reduceCtorEq, not_mem_startJoao, or_false] at h
          obtain ⟨rfl, hfile⟩ := mem_refundEvents h
          rw [hfile] at hrec
          apply saved_congr (recordRefund_saved hrec)
          rw [disk_startJoao, disk_releaseCurrent]
          exact refunds_closeSession
  | spent => simp [hv] at h
  | wedged => simp [hv] at h
  | failed => simp [hv] at h

theorem not_mem_sweepFrom : .refundRecorded sid w file ∉ (st.sweepFrom pid cursor).2 := by
  intro h
  rcases (handled_sweepFrom .refl (.inr rfl)).kinds _ h with hplain | hmem
  · cases hplain
  · cases List.mem_singleton.mp hmem

/-- A refund is announced as recorded in the step that writes it. -/
theorem recorded_on_disk {i : Input} (hi : step st i = some r)
    (h : .refundRecorded sid w file ∈ r.2) : file ∈ r.1.loadRefunds w := by
  have hkinds : .closing ∈ i.act.kinds := by
    rcases kind_step hi _ h with hplain | hmem
    · cases hplain
    · exact hmem
  obtain ⟨act, wr⟩ := i
  cases steps_of_step hi with
  | endReturned hp _ _ _ => exact endReturned_saved h
  | sweepReturned hp _ _ _ =>
      simp only [sweepReturned, List.cons_append, List.mem_cons, List.mem_append, reduceCtorEq,
        not_mem_sweepFrom, false_or, or_false] at h
      exact saved_congr (sweepSettled_saved h) (congrArg Disk.refunds disk_sweepFrom)
  | _ => simp [Action.kinds] at hkinds

end Saved

/-! Three runs: one that says what it did, one that is killed after it submitted, and one
that comes after that. -/

theorem landedRun_of : (landedRun 50000).Of demoNote.faucet "x" demoNote 0 :=
  ⟨⟨.ok "p", .ok (), .ok (), true, "payment", "refund"⟩, fun _ => rfl, rfl, fun json _ hjson => by
    rw [← Option.some.inj hjson]
    decide⟩

def killedAfterLanding : SettleRun := ⟨none, none, false, false, some ⟨50000, "refund"⟩⟩

theorem killedAfterLanding_of : killedAfterLanding.Of demoNote.faucet "x" demoNote 0 :=
  ⟨⟨.ok "p", .ok (), .error "timeout", true, "payment", "refund"⟩, fun _ => rfl, rfl,
    fun _ hcode => by cases hcode⟩

/-- The node reports the consumed note. -/
def spentRun : SettleRun := ⟨some 1, none, true, false, none⟩

theorem spentRun_of : spentRun.Of demoNote.faucet "x" demoNote 0 :=
  ⟨⟨.ok "p", .ok (), .error "nullifiers already exist", false, "payment", "refund"⟩,
    fun h => (by cases h), rfl, fun _ hcode => by cases hcode⟩

end Bartok.Bridge
