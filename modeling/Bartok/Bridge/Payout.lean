import Bartok.Bridge.Refunds

/-!
# The seller's payment note

A settlement that succeeds prints the file of the seller's private payment note.
The bridge starts `joao_sweep` on it in the background and keeps no copy: once that
run has returned, or the bridge has been killed, the file exists nowhere else.
How the runs end is not an event of the bridge, so it is added here to its steps.
-/

namespace Bartok.Bridge

open Foundation Miden State

/-- The note file of a `joao_sweep` run in flight. -/
def Proc.joaoFile : Proc → Option NoteFile
  | .joaoSweep file => some file
  | _ => none

structure PayoutInput where
  input : Input
  /-- Whether the `joao_sweep` run that returns in this step has succeeded. -/
  joaoOk : Bool
  /-- How the `settle_session` runs end that are in flight when this step kills the
  bridge. -/
  orphans : List (Pid × SettleRun)

inductive PayoutEvent
  | bridge (e : Event)
  | joaoEnd (file : NoteFile) (ok : Bool)
  | orphaned (sid : SessionId) (charge : ℕ) (run : SettleRun)
deriving DecidableEq

/-- The ends of runs that the bridge takes no notice of. -/
def State.unnoticed (st : State) (i : PayoutInput) : List PayoutEvent :=
  match i.input.act with
  | .joaoReturned pid =>
      (((st.procs pid).bind Proc.joaoFile).map fun file => .joaoEnd file i.joaoOk).toList
  | .restart =>
      i.orphans.filterMap fun x =>
        ((st.procs x.1).bind Proc.settleRun).map fun settle => .orphaned settle.1 settle.2 x.2
  | _ => []

def payoutStep (st : State) (i : PayoutInput) : Option (State × List PayoutEvent) :=
  (step st i.input).map fun r => (r.1, r.2.map .bridge ++ st.unnoticed i)

/-- A `settle_session` run that has ended, with its charge. -/
def PayoutEvent.settlement : PayoutEvent → Option (ℕ × SettleRun)
  | .bridge e => e.run
  | .orphaned _ charge run => some (charge, run)
  | _ => none

/-- The JSON line of a success. -/
def Verdict.json? : Verdict → Option SettleJson
  | .settled json => some json
  | _ => none

/-- The bridge has the note file: in a handler, or in one of its stores. -/
def State.HoldsFile (st : State) (file : NoteFile) : Prop :=
  (∃ pid, (st.procs pid).bind Proc.joaoFile = some file) ∨ ∃ w, file ∈ st.loadRefunds w

/-- Each settlement that succeeded with a charge has a payment note, and its file
has been swept or is still there. -/
def PaymentsKept (tr : List PayoutEvent) (st : State) : Prop :=
  ∀ e ∈ tr, ∀ x ∈ e.settlement, 0 < x.1 → ∀ json ∈ x.2.verdict.json?,
    ∃ file, json.sellerNoteFileB64 = some file ∧ (.joaoEnd file true ∈ tr ∨ st.HoldsFile file)

/-- The runs of `joao_sweep` succeed; the bridge is not killed while it has a payment
note, or before it has heard of one; and a settlement with a payment note whose
refund is to be recorded finds the store writable. -/
def PaysOut (st : State) (i : PayoutInput) : Prop :=
  match i.input.act with
  | .joaoReturned _ => i.joaoOk = true
  | .restart =>
      (∀ pid < st.nextPid, (st.procs pid).bind Proc.joaoFile = none) ∧
        ∀ x ∈ i.orphans, ∀ settle ∈ (st.procs x.1).bind Proc.settleRun, 0 < settle.2 →
          x.2.verdict.json? = none
  | .endReturned _ run =>
      ∀ json ∈ run.verdict.json?, json.sellerNoteFileB64.isSome = true →
        (json.refundNoteFileB64.isNone || i.input.writes.refunds) = true
  | .sweepReturned _ run =>
      ∀ json ∈ run.verdict.json?, json.sellerNoteFileB64.isSome = true →
        (json.refundNoteFileB64.isNone || i.input.writes.refunds) = true
  | _ => True

instance (st : State) (i : PayoutInput) : Decidable (PaysOut st i) := by
  unfold PaysOut
  split <;> infer_instance

/-- Any step, with any outcomes. -/
def AnyPayout (_ : State) (_ : PayoutInput) : Prop := True

instance (st : State) (i : PayoutInput) : Decidable (AnyPayout st i) :=
  inferInstanceAs (Decidable True)

/-! ## A payment note is handed over -/

section Handlers

variable {st : State} {pid q : Pid} {sid sid' : SessionId} {s : Session} {run run' : SettleRun}
  {charge charge' attempt cursor : ℕ} {w : Writes} {json : SettleJson} {file : NoteFile}
  {i : Input} {r : State × List Event}

theorem verdict_json (h : json ∈ run.verdict.json?) : run.verdict = .settled json := by
  cases hv : run.verdict with
  | settled json' =>
      rw [hv] at h
      rw [Option.some.inj h]
  | _ =>
      rw [hv] at h
      cases h

theorem endReturned_joao (hv : run.verdict = .settled json)
    (hfile : json.sellerNoteFileB64 = some file)
    (hw : (json.refundNoteFileB64.isNone || w.refunds) = true) :
    ∃ q, (st.endReturned pid sid s charge attempt run w).1.procs q = some (.joaoSweep file) := by
  unfold endReturned
  rw [hv]
  dsimp only
  split
  · next hrec => cases hw.symm.trans (recordRefund_eq_none hrec)
  · rw [hfile]
    exact ⟨_, Function.update_self _ _ _⟩

theorem sweepSettled_joao (hv : run.verdict = .settled json)
    (hfile : json.sellerNoteFileB64 = some file)
    (hw : (json.refundNoteFileB64.isNone || w.refunds) = true) :
    ∃ q, st.nextPid ≤ q ∧ q < (st.sweepSettled sid s run w).1.nextPid ∧
      (st.sweepSettled sid s run w).1.procs q = some (.joaoSweep file) := by
  unfold sweepSettled
  rw [hv]
  dsimp only
  split
  · next hrec => cases hw.symm.trans (recordRefund_eq_none hrec)
  · next st₁ hrec =>
      have hframe : Frame st none ((st₁.closeSession sid w).releaseCurrent sid) :=
        (Frame.refl.recordRefund hrec).closeSession.releaseCurrent
      rw [hfile]
      exact ⟨_, hframe.nextPid, Nat.lt_succ_self _, Function.update_self _ _ _⟩

theorem sweepReturned_joao (hlt : pid < st.nextPid) (hv : run.verdict = .settled json)
    (hfile : json.sellerNoteFileB64 = some file)
    (hw : (json.refundNoteFileB64.isNone || w.refunds) = true) :
    ∃ q, (st.sweepReturned pid sid s charge cursor run w).1.procs q = some (.joaoSweep file) := by
  obtain ⟨q, hle, hq, hproc⟩ : ∃ q, st.nextPid ≤ q ∧
      q < (st.sweepSettled sid s run w).1.nextPid ∧
      (st.sweepSettled sid s run w).1.procs q = some (.joaoSweep file) :=
    sweepSettled_joao hv hfile hw
  have hframe : Frame (st.sweepSettled sid s run w).1 (some pid)
      ((st.sweepSettled sid s run w).1.sweepFrom pid cursor).1 :=
    (handled_sweepFrom Frame.refl (.inr rfl)).frame
  refine ⟨q, ?_⟩
  rw [← hproc]
  apply hframe.procs q hq
  rintro ⟨⟩
  exact absurd hlt (Nat.not_lt_of_le hle)

/-! Which runs are reported as ended. -/

theorem kind_of_run {e : Event} {x : ℕ × SettleRun} (h : e.run = some x) : e.kind = .closing := by
  cases e with
  | settleEnd pid sid charge run => rfl
  | _ => cases h

theorem runs_refundEvents {u : WalletId} {refund : Option NoteFile} :
    (refundEvents sid u refund).filterMap Event.run = [] := by
  cases refund <;> rfl

theorem runs_startJoao {payment : Option NoteFile} :
    (st.startJoao payment).2.filterMap Event.run = [] := by
  cases payment <;> rfl

theorem runs_sweepFrom : (st.sweepFrom pid cursor).2.filterMap Event.run = [] := by
  unfold sweepFrom
  split
  · rfl
  · split <;> rfl

theorem runs_endReturned :
    (st.endReturned pid sid s charge attempt run w).2.filterMap Event.run = [(charge, run)] := by
  unfold endReturned
  dsimp only
  split
  · split
    · rfl
    · simp only [List.cons_append, List.append_assoc, List.filterMap_cons, List.filterMap_append,
        runs_refundEvents, runs_startJoao, Event.run, List.filterMap_nil, List.nil_append]
  · rfl
  · split <;> rfl
  · rfl

theorem runs_sweepSettled : (st.sweepSettled sid s run w).2.filterMap Event.run = [] := by
  unfold sweepSettled
  split
  · split
    · rfl
    · simp only [List.filterMap_append, List.filterMap_cons, runs_refundEvents, runs_startJoao,
        Event.run, List.nil_append]
  · rfl
  · rfl

theorem runs_sweepReturned :
    (st.sweepReturned pid sid s charge cursor run w).2.filterMap Event.run = [(charge, run)] := by
  simp [sweepReturned, List.filterMap_append, runs_sweepSettled, runs_sweepFrom, Event.run]

/-- A success that a step reports comes with the refund record and the sweep of its
payment note. -/
theorem payout_step {x : ℕ × SettleRun} {e : Event} {joaoOk : Bool} {orphans : List (Pid × SettleRun)}
    (hf : st.Fresh) (hi : step st i = some r) (hok : PaysOut st ⟨i, joaoOk, orphans⟩)
    (he : e ∈ r.2) (hrun : e.run = some x) (hjson : json ∈ x.2.verdict.json?)
    (hfile : json.sellerNoteFileB64 = some file) :
    ∃ q, r.1.procs q = some (.joaoSweep file) := by
  have hmem : x ∈ r.2.filterMap Event.run := List.mem_filterMap.mpr ⟨e, he, hrun⟩
  have hkind := kind_step hi e he
  rw [kind_of_run hrun] at hkind
  obtain ⟨act, w⟩ := i
  cases steps_of_step hi with
  | endReturned hp _ _ _ =>
      obtain rfl : x = _ := List.mem_singleton.mp (runs_endReturned ▸ hmem)
      exact endReturned_joao (verdict_json hjson) hfile (hok json hjson (by rw [hfile]; rfl))
  | sweepReturned hp _ _ _ =>
      obtain rfl : x = _ := List.mem_singleton.mp (runs_sweepReturned ▸ hmem)
      exact sweepReturned_joao (by rw [nextPid_land]; exact hf.lt hp) (verdict_json hjson) hfile
        (hok json hjson (by rw [hfile]; rfl))
  | _ => simp [Action.kinds] at hkind

/-- Only its own return ends a `joao_sweep` run of the process. -/
theorem joao_step (hf : st.Fresh) (hone : OneProcess st i) (hi : step st i = some r)
    (hp : st.procs q = some (.joaoSweep file)) :
    r.1.procs q = some (.joaoSweep file) ∨ i.act = .joaoReturned q := by
  by_cases hmine : i.act.returns = some q
  · right
    obtain ⟨act, w⟩ := i
    have hsame : ∀ {p : Proc}, st.procs q = some p → p = .joaoSweep file :=
      fun h => Option.some.inj (h.symm.trans hp)
    cases steps_of_step hi with
    | joaoReturned hq => rw [← Option.some.inj hmine]
    | escrowFailed hq | escrowBuilt hq | escrowVerified _ hq | endReturned hq | endWoken hq =>
        obtain rfl := Option.some.inj hmine
        cases hsame hq
    | sweepReturned hq | answered _ hq | funded _ hq =>
        obtain rfl := Option.some.inj hmine
        cases hsame hq
    | _ => cases hmine
  · exact .inl ((((handled_step hi hone).frame.procs q (hf.lt hp) hmine)).trans hp)

end Handlers

/-! ## Runs -/

/-- What the JSON line of a success says about the payment note. -/
theorem SettleRun.Of.payment {faucet : AccountId} {explorer : String} {note : EscrowNote}
    {charge : ℕ} {run : SettleRun} {json : SettleJson} (h : run.Of faucet explorer note charge)
    (hjson : json ∈ run.verdict.json?) (hcharge : 0 < charge) :
    ∃ file, json.sellerNoteFileB64 = some file := by
  obtain ⟨calls, -, -, hprinted⟩ := h
  obtain ⟨hcode, hline⟩ := settled_of_verdict (verdict_json hjson)
  have hok := hprinted json hcode hline
  simp only [settleSession, bind_eq_ok, pure, Except.pure, Except.ok.injEq] at hok
  obtain ⟨-, -, -, -, -, -, -, -, rfl⟩ := hok
  exact ⟨_, if_pos hcharge⟩

/-- Each payment note of the run is swept, or a sweep of it is in flight. -/
def PaymentsSwept (tr : List PayoutEvent) (st : State) : Prop :=
  ∀ e ∈ tr, ∀ x ∈ e.settlement, 0 < x.1 → ∀ json ∈ x.2.verdict.json?, ∀ file,
    json.sellerNoteFileB64 = some file →
      .joaoEnd file true ∈ tr ∨ ∃ pid, st.procs pid = some (.joaoSweep file)

section Runs

variable {st : State} {i : PayoutInput} {s' : State} {tr es : List PayoutEvent}

theorem payments_step (hf : st.Fresh) (hok : PaysOut st i) (hi : payoutStep st i = some (s', es))
    (h : PaymentsSwept tr st) : PaymentsSwept (tr ++ es) s' := by
  obtain ⟨⟨act, w⟩, joaoOk, orphans⟩ := i
  obtain ⟨r, hr, heq⟩ := Option.map_eq_some_iff.mp hi
  obtain ⟨rfl, rfl⟩ := Prod.mk.inj heq
  intro e he x hx hcharge json hjson file hfile
  rcases List.mem_append.mp he with he | he
  · -- a settlement of before: its sweep is over, or goes on unless it returns now
    rcases h e he x hx hcharge json hjson file hfile with hdone | ⟨q, hq⟩
    · exact .inl (List.mem_append_left _ hdone)
    · by_cases hone : OneProcess st ⟨act, w⟩
      · rcases joao_step hf hone hr hq with hq' | hact
        · exact .inr ⟨q, hq'⟩
        · obtain rfl : act = .joaoReturned q := hact
          obtain rfl : joaoOk = true := hok
          refine .inl (List.mem_append_right _ (List.mem_append_right _ ?_))
          simp [State.unnoticed, hq, Proc.joaoFile]
      · obtain rfl : act = .restart := by simpa [oneProcess_iff] using hone
        have hnone := hok.1 q (hf.lt hq)
        simp [hq, Proc.joaoFile] at hnone
  · rcases List.mem_append.mp he with he | he
    · obtain ⟨e', he', rfl⟩ := List.mem_map.mp he
      exact .inr (payout_step hf hr hok he' hx hjson hfile)
    · -- a settlement the bridge has not heard of: excluded
      cases act with
      | restart =>
          obtain ⟨y, hy, hmap⟩ := List.mem_filterMap.mp he
          obtain ⟨settle, hsettle, rfl⟩ := Option.map_eq_some_iff.mp hmap
          obtain rfl := Option.some.inj hx
          have hnone := hok.2 y hy settle hsettle hcharge
          rw [hnone] at hjson
          cases hjson
      | joaoReturned pid =>
          obtain ⟨file', -, rfl⟩ := Option.map_eq_some_iff.mp (Option.mem_toList.mp he)
          cases hx
      | _ => cases he

variable {disk : Disk} {now : ℕ} {nextPid : Pid} {chain : EscrowNote → NoteStatus}

theorem fresh_payoutStep (hf : st.Fresh) (hi : payoutStep st i = some (s', es)) : s'.Fresh := by
  obtain ⟨r, hr, heq⟩ := Option.map_eq_some_iff.mp hi
  obtain ⟨rfl, -⟩ := Prod.mk.inj heq
  exact fresh_step hf hr

theorem fresh_payout {ok : State → PayoutInput → Prop}
    (h : Trace (lts payoutStep ok) (boot disk now nextPid chain) tr st) : st.Fresh :=
  h.stateInvariant (fresh_boot _ _ _ _) fun _ _ _ hf ⟨_, _, hi⟩ => fresh_payoutStep hf hi

theorem payments_run (h : Trace (lts payoutStep PaysOut) (boot disk now nextPid chain) tr st) :
    PaymentsSwept tr st := by
  have hfresh := h.restrict (I := State.Fresh) (fresh_boot _ _ _ _)
    fun _ _ _ hf ⟨_, _, hi⟩ => fresh_payoutStep hf hi
  refine hfresh.invariant (I := fun st tr => PaymentsSwept tr st) (by simp [PaymentsSwept]) ?_
  rintro s tr es s' hswept ⟨hf, i, hok, hi⟩
  exact payments_step hf hok hi hswept

/-- **The payment notes are kept while every sweep succeeds**, in every run in
which no `joao_sweep` run fails, the bridge is not killed on the way from a
settlement to the end of its sweep, and the refund store is written when there is a
payment. -/
theorem payments_kept (faucet : AccountId) (explorer : String)
    (h : Trace (lts payoutStep PaysOut) (boot disk now nextPid chain) tr st)
    (hruns : ∀ e ∈ tr, ∀ x ∈ e.settlement, ∃ note, x.2.Of faucet explorer note x.1) :
    PaymentsKept tr st := by
  intro e he x hx hcharge json hjson
  obtain ⟨note, hof⟩ := hruns e he x hx
  obtain ⟨file, hfile⟩ := hof.payment hjson hcharge
  refine ⟨file, hfile, ?_⟩
  rcases payments_run h e he x hx hcharge json hjson file hfile with hdone | ⟨pid, hpid⟩
  · exact .inl hdone
  · exact .inr (.inl ⟨pid, by simp [hpid, Proc.joaoFile]⟩)

end Runs

/-! A session with one reply is ended, and its payment note is swept. -/

/-- A run that landed with a payment of 42. -/
def paidRun : SettleRun :=
  ⟨some 0, some ⟨49958, "p", some "refund", some "payment", "x"⟩, false, false,
    some ⟨49958, "refund"⟩⟩

def paidSession : List Action :=
  openSession ++ [.chat ⟨0, [0x68, 0x69], none⟩, .answered 2 (.ok demoAnswer), .endSession 0,
    .endReturned 3 paidRun, .joaoReturned 4]

def endPaidSession (joaoOk : Bool) : List PayoutInput :=
  (written paidSession).map fun i => ⟨i, joaoOk, []⟩

theorem paidRun_of : paidRun.Of demoNote.faucet "x" demoNote 42 :=
  ⟨⟨.ok "p", .ok (), .ok (), true, "payment", "refund"⟩, fun _ => rfl, rfl, fun json _ hjson => by
    rw [← Option.some.inj hjson]
    decide⟩

theorem payments_kept_demo : ∃ (tr : List PayoutEvent) (st : State),
    .joaoEnd "payment" true ∈ tr ∧ PaymentsKept tr st := by
  have h := trace_exec payoutStep PaysOut demoBoot (endPaidSession true) (by decide) (by decide)
  refine ⟨_, _, by decide, payments_kept demoNote.faucet "x" h fun e he x hx => ?_⟩
  obtain rfl : x = (42, paidRun) := by
    revert e x
    decide
  exact ⟨_, paidRun_of⟩

/-! The note is not committed when the sweep gives up: the run fails, and the file
is gone. -/

/-- The end of a run in which the sweep fails. -/
def droppedPayment : State × List PayoutEvent :=
  (exec payoutStep demoBoot (endPaidSession false)).get (by decide)

theorem droppedPayment_run :
    Trace (lts payoutStep AnyPayout) demoBoot droppedPayment.2 droppedPayment.1 :=
  trace_exec payoutStep AnyPayout demoBoot (endPaidSession false) (by decide) (by decide)

theorem droppedPayment_gone : ¬ droppedPayment.1.HoldsFile "payment" := by
  rintro (⟨pid, hpid⟩ | ⟨w, hw⟩)
  · by_cases hlt : pid < 5
    · have hbefore : ∀ q < 5, (droppedPayment.1.procs q).bind Proc.joaoFile = none := by decide
      rw [hbefore pid hlt] at hpid
      cases hpid
    · have hnone : droppedPayment.1.procs pid = none :=
        fresh_payout droppedPayment_run pid (Nat.le_of_not_lt hlt)
      simp [hnone] at hpid
  · have hrefunds : droppedPayment.1.loadRefunds =
        Function.update (fun _ => []) "0xb0b" ["refund"] := rfl
    rw [hrefunds, Function.update_apply] at hw
    split at hw <;> simp at hw

theorem payment_dropped : ¬ ∀ (disk : Disk) (now : ℕ) (nextPid : Pid)
    (chain : EscrowNote → NoteStatus) (faucet : AccountId) (explorer : String)
    (tr : List PayoutEvent) (st : State),
    Trace (lts payoutStep AnyPayout) (boot disk now nextPid chain) tr st →
      (∀ e ∈ tr, ∀ x ∈ e.settlement, ∃ note, x.2.Of faucet explorer note x.1) →
        PaymentsKept tr st := by
  intro h
  have hkept := h _ _ _ _ demoNote.faucet "x" _ _ droppedPayment_run fun e he x hx => by
    obtain rfl : x = (42, paidRun) := by
      revert e x
      decide
    exact ⟨_, paidRun_of⟩
  obtain ⟨file, hfile, hdone | hheld⟩ :=
    hkept (.bridge (.settleEnd 3 0 42 paidRun)) (by decide) (42, paidRun) rfl (by decide) _ rfl
  · cases hfile
    revert hdone
    decide
  · cases hfile
    exact droppedPayment_gone hheld

end Bartok.Bridge
