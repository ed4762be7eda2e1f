import Bartok.Bridge.FailedChat
import Bartok.Bridge.Restart

/-!
# The snapshot and the state

`persistSessions` is called in five places, each after a write to a session. In
four of them nothing is written to the session afterwards. In `/api/chat` the
turn enters the history after the call, so the file stays one turn behind until
the next session is opened, armed or closed, or until a restart loses the turn.
-/

namespace Bartok.Bridge

open Foundation Miden State

/-- What a session is, apart from its clocks and the flag of a settlement in
progress. -/
structure SessionRecord where
  buyerId : WalletId
  tier : String
  params : EscrowParams
  budget : ℕ
  escrowNoteB64 : Option EscrowNote
  charges : List Answer
  settled : Bool
  history : List Turn
deriving DecidableEq

/-- An absent history is an empty one. -/
def Session.record (s : Session) : SessionRecord :=
  ⟨s.buyerId, s.tier, s.params, s.budget, s.escrowNoteB64, s.charges, s.settled, s.history.getD []⟩

/-- The session in memory. -/
def State.remembered (st : State) (sid : SessionId) : Option SessionRecord :=
  (st.sessions.get? sid).map Session.record

/-- The session as a boot from this disk restores it. -/
def Disk.reloaded (disk : Disk) (sid : SessionId) : Option SessionRecord :=
  ((restoreSessions disk).get? sid).map Session.record

/-- Reloading the snapshot yields the sessions in memory. -/
def State.SnapshotCurrent (st : State) : Prop := ∀ sid, st.disk.reloaded sid = st.remembered sid

/-- The snapshot that a step writes, or a restart reads, and whether it is a reply
that writes it. -/
def State.snapshots (st : State) (i : Input) : List Bool :=
  match i.act with
  | .restart => [false]
  | .answered _ _ => if st.persists i then [true] else []
  | _ => if st.persists i then [false] else []

/-- The step function, with the snapshots in the place of the events. -/
def snapshotStep (st : State) (i : Input) : Option (State × List Bool) :=
  (step st i).map fun r => (r.1, st.snapshots i)

/-- Any step, restarts included, with every write succeeding. -/
def AnyWritten (_ : State) (i : Input) : Prop := i.writes = .ok

instance (st : State) (i : Input) : Decidable (AnyWritten st i) :=
  inferInstanceAs (Decidable (_ = _))

/-- No handler is suspended: no request and no sweep is in progress. -/
def State.AtRest (st : State) : Prop := ∀ pid, st.procs pid = none

/-! ## Records in memory and on disk -/

section Records

variable {st st' : State} {sid sid' : SessionId} {pid : Pid} {w : Writes} {file : Option NoteFile}
  {note : EscrowNote} {run : SettleRun} {ok : Bool} {f : Session → Session} {s : Session}
  {charge attempt cursor spent : ℕ} {prompt : JsString} {tier : String} {a : Answer}

/-- A write that concerns the clocks or the flag only. -/
def KeepsRecord (f : Session → Session) : Prop := ∀ s, (f s).record = s.record

theorem remembered_congr (h : st'.sessions = st.sessions) :
    st'.remembered sid = st.remembered sid := by
  rw [State.remembered, h, ← State.remembered]

theorem remembered_modify (st : State) (hf : KeepsRecord f) :
    (st.modify sid' f).remembered sid = st.remembered sid := by
  rw [State.remembered, State.modify, SlotMap.get?_modify]
  split
  · rw [Option.map_map]
    exact congrArg (Option.map · _) (funext hf)
  · rfl

theorem remembered_land : (st.land note run).remembered sid = st.remembered sid :=
  remembered_congr sessions_land

theorem remembered_persistSessions : (st.persistSessions ok).remembered sid = st.remembered sid := by
  unfold State.persistSessions
  split <;> rfl

theorem remembered_startJoao : (st.startJoao file).1.remembered sid = st.remembered sid := by
  unfold startJoao
  split <;> rfl

theorem remembered_releaseCurrent :
    (st.releaseCurrent sid').remembered sid = st.remembered sid := by
  unfold releaseCurrent
  split
  · exact remembered_modify st fun _ => rfl
  · rfl

theorem remembered_sweepFrom :
    (st.sweepFrom pid cursor).1.remembered sid = st.remembered sid := by
  unfold sweepFrom
  split
  · rfl
  · split
    · rfl
    · exact (remembered_modify (f := markSettling) _ fun _ => rfl)

theorem remembered_closeSession : (st.closeSession sid' w).remembered sid =
    ((st.modify sid' markSettled).evict sid').remembered sid :=
  remembered_persistSessions

theorem remembered_endReturned :
    (st.endReturned pid sid' s charge attempt run w).1.remembered sid =
      if run.closes w then ((st.modify sid' markSettled).evict sid').remembered sid
      else st.remembered sid := by
  have hrelease (st : State) : ((st.modify sid' release).finish pid).remembered sid =
      st.remembered sid := remembered_modify st fun _ => rfl
  unfold endReturned
  cases hv : run.verdict with
  | settled json =>
      simp only [SettleRun.closes, hv]
      split
      · next hrec =>
          rw [recordRefund_eq_none hrec]
          exact hrelease st
      · next hrec =>
          obtain ⟨hcloses, _, rfl⟩ := recordRefund_eq_some hrec
          rw [hcloses, remembered_startJoao, hrelease, remembered_closeSession]
          rfl
  | spent =>
      simp only [SettleRun.closes, hv]
      exact (hrelease _).trans remembered_closeSession
  | wedged =>
      simp only [SettleRun.closes, hv]
      split
      · rfl
      · exact hrelease st
  | failed =>
      simp only [SettleRun.closes, hv]
      exact hrelease st

theorem remembered_sweepSettled :
    (st.sweepSettled sid' s run w).1.remembered sid =
      if run.closes w then ((st.modify sid' markSettled).evict sid').remembered sid
      else st.remembered sid := by
  unfold sweepSettled
  cases hv : run.verdict with
  | settled json =>
      simp only [SettleRun.closes, hv]
      split
      · next hrec =>
          rw [recordRefund_eq_none hrec]
          exact remembered_releaseCurrent
      · next hrec =>
          obtain ⟨hcloses, _, rfl⟩ := recordRefund_eq_some hrec
          rw [hcloses, remembered_startJoao, remembered_releaseCurrent, remembered_closeSession]
          rfl
  | spent =>
      simp only [SettleRun.closes, hv]
      exact remembered_releaseCurrent.trans remembered_closeSession
  | wedged =>
      simp only [SettleRun.closes, hv]
      exact remembered_releaseCurrent
  | failed =>
      simp only [SettleRun.closes, hv]
      exact remembered_releaseCurrent

theorem sessions_persistSessions : (st.persistSessions ok).sessions = st.sessions := by
  unfold State.persistSessions
  split <;> rfl

theorem sessions_deliver : (st.deliver pid sid' s prompt tier spent a w).1.sessions =
    ((st.modify sid' (pushCharge a st.now)).modify sid' (pushTurns prompt a)).sessions := by
  have hturns : (((st.modify sid' (pushCharge a st.now)).persistSessions w.sessions).modify sid'
      (pushTurns prompt a)).sessions = _ :=
    congrArg (SlotMap.modify · sid' (pushTurns prompt a)) sessions_persistSessions
  unfold deliver
  dsimp only
  split
  · exact hturns
  · next hsave =>
      obtain rfl := saveUsers_eq_some hsave
      exact hturns

theorem Disk.reloaded_of_compact {disk : Disk} (h : disk.sessions = some st.sessions.compact) :
    disk.reloaded sid = (st.remembered sid).filter fun r => !r.settled := by
  have hsaved : disk.saved sid = st.sessions.get? sid := by
    rw [Disk.saved, h, Option.bind_some, SlotMap.get?, SlotMap.slot?_compact, SlotMap.get?]
    cases st.sessions.slot? sid with
    | none => rfl
    | some slot => cases hlive : slot.live <;> simp [Option.filter_some, hlive]
  rw [Disk.reloaded, State.remembered, ← hsaved, Option.filter_map]
  congr 1
  ext s
  rw [restored_get?, Option.filter_eq_some_iff]
  simp [Session.record]

end Records

/-! ## What a step does to them -/

/-- The snapshots of a step, and how they relate to the sessions in memory. -/
inductive Recorded (st st' : State) : List Bool → Prop
  | quiet (hdisk : st'.disk.sessions = st.disk.sessions)
      (hmem : ∀ sid, st'.remembered sid = st.remembered sid) : Recorded st st' []
  | saved {st₁ : State} (hdisk : st'.disk.sessions = some st₁.sessions.compact)
      (hmem : ∀ sid, st'.remembered sid = st₁.remembered sid) : Recorded st st' [false]
  | reply (st₁ : State) {sid : SessionId} {slot : Slot SessionId Session} {prompt : JsString}
      {a : Answer} (hdisk : st'.disk.sessions = some st₁.sessions.compact)
      (hmem : st'.sessions = (st₁.modify sid (pushTurns prompt a)).sessions)
      (hslot : st.sessions.slot? sid = some slot) (hopen : slot.val.settled = false)
      (hcharged : st₁.sessions = (st.modify sid (pushCharge a st.now)).sessions) :
      Recorded st st' [true]

/-- Neither the sessions nor their file is touched. -/
theorem Recorded.same {st st' : State}
    (h : (st'.disk.sessions, st'.sessions) = (st.disk.sessions, st.sessions)) :
    Recorded st st' [] :=
  .quiet (congrArg Prod.fst h) fun _ => remembered_congr (congrArg Prod.snd h)

section Steps

variable {st st' : State} {sid : SessionId} {pid : Pid} {run : SettleRun}
  {charge attempt cursor spent : ℕ}
  {prompt : JsString} {tier : String} {r : State × List Event}

/-- A settlement returns, and closes its session or leaves it open. -/
theorem recorded_close (note : EscrowNote)
    (hdisk : st'.disk.sessions =
      if Writes.ok.sessions && run.closes .ok then
        some (((st.land note run).modify sid markSettled).evict sid).sessions.compact
      else (st.land note run).disk.sessions)
    (hmem : ∀ sid', st'.remembered sid' = if run.closes .ok then
      (((st.land note run).modify sid markSettled).evict sid).remembered sid'
      else (st.land note run).remembered sid') :
    Recorded st st' (if run.closes .ok then [false] else []) := by
  cases hcloses : run.closes .ok with
  | true =>
      simp only [hcloses, if_true] at hdisk hmem
      exact .saved hdisk hmem
  | false =>
      simp only [hcloses, Bool.and_false, Bool.false_eq_true, if_false] at hdisk hmem
      exact .quiet (hdisk.trans (congrArg Disk.sessions disk_land)) fun sid' =>
        (hmem sid').trans remembered_land

/-- A reply writes the snapshot when it passes the guards. -/
theorem snapshots_answered {a : Answer}
    (hp : st.procs pid = some (.runAnswer sid prompt tier spent)) :
    st.snapshots ⟨.answered pid (.ok a), .ok⟩ =
      if (st.sessions.obj? sid).any fun s => spent + a.charge ≤ s.budget && !s.settled then [true]
      else [] := by
  simp [State.snapshots, State.persists, Writes.ok, hp]

theorem recorded_answered (hp : st.procs pid = some (.runAnswer sid prompt tier spent))
    (res : Except String Answer) :
    Recorded st (st.chatAnswered pid sid prompt tier spent res .ok).1
      (st.snapshots ⟨.answered pid res, .ok⟩) := by
  cases res with
  | error e => exact .same rfl
  | ok a =>
      rw [snapshots_answered hp]
      have hobj : ((st.finish pid).setBusy false).sessions.obj? sid =
          (st.sessions.slot? sid).map Slot.val := rfl
      unfold chatAnswered
      dsimp only
      rw [hobj, SlotMap.obj?]
      cases hslot : st.sessions.slot? sid with
      | none => exact .same rfl
      | some slot =>
          simp only [Option.map_some, Option.any_some]
          split
          · next hover =>
              rw [if_neg (by simp [hover])]
              exact .same rfl
          · next hfits =>
              split
              · next hclosed =>
                  rw [if_neg (by simp [hclosed])]
                  exact .same rfl
              · next hopen =>
                  rw [if_pos (by simp [Nat.le_of_not_lt hfits, hopen])]
                  exact .reply (((st.finish pid).setBusy false).modify sid (pushCharge a st.now))
                    disk_deliver sessions_deliver hslot (Bool.eq_false_iff.mpr hopen) rfl

theorem recorded_step {i : Input} (hw : i.writes = .ok) (hi : step st i = some r)
    (hone : OneProcess st i) : Recorded st r.1 (st.snapshots i) := by
  obtain ⟨act, w⟩ := i
  obtain rfl : w = .ok := hw
  cases steps_of_step hi with
  | restart => exact hone.elim
  | escrowBuilt hp hnew => exact .saved disk_persistSessions fun _ => remembered_persistSessions
  | escrowVerified committed hp =>
      cases committed with
      | false => exact .quiet rfl fun _ => rfl
      | true => exact .saved disk_persistSessions fun _ => remembered_persistSessions
  | chat req =>
      unfold State.chat
      dsimp only
      split
      · exact .same rfl
      · split
        · exact .quiet rfl fun _ => remembered_modify (f := openHistory) _ fun _ => rfl
        · exact .same rfl
  | answered res hp => exact recorded_answered hp res
  | endSession sid =>
      unfold sessionEnd
      dsimp only
      split
      · exact .same rfl
      · split
        · exact .same rfl
        · split
          · exact .same rfl
          · split
            · exact .same rfl
            · exact .quiet rfl fun _ => remembered_modify st.arrive fun _ => rfl
  | endReturned hp _ _ _ => exact recorded_close _ disk_endReturned fun _ => remembered_endReturned
  | sweep => exact .quiet (congrArg Disk.sessions disk_sweepFrom) fun _ => remembered_sweepFrom
  | sweepReturned hp _ _ _ =>
      exact recorded_close _ ((congrArg Disk.sessions disk_sweepFrom).trans disk_sweepSettled)
        fun _ => remembered_sweepFrom.trans remembered_sweepSettled
  | _ => exact .same (sessions_step hi rfl)

/-- In memory there are open sessions only. -/
theorem open_of_exclusive {rec : SessionRecord} (hv : Exclusive (st.view sid))
    (h : st.remembered sid = some rec) : rec.settled = false := by
  obtain ⟨s, hs, rfl⟩ := Option.map_eq_some_iff.mp h
  obtain ⟨slot, hslot, hlive, rfl⟩ := SlotMap.get?_eq_some.mp hs
  have := hv.settled_eq slot hslot
  rwa [hlive] at this

theorem Recorded.current_of_saved {st₁ : State} (hv : ∀ sid, Exclusive (st'.view sid))
    (hdisk : st'.disk.sessions = some st₁.sessions.compact)
    (hmem : ∀ sid, st'.remembered sid = st₁.remembered sid) : st'.SnapshotCurrent := by
  intro sid
  rw [Disk.reloaded_of_compact hdisk, ← hmem sid]
  cases hrec : st'.remembered sid with
  | none => rfl
  | some rec => rw [Option.filter_some, if_pos (by simp [open_of_exclusive (hv sid) hrec])]

/-- A reply leaves its turn out of the snapshot. -/
theorem Recorded.behind_of_reply {st₁ : State} {slot : Slot SessionId Session} {a : Answer}
    (hv : Exclusive (st.view sid)) (hdisk : st'.disk.sessions = some st₁.sessions.compact)
    (hmem : st'.sessions = (st₁.modify sid (pushTurns prompt a)).sessions)
    (hslot : st.sessions.slot? sid = some slot) (hopen : slot.val.settled = false)
    (hcharged : st₁.sessions = (st.modify sid (pushCharge a st.now)).sessions) :
    ¬ st'.SnapshotCurrent := by
  intro h
  have hlive : slot.live = true := by simpa [hopen] using hv.settled_eq slot hslot
  have hget : st.sessions.get? sid = some slot.val :=
    SlotMap.get?_eq_some.mpr ⟨slot, hslot, hlive, rfl⟩
  have hcharged : st₁.sessions.get? sid = some (pushCharge a st.now slot.val) := by
    rw [hcharged, State.modify, SlotMap.get?_modify, if_pos rfl, hget, Option.map_some]
  have hboth := h sid
  rw [Disk.reloaded_of_compact hdisk, State.remembered, State.remembered, hmem, State.modify,
    SlotMap.get?_modify, if_pos rfl, hcharged] at hboth
  simp [Option.filter_some, Session.record, pushCharge, pushTurns, hopen] at hboth

theorem Recorded.current {marks : List Bool} (hv : ∀ sid, Exclusive (st.view sid))
    (hv' : ∀ sid, Exclusive (st'.view sid)) (h : Recorded st st' marks) (before : List Bool)
    (hst : st.SnapshotCurrent ↔ before.getLast? ≠ some true) :
    st'.SnapshotCurrent ↔ (before ++ marks).getLast? ≠ some true := by
  cases h with
  | quiet hdisk hmem =>
      rw [List.append_nil, ← hst]
      have hload : ∀ sid, st'.disk.reloaded sid = st.disk.reloaded sid := fun sid => by
        simp only [Disk.reloaded, restoreSessions, hdisk]
      exact forall_congr' fun sid => by rw [hload, hmem]
  | saved hdisk hmem => simpa using Recorded.current_of_saved hv' hdisk hmem
  | reply st₁ hdisk hmem hslot hopen hcharged =>
      simpa using Recorded.behind_of_reply (hv _) hdisk hmem hslot hopen hcharged

end Steps

/-! ## Runs -/

section Runs

variable {disk : Disk} {now : ℕ} {nextPid : Pid} {chain : EscrowNote → NoteStatus} {st : State}
  {marks : List Bool}

theorem current_boot : (boot disk now nextPid chain).SnapshotCurrent := fun _ => rfl

theorem snapshots_run
    (h : Trace (lts snapshotStep AnyWritten) (boot disk now nextPid chain) marks st) :
    (st.Fresh ∧ ∀ sid, Exclusive (st.view sid)) ∧
      (st.SnapshotCurrent ↔ marks.getLast? ≠ some true) := by
  refine h.invariant (I := fun st marks => (st.Fresh ∧ ∀ sid, Exclusive (st.view sid)) ∧
    (st.SnapshotCurrent ↔ marks.getLast? ≠ some true)) ?_ ?_
  · exact ⟨⟨fresh_boot _ _ _ _, fun _ => boot_exclusive⟩, iff_of_true current_boot (by simp)⟩
  · rintro st before _ st' ⟨⟨hf, hv⟩, hst⟩ ⟨i, hw, hmarked⟩
    obtain ⟨r, hi, heq⟩ := Option.map_eq_some_iff.mp hmarked
    obtain ⟨rfl, rfl⟩ := Prod.mk.inj heq
    by_cases hact : i.act = .restart
    · obtain rfl : r = (st.restarted, []) := by simpa [step, hact, State.restarted, eq_comm] using hi
      have hmark : st.snapshots i = [false] := by simp [State.snapshots, hact]
      rw [hmark]
      exact ⟨⟨fresh_boot _ _ _ _, fun _ => boot_exclusive⟩, iff_of_true current_boot (by simp)⟩
    · have hone : OneProcess st i := oneProcess_iff.mpr hact
      have hv' : ∀ sid, Exclusive (r.1.view sid) := fun sid =>
        (step_sees sid hf hone hi).2.stateInvariant (hv sid) fun _ _ _ hv hstep => hstep.exclusive hv
      have hf' := (step_sees 0 hf hone hi).1
      exact ⟨⟨hf', hv'⟩, (recorded_step hw hi hone).current hv hv' before hst⟩

/-- **The snapshot is the state, except after a reply.** In every state that a run
with restarts reaches: reloading the file yields the sessions in memory if and
only if the last snapshot written, or read by a restart, is not that of a reply. -/
theorem snapshot_current_iff
    (h : Trace (lts snapshotStep AnyWritten) (boot disk now nextPid chain) marks st) :
    st.SnapshotCurrent ↔ marks.getLast? ≠ some true :=
  (snapshots_run h).2

end Runs

/-! A reply leaves the snapshot behind. The next session that opens brings it up to
date. -/

def oneReply : List Action :=
  openSession ++ [.chat ⟨0, [0x68, 0x69], none⟩, .answered 2 (.ok demoAnswer)]

theorem snapshot_current_demo : ∃ (marks : List Bool) (st : State),
    Trace (lts snapshotStep AnyWritten) demoBoot marks st ∧ marks = [false, false, true, false] ∧
      st.SnapshotCurrent :=
  have h := trace_exec snapshotStep AnyWritten demoBoot (written (oneReply ++ openAnother ++
    [.escrowBuilt 3 1 (some demoParams)])) (by decide) (by decide)
  ⟨_, _, h, by decide, (snapshot_current_iff h).mpr (by decide)⟩

/-- The bridge after one reply, with nothing in progress. -/
def repliedState : State := ((exec step demoBoot (written oneReply)).get (by decide)).1

theorem atRest_replied : repliedState.AtRest := by
  have hrun := trace_exec step AllWritten demoBoot (written oneReply) (by decide) (by decide)
  have hfresh : repliedState.Fresh := (trace_sees false 0 (fun _ _ h => h.1) (by simp)
    (fresh_boot _ _ _ _) hrun).1
  intro pid
  by_cases hpid : pid < repliedState.nextPid
  · have hlt : pid < 3 := hpid
    have hnone : ∀ pid < 3, repliedState.procs pid = none := by decide
    exact hnone pid hlt
  · exact hfresh pid (Nat.le_of_not_lt hpid)

/-- **The snapshot is one turn behind.** After a session's first reply, with nothing
in progress, its history in the file is empty. -/
theorem snapshot_behind : ¬ ∀ (disk : Disk) (now : ℕ) (nextPid : Pid)
    (chain : EscrowNote → NoteStatus) (tr : List Event) (st : State),
    Trace (lts step AnyWritten) (boot disk now nextPid chain) tr st → st.AtRest →
      st.SnapshotCurrent := by
  intro h
  have hrun := trace_exec step AnyWritten demoBoot (written oneReply) (by decide) (by decide)
  have hsame := h _ _ _ _ _ repliedState hrun atRest_replied 0
  revert hsame
  decide

end Bartok.Bridge
