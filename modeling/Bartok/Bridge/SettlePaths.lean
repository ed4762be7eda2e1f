import Bartok.Bridge.SettleOutput

/-!
# The two ways to settle

The settlement is written twice, in `/api/session/end` and in `sweepAbandonedSessions`. Here
both run on the same session in the same state and get the same outcome, and what they leave
behind is compared: the sessions, their snapshot, the refunds, the payment that is handed on,
the seller's statistics and what his dashboard is told.
-/

namespace Bartok.Bridge

open Foundation Miden Json

section Handlers

variable (rt : SettleRuntime) (st : State) (sid : SessionId) (s : Session) (w : Writes)

/-- The `try` block of the sweeper after the run, and its `finally`. -/
def sweepTried (r : RunOutput) : State × List SettleEffect :=
  match r.settled with
  | some line =>
      let file := field "refundNoteFileB64" line
      match recordField rt st s w file with
      | .error _ => (st.releaseCurrent sid, [])
      | .ok st =>
          let st := (st.closeSession sid w).releaseCurrent sid
          let seller := field "sellerNoteFileB64" line
          ((st.startJoao (noteFile seller)).1,
            refundEffects s file ++ .evicted sid :: joaoEffects 300000 seller)
  | none =>
      if r.saysSpent then ((st.closeSession sid w).releaseCurrent sid, [.evicted sid])
      else (st.releaseCurrent sid, [])

/-- What the loop of the sweeper does about one session. -/
def sweepAlone (r : RunOutput) : State × List SettleEffect :=
  match st.sessions.get? sid with
  | none => (st, [])
  | some s =>
      match s.escrowNoteB64 with
      | none => (st, [])
      | some note =>
          if State.sweepable st.now s then
            let run := sweepTried rt (st.modify sid State.markSettling) sid s w r
            (run.1, .settleStart s.totalCharge note :: run.2)
          else (st, [])

end Handlers

/-! ## What is compared -/

def withoutActivity (s : Session) : Session := { s with lastActivity := 0 }

/-- The entries of a map in their order, up to `lastActivity`. -/
def entries (m : SlotMap SessionId Session) : List (SessionId × Session) :=
  m.compact.slots.map fun slot => (slot.key, withoutActivity slot.val)

def joaoFiles (es : List SettleEffect) : List (NoteFile × ℕ) :=
  es.filterMap fun
    | .joaoStart file timeout => some (file, timeout)
    | _ => none

structure Broadcast where
  charge : ℕ
  chargeUsd : JsNumber
  proposalId : Option Json
  explorer : Option Json

def broadcasts (es : List SettleEffect) : List Broadcast :=
  es.filterMap fun
    | .sessionSettled charge chargeUsd proposalId explorer =>
        some ⟨charge, chargeUsd, proposalId, explorer⟩
    | _ => none

structure SameEffect (x y : State × List SettleEffect) : Prop where
  sessions : entries x.1.sessions = entries y.1.sessions
  snapshot : x.1.disk.sessions.map entries = y.1.disk.sessions.map entries
  refunds : x.1.disk.refunds = y.1.disk.refunds
  joao : joaoFiles x.2 = joaoFiles y.2
  stats : x.1.sellerStats = y.1.sellerStats
  broadcasts : broadcasts x.2 = broadcasts y.2

/-- A file, if the field has one, can be written to the refund store. -/
def Storable (rt : SettleRuntime) (w : Writes) (v : Option Json) : Prop :=
  (noteFile v).isSome = true → v.any (!rt.stringifies ·) = false ∧ w.refunds = true

/-- The run succeeded, and the refund file that it may have printed can be stored. -/
def RecordedSuccess (rt : SettleRuntime) (w : Writes) (r : RunOutput) : Prop :=
  ∃ line, r.settled = some line ∧ Storable rt w (field "refundNoteFileB64" line)

section Entries

variable {m : SlotMap SessionId Session} {sid : SessionId} {f g : Session → Session}

/-- What a slot contributes. -/
def shown (slot : Slot SessionId Session) : Option (SessionId × Session) :=
  if slot.live then some (slot.key, withoutActivity slot.val) else none

theorem entries_eq : entries m = m.slots.filterMap shown := by
  rw [entries, SlotMap.compact, SlotMap.filterSlots, ← List.filterMap_eq_map, List.filterMap_filter]
  rfl

theorem entries_compact : entries m.compact = entries m := by
  change ((m.slots.filter Slot.live).filter Slot.live).map _ = (m.slots.filter Slot.live).map _
  rw [List.filter_filter]
  simp only [Bool.and_self]

/-- Two writes that differ in `lastActivity` only. -/
theorem entries_modify (h : ∀ s, withoutActivity (f s) = withoutActivity (g s)) :
    entries (m.modify sid f) = entries (m.modify sid g) := by
  simp only [entries_eq, SlotMap.modify, SlotMap.mapSlots, List.filterMap_map]
  apply List.filterMap_congr
  intro slot _
  by_cases hkey : slot.key = sid
  · simp [shown, hkey, h]
  · simp [shown, hkey]

/-- What was written to an object that is deleted does not show. -/
theorem entries_delete : entries ((m.modify sid f).delete sid) = entries (m.delete sid) := by
  simp only [entries_eq, SlotMap.modify, SlotMap.delete, SlotMap.mapSlots, List.filterMap_map]
  apply List.filterMap_congr
  intro slot _
  by_cases hkey : slot.key = sid <;> simp [shown, hkey]

theorem entries_modify_deleted :
    entries ((m.delete sid).modify sid f) = entries (m.delete sid) := by
  simp only [entries_eq, SlotMap.modify, SlotMap.delete, SlotMap.mapSlots, List.filterMap_map]
  apply List.filterMap_congr
  intro slot _
  by_cases hkey : slot.key = sid <;> simp [shown, hkey]

end Entries

/-! ## Outcome by outcome -/

section Outcomes

variable {rt : SettleRuntime} {st : State} {sid : SessionId} {s : Session} {note : EscrowNote}
  {w : Writes} {r : RunOutput} {line : Json} {pid : Pid} {charge : ℕ}

/-- Neither path has settled: the session is free again. -/
theorem sameEffect_released {es es' : List SettleEffect} (h : st.sessions.get? sid = some s)
    (hes : joaoFiles es = joaoFiles es') (hbroadcasts : broadcasts es = broadcasts es') :
    SameEffect ((((st.settleBegun sid).modify sid State.release).finish pid), es)
      ((st.modify sid State.markSettling).releaseCurrent sid, es') := by
  have hpresent : ((st.modify sid State.markSettling).sessions.get? sid).isSome = true := by
    change ((st.sessions.modify sid State.markSettling).get? sid).isSome = true
    rw [SlotMap.get?_modify, if_pos rfl, h]
    rfl
  rw [State.releaseCurrent, if_pos hpresent]
  refine ⟨?_, rfl, rfl, hes, rfl, hbroadcasts⟩
  change entries ((st.sessions.modify sid _).modify sid _) =
    entries ((st.sessions.modify sid _).modify sid _)
  rw [SlotMap.modify_modify, SlotMap.modify_modify]
  exact entries_modify fun _ => rfl

theorem sellerStats_closeSession : (st.closeSession sid w).sellerStats = st.sellerStats := by
  unfold State.closeSession State.persistSessions
  split <;> rfl

/-- Both paths have dropped the session. -/
theorem sameEffect_closed {es es' : List SettleEffect} (hes : joaoFiles es = joaoFiles es')
    (hbroadcasts : broadcasts es = broadcasts es') :
    SameEffect (((((st.settleBegun sid).closeSession sid w).modify sid State.release).finish pid), es)
      (((st.modify sid State.markSettling).closeSession sid w).releaseCurrent sid, es') := by
  have hgone : ((st.modify sid State.markSettling).closeSession sid w).sessions.get? sid = none := by
    rw [sessions_closeSession]
    exact SlotMap.get?_delete
  have hentries : ∀ f : Session → Session,
      entries (((st.sessions.modify sid f).modify sid State.markSettled).delete sid) =
        entries (st.sessions.delete sid) := fun f => by
    rw [SlotMap.modify_modify, entries_delete]
  rw [State.releaseCurrent, if_neg (by rw [hgone]; exact Bool.false_ne_true)]
  refine ⟨?_, ?_, ?_, hes, ?_, hbroadcasts⟩
  · change entries (((st.settleBegun sid).closeSession sid w).sessions.modify sid State.release) = _
    rw [sessions_closeSession, sessions_closeSession, entries_modify_deleted]
    exact (hentries _).trans (hentries _).symm
  · change ((st.settleBegun sid).closeSession sid w).disk.sessions.map entries = _
    rw [disk_closeSession, disk_closeSession]
    split
    · rw [Option.map_some, Option.map_some, entries_compact, entries_compact]
      exact congrArg some ((hentries _).trans (hentries _).symm)
    · rfl
  · change ((st.settleBegun sid).closeSession sid w).disk.refunds = _
    rw [refunds_closeSession, refunds_closeSession]
    rfl
  · change ((st.settleBegun sid).closeSession sid w).sellerStats = _
    rw [sellerStats_closeSession, sellerStats_closeSession]
    rfl

/-- The end of the path that the endpoint takes when its first run is no wedge. -/
theorem endAlone_once (h : Settleable st sid s note) (hwedged : r.wedged = false) :
    endAlone rt st sid w (fun _ => r) =
      ((endTried rt (st.settleBegun sid) sid s w st.nextPid s.totalCharge r).1,
        .stage "settle" :: .settleStart s.totalCharge note ::
          (endTried rt (st.settleBegun sid) sid s w st.nextPid s.totalCharge r).2) := by
  rw [endAlone_eq h, endLoop, if_neg (by rw [hwedged]; exact Bool.false_ne_true)]

theorem sweepAlone_once (h : Settleable st sid s note) (hidle : State.sweepable st.now s = true) :
    sweepAlone rt st sid w r =
      ((sweepTried rt (st.modify sid State.markSettling) sid s w r).1,
        .settleStart s.totalCharge note ::
          (sweepTried rt (st.modify sid State.markSettling) sid s w r).2) := by
  unfold sweepAlone
  simp only [h.present, h.armed, hidle, if_true]

theorem sellerStats_startJoao {file : Option NoteFile} :
    (st.startJoao file).1.sellerStats = st.sellerStats := by
  cases file <;> rfl

/-- Whether the refund file can be stored does not depend on the state. -/
theorem recordField_cases (rt : SettleRuntime) (s : Session) (w : Writes) (v : Option Json) :
    (Storable rt w v ∧ ∀ st : State, ∃ st', recordField rt st s w v = .ok st' ∧
        st'.sellerStats = st.sellerStats) ∨
      (¬ Storable rt w v ∧ ∀ st : State, ∃ message, recordField rt st s w v = .error message) := by
  unfold recordField Storable
  cases noteFile v with
  | none => exact .inl ⟨fun hfile => absurd hfile Bool.false_ne_true, fun st => ⟨st, rfl, rfl⟩⟩
  | some file =>
      cases hstack : v.any (!rt.stringifies ·) with
      | true =>
          exact .inr ⟨fun hcond => absurd (hcond rfl).1.symm Bool.false_ne_true,
            fun _ => ⟨rt.stackError, rfl⟩⟩
      | false =>
          cases hwrite : w.refunds with
          | true => exact .inl ⟨fun _ => ⟨rfl, rfl⟩, fun _ => ⟨_, rfl, rfl⟩⟩
          | false =>
              exact .inr ⟨fun hcond => absurd (hcond rfl).2 Bool.false_ne_true,
                fun _ => ⟨writeError, rfl⟩⟩

/-- The sweeper on an output does what it does on the run that the output stands for. -/
theorem sweepTried_eq_sweepSettled {run : SettleRun} (hread : ReadAs r run.verdict)
    (hstores : rt.Stores r) :
    (sweepTried rt st sid s w r).1 = (st.sweepSettled sid s run w).1 := by
  unfold sweepTried State.sweepSettled
  generalize hverdict : run.verdict = verdict at hread
  cases hread with
  | settled h hrefund hseller =>
      have hrecord := recordField_eq_recordRefund st s w (hstores _ h)
      simp only [h, hrefund, hseller]
      rw [← hrecord]
      cases recordField rt st s w _ <;> rfl
  | spent h hspent => simp only [h, hspent, if_true]
  | wedged h =>
      obtain ⟨hsettled, hspent, -⟩ := wedged_iff.mp h
      simp only [hsettled, hspent, Bool.false_eq_true, if_false]
  | failed h hspent => simp only [h, hspent, Bool.false_eq_true, if_false]

/-- A success is counted by the endpoint and not by the sweeper. -/
theorem settled_of_recorded (st : State) (sid : SessionId) (pid : Pid) (charge : ℕ)
    (hsettled : r.settled = some line)
    (hok : ∀ st : State, ∃ st', recordField rt st s w (field "refundNoteFileB64" line) = .ok st' ∧
      st'.sellerStats = st.sellerStats) :
    (endTried rt (st.settleBegun sid) sid s w pid charge r).1.sellerStats.settled =
        st.sellerStats.settled + 1 ∧
      (sweepTried rt (st.modify sid State.markSettling) sid s w r).1.sellerStats.settled =
        st.sellerStats.settled := by
  obtain ⟨x, hx, hxstats⟩ := hok (st.settleBegun sid)
  obtain ⟨y, hy, hystats⟩ := hok (st.modify sid State.markSettling)
  constructor
  · unfold endTried
    simp only [hsettled, hx]
    rw [sellerStats_startJoao]
    change ((x.setStats _).closeSession sid w).sellerStats.settled = _
    rw [sellerStats_closeSession]
    exact congrArg (·.settled + 1) hxstats
  · unfold sweepTried
    simp only [hsettled, hy]
    rw [sellerStats_startJoao]
    have hrelease : ((y.closeSession sid w).releaseCurrent sid).sellerStats =
        (y.closeSession sid w).sellerStats := by
      unfold State.releaseCurrent
      split <;> rfl
    rw [hrelease, sellerStats_closeSession]
    exact congrArg SellerStats.settled hystats

theorem not_sameEffect (h : Settleable st sid s note) (hidle : State.sweepable st.now s = true)
    (hwedged : r.wedged = false) (hrecorded : RecordedSuccess rt w r) :
    ¬ SameEffect (endAlone rt st sid w fun _ => r) (sweepAlone rt st sid w r) := by
  obtain ⟨line, hsettled, hstorable⟩ := hrecorded
  intro hsame
  rw [endAlone_once h hwedged, sweepAlone_once h hidle] at hsame
  rcases recordField_cases rt s w (field "refundNoteFileB64" line) with ⟨-, hok⟩ | ⟨hnot, -⟩
  · obtain ⟨hend, hsweep⟩ := settled_of_recorded st sid st.nextPid s.totalCharge hsettled hok
    have hstats := congrArg SellerStats.settled hsame.stats
    rw [hend, hsweep] at hstats
    omega
  · exact hnot hstorable

theorem sameEffect_of_not_recorded (h : Settleable st sid s note)
    (hidle : State.sweepable st.now s = true) (hwedged : r.wedged = false)
    (hnot : ¬ RecordedSuccess rt w r) :
    SameEffect (endAlone rt st sid w fun _ => r) (sweepAlone rt st sid w r) := by
  rw [endAlone_once h hwedged, sweepAlone_once h hidle]
  unfold endTried sweepTried
  cases hsettled : r.settled with
  | some line =>
      rcases recordField_cases rt s w (field "refundNoteFileB64" line) with
        ⟨hstorable, -⟩ | ⟨-, herror⟩
      · exact absurd ⟨line, hsettled, hstorable⟩ hnot
      · obtain ⟨message, hend⟩ := herror (st.settleBegun sid)
        obtain ⟨message', hsweep⟩ := herror (st.modify sid State.markSettling)
        simp only [hend, hsweep]
        exact sameEffect_released h.present rfl rfl
  | none =>
      cases r.saysSpent with
      | true => exact sameEffect_closed rfl rfl
      | false => exact sameEffect_released h.present rfl rfl

/-- **The two paths agree exactly when no success is recorded.** The sweeper neither counts a
settlement nor tells the seller about it. -/
theorem same_effect_iff (h : Settleable st sid s note) (hidle : State.sweepable st.now s = true)
    (hwedged : r.wedged = false) :
    SameEffect (endAlone rt st sid w fun _ => r) (sweepAlone rt st sid w r) ↔
      ¬ RecordedSuccess rt w r :=
  ⟨fun hsame hrecorded => not_sameEffect h hidle hwedged hrecorded hsame,
    sameEffect_of_not_recorded h hidle hwedged⟩

end Outcomes

/-! Two hours after its last use the session is due. -/

def idleBridge : State := { armedBridge with now := 7200001 }

theorem settleable_idle : Settleable idleBridge 0 demoArmed demoNote := ⟨rfl, rfl, rfl, rfl⟩

def spentOutput : RunOutput := ⟨some 1, "nullifiers already exist: [0xdeadbeef]".toList⟩

theorem same_effect_demo : SameEffect
    (endAlone demoSettleRuntime idleBridge 0 .ok fun _ => spentOutput)
    (sweepAlone demoSettleRuntime idleBridge 0 .ok spentOutput) := by
  apply (same_effect_iff settleable_idle (by decide) (by decide)).mpr
  rintro ⟨line, hline, -⟩
  have hnone : spentOutput.settled = none := rfl
  rw [hnone] at hline
  cases hline

def settledOutput : RunOutput := ⟨some 0, stringify (.obj settledLine)⟩

/-- An abandoned session is settled, and the seller's dashboard does not change. -/
theorem sweep_uncounted : ¬ ∀ (rt : SettleRuntime) (st : State) (sid : SessionId) (s : Session)
    (note : EscrowNote) (w : Writes) (r : RunOutput), Settleable st sid s note →
      State.sweepable st.now s = true → r.wedged = false →
        SameEffect (endAlone rt st sid w fun _ => r) (sweepAlone rt st sid w r) := by
  intro hsame
  have hsettled : settledOutput.settled = some (.obj settledLine) := settled_stringify _
  have hwedged : settledOutput.wedged = false := by
    rw [RunOutput.wedged, hsettled]
    rfl
  exact not_sameEffect settleable_idle (by decide) hwedged
    ⟨.obj settledLine, hsettled, fun _ => ⟨rfl, rfl⟩⟩
    (hsame demoSettleRuntime idleBridge 0 demoArmed demoNote .ok settledOutput settleable_idle
      (by decide) hwedged)

end Bartok.Bridge
