import Bartok.Bridge.Frame

/-!
# The bridge as one session sees it

`State.view` keeps of the whole bridge what concerns one session: the clock, the
chain, the session's slot and the settlements in progress on it. `SessionStep`
lists what can happen to a session, and `view_simulates` shows that nothing else
does: whatever the bridge does in a step is a run of `SessionStep` with the
events about the session.

The flag `safe` stands for successful writes. Without it a settlement that
cannot record its refund gives up, and a delivered reply may stay unanswered.
-/

namespace Bartok.Bridge

open Foundation Miden State

/-- A settlement in progress: its charge, and whether it waits between two
attempts. -/
structure Hold where
  charge : ℕ
  waiting : Bool
deriving DecidableEq

def Proc.hold (sid : SessionId) : Proc → Option Hold
  | .endSettle s charge _ => if s = sid then some ⟨charge, false⟩ else none
  | .endBackoff s charge _ => if s = sid then some ⟨charge, true⟩ else none
  | .sweepSettle s charge _ => if s = sid then some ⟨charge, false⟩ else none
  | _ => none

structure SessionView where
  now : ℕ
  chain : EscrowNote → NoteStatus
  slot : Option (Slot SessionId Session)
  holds : Pid → Option Hold

def State.view (sid : SessionId) (st : State) : SessionView where
  now := st.now
  chain := st.chain
  slot := st.sessions.slot? sid
  holds pid := (st.procs pid).bind (Proc.hold sid)

def Event.about (sid : SessionId) : Event → Bool
  | .settleStart _ s _ _ => s = sid
  | .settleEnd _ s _ _ => s = sid
  | .refundRecorded s _ _ => s = sid
  | .evicted s => s = sid
  | .done _ (.reply s _ _ _) => s = sid
  | _ => false

section About

variable {sid s : SessionId} {pid : Pid}

@[simp] theorem about_settleStart {charge : ℕ} {note : EscrowNote} :
    Event.about sid (.settleStart pid s charge note) = decide (s = sid) := rfl

@[simp] theorem about_settleEnd {charge : ℕ} {run : SettleRun} :
    Event.about sid (.settleEnd pid s charge run) = decide (s = sid) := rfl

@[simp] theorem about_refundRecorded {w : WalletId} {file : NoteFile} :
    Event.about sid (.refundRecorded s w file) = decide (s = sid) := rfl

@[simp] theorem about_evicted : Event.about sid (.evicted s) = decide (s = sid) := rfl

@[simp] theorem about_reply {a : Answer} {total remaining : ℕ} :
    Event.about sid (.done pid (.reply s a total remaining)) = decide (s = sid) := rfl

@[simp] theorem about_error {status : ℕ} {message : String} :
    Event.about sid (.done pid (.error status message)) = false := rfl

@[simp] theorem about_settled {charge refund : ℕ} {file : Option NoteFile} :
    Event.about sid (.done pid (.settled s charge refund file)) = false := rfl

@[simp] theorem about_stage {name : String} : Event.about sid (.stage pid name) = false := rfl

@[simp] theorem about_seller {e : SellerEvent} : Event.about sid (.seller e) = false := rfl

@[simp] theorem about_joaoStart {file : NoteFile} : Event.about sid (.joaoStart file) = false := rfl

@[simp] theorem about_fundStart {w : WalletId} {code : Code} :
    Event.about sid (.fundStart pid w code) = false := rfl

@[simp] theorem about_fundEnd {w : WalletId} {code : Code} {ok : Bool} :
    Event.about sid (.fundEnd pid w code ok) = false := rfl

end About

namespace SessionView

variable (v : SessionView)

/-- Write to the session's object. -/
def put (f : Session → Session) : SessionView :=
  { v with slot := v.slot.map fun slot => { slot with val := f slot.val } }

def delete : SessionView :=
  { v with slot := v.slot.map fun slot => { slot with live := false } }

def hold (pid : Pid) (h : Option Hold) : SessionView :=
  { v with holds := Function.update v.holds pid h }

def land (note : EscrowNote) (run : SettleRun) : SessionView :=
  if run.landed.isSome then { v with chain := Function.update v.chain note .spent } else v

end SessionView

/-- What closing a session records and announces, for each verdict that closes. -/
def closingEvents (sid : SessionId) (buyerId : WalletId) : Verdict → Option (List Event)
  | .settled json => some (refundEvents sid buyerId json.refundNoteFileB64 ++ [.evicted sid])
  | .spent => some [.evicted sid]
  | _ => none

/-- A settlement that ends without closing its session: it failed, or its
refund could not be recorded. -/
def givesUp (safe : Bool) : Verdict → Bool
  | .settled json => !safe && json.refundNoteFileB64.isSome
  | .spent => false
  | _ => true

inductive SessionStep (sid : SessionId) (safe : Bool) : Lts SessionView Event
  | world {v now chain} (hnow : v.now ≤ now)
      (hchain : ∀ note, v.chain note = .spent → chain note = .spent) :
      SessionStep sid safe v [] { v with now, chain }
  | create {v} (buyerId : WalletId) (tier : String) (budget : ℕ) (params : EscrowParams)
      (hslot : v.slot = none) :
      SessionStep sid safe v []
        { v with slot := some ⟨sid, newSession buyerId tier budget params v.now, true⟩ }
  | use {v f} (hf : f = arm v.now ∨ f = openHistory) : SessionStep sid safe v [] (v.put f)
  | reply {v slot prompt a total remaining} (pid : Pid) (hslot : v.slot = some slot)
      (hopen : slot.val.settled = false) :
      SessionStep sid safe v [.done pid (.reply sid a total remaining)]
        ((v.put (pushCharge a v.now)).put (pushTurns prompt a))
  | lost {v slot prompt a} (hslot : v.slot = some slot) (hopen : slot.val.settled = false)
      (hsafe : safe = false) :
      SessionStep sid safe v [] ((v.put (pushCharge a v.now)).put (pushTurns prompt a))
  | start {v slot note f} (pid : Pid) (hslot : v.slot = some slot) (hlive : slot.live = true)
      (hopen : slot.val.settled = false) (hfree : slot.val.settling = false)
      (hnote : slot.val.escrowNoteB64 = some note) (hf : f = beginSettle v.now ∨ f = markSettling) :
      SessionStep sid safe v [.settleStart pid sid slot.val.totalCharge note]
        ((v.put f).hold pid (some ⟨slot.val.totalCharge, false⟩))
  | wait {v slot charge note run} (pid : Pid) (hslot : v.slot = some slot)
      (hnote : slot.val.escrowNoteB64 = some note) (hhold : v.holds pid = some ⟨charge, false⟩)
      (hland : run.landed.isSome → v.chain note = .committed) (hrun : run.verdict = .wedged) :
      SessionStep sid safe v [.settleEnd pid sid charge run]
        ((v.land note run).hold pid (some ⟨charge, true⟩))
  | retry {v slot charge note} (pid : Pid) (hslot : v.slot = some slot)
      (hnote : slot.val.escrowNoteB64 = some note) (hhold : v.holds pid = some ⟨charge, true⟩) :
      SessionStep sid safe v [.settleStart pid sid charge note]
        (v.hold pid (some ⟨charge, false⟩))
  | giveUp {v slot charge note run f} (pid : Pid) (hslot : v.slot = some slot)
      (hnote : slot.val.escrowNoteB64 = some note) (hhold : v.holds pid = some ⟨charge, false⟩)
      (hland : run.landed.isSome → v.chain note = .committed)
      (hrun : givesUp safe run.verdict = true)
      (hf : f = release ∨ f = id ∧ slot.live = false) :
      SessionStep sid safe v [.settleEnd pid sid charge run]
        (((v.land note run).put f).hold pid none)
  | close {v slot charge note run es f} (pid : Pid) (hslot : v.slot = some slot)
      (hnote : slot.val.escrowNoteB64 = some note) (hhold : v.holds pid = some ⟨charge, false⟩)
      (hland : run.landed.isSome → v.chain note = .committed)
      (hrun : closingEvents sid slot.val.buyerId run.verdict = some es)
      (hf : f = release ∨ f = id) :
      SessionStep sid safe v (.settleEnd pid sid charge run :: es)
        ((((v.land note run).put markSettled).delete.put f).hold pid none)

/-! ## How the handlers' building blocks change the view -/

section View

variable {st st' : State} {sid sid' : SessionId} {pid : Pid} {p : Proc} {v : SessionView}

@[simp] theorem SessionView.put_id : v.put id = v := by
  cases v
  simp [SessionView.put]

theorem SessionView.hold_eq {h : Option Hold} (hh : v.holds pid = h) : v.hold pid h = v := by
  simp [SessionView.hold, ← hh]

@[simp] theorem SessionView.hold_hold {h h' : Option Hold} :
    (v.hold pid h).hold pid h' = v.hold pid h' := by
  simp [SessionView.hold]

@[simp] theorem view_spawn : (st.spawn pid p).view sid = (st.view sid).hold pid (p.hold sid) := by
  simp only [State.view, spawn, SessionView.hold, SessionView.mk.injEq, true_and]
  funext q
  by_cases hq : q = pid
  · subst hq
    simp
  · simp [hq]

@[simp] theorem view_finish : (st.finish pid).view sid = (st.view sid).hold pid none := by
  simp only [State.view, finish, SessionView.hold, SessionView.mk.injEq, true_and]
  funext q
  by_cases hq : q = pid
  · subst hq
    simp
  · simp [hq]

@[simp] theorem view_arrive : st.arrive.view sid = st.view sid := rfl

@[simp] theorem view_setBusy {b : Bool} : (st.setBusy b).view sid = st.view sid := rfl

@[simp] theorem view_setStats {stats : SellerStats} : (st.setStats stats).view sid = st.view sid :=
  rfl

@[simp] theorem view_persistSessions {ok : Bool} :
    (st.persistSessions ok).view sid = st.view sid := by
  unfold persistSessions
  split <;> rfl

@[simp] theorem view_setUser {w : WalletId} {u : User} : (st.setUser w u).view sid = st.view sid :=
  rfl

@[simp] theorem view_addSpend {w : WalletId} {n : ℕ} : (st.addSpend w n).view sid = st.view sid :=
  rfl

@[simp] theorem view_claim {w : WalletId} {code : Code} {claimed : ℕ} :
    (st.claim w code claimed).view sid = st.view sid := rfl

@[simp] theorem view_captureClaimed {w : WalletId} :
    (st.captureClaimed w).1.view sid = st.view sid := by
  unfold captureClaimed
  split <;> rfl

theorem view_saveUsers {ok : Bool} (h : st.saveUsers ok = some st') :
    st'.view sid = st.view sid := by
  obtain rfl := saveUsers_eq_some h
  rfl

theorem view_recordRefund {w : WalletId} {file : Option NoteFile} {ok : Bool}
    (h : st.recordRefund w file ok = some st') : st'.view sid = st.view sid := by
  obtain ⟨-, _, rfl⟩ := recordRefund_eq_some h
  rfl

@[simp] theorem view_modify {f : Session → Session} :
    (st.modify sid f).view sid = (st.view sid).put f := by
  simp [State.view, State.modify, SessionView.put]

theorem view_modify_ne {f : Session → Session} (h : sid ≠ sid') :
    (st.modify sid' f).view sid = st.view sid := by
  simp [State.view, State.modify, h]

theorem view_insert {s : Session} (h : st.sessions.slot? sid = none) :
    (st.insert sid s).view sid = { st.view sid with slot := some ⟨sid, s, true⟩ } := by
  simp [State.view, State.insert, SlotMap.slot?_push h]

theorem view_insert_ne {s : Session} (h : st.sessions.slot? sid' = none) (hne : sid ≠ sid') :
    (st.insert sid' s).view sid = st.view sid := by
  simp [State.view, State.insert, SlotMap.slot?_push h, hne]

@[simp] theorem view_closeSession {w : Writes} :
    (st.closeSession sid w).view sid = ((st.view sid).put markSettled).delete := by
  rw [closeSession, view_persistSessions]
  simp [State.view, State.modify, State.evict, SessionView.put, SessionView.delete]

theorem view_closeSession_ne {w : Writes} (h : sid ≠ sid') :
    (st.closeSession sid' w).view sid = st.view sid := by
  rw [closeSession, view_persistSessions]
  simp [State.view, State.modify, State.evict, h]

theorem view_releaseCurrent (st : State) (sid : SessionId) :
    ∃ f, (f = release ∨ f = id ∧ st.sessions.get? sid = none) ∧
      (st.releaseCurrent sid).view sid = (st.view sid).put f := by
  unfold releaseCurrent
  split
  · exact ⟨release, .inl rfl, view_modify⟩
  · next h => exact ⟨id, .inr ⟨rfl, by simpa using h⟩, by simp⟩

theorem view_releaseCurrent_ne (h : sid ≠ sid') :
    (st.releaseCurrent sid').view sid = st.view sid := by
  unfold releaseCurrent
  split
  · exact view_modify_ne h
  · rfl

@[simp] theorem view_land {note : EscrowNote} {run : SettleRun} :
    (st.land note run).view sid = (st.view sid).land note run := by
  unfold State.land SessionView.land
  split <;> rfl

end View

/-! ## Pids -/

/-- No handler runs under a pid that has not been given out. -/
def State.Fresh (st : State) : Prop := ∀ pid, st.nextPid ≤ pid → st.procs pid = none

section Fresh

variable {st st' : State} {sid sid' : SessionId} {pid : Pid} {p : Proc}

theorem fresh_boot (disk : Disk) (now : ℕ) (nextPid : Pid) (chain : EscrowNote → NoteStatus) :
    (boot disk now nextPid chain).Fresh := fun _ _ => rfl

theorem State.Fresh.lt (hf : st.Fresh) (hp : st.procs pid = some p) : pid < st.nextPid := by
  by_contra hle
  rw [hf pid (Nat.le_of_not_lt hle)] at hp
  cases hp

theorem State.Fresh.congr (hf : st.Fresh) (hprocs : st'.procs = st.procs)
    (hpid : st'.nextPid = st.nextPid) : st'.Fresh := by
  intro pid hle
  rw [hprocs]
  exact hf pid (hpid ▸ hle)

theorem State.Fresh.arrive (hf : st.Fresh) : st.arrive.Fresh :=
  fun pid hle => hf pid (Nat.le_of_succ_le hle)

theorem State.Fresh.spawn (hf : st.Fresh) (hlt : pid < st.nextPid) : (st.spawn pid p).Fresh := by
  intro q hle
  have hne : q ≠ pid := by
    rintro rfl
    exact absurd hle (Nat.not_le_of_lt hlt)
  simpa [State.spawn, hne] using hf q hle

theorem State.Fresh.spawnNext (hf : st.Fresh) : (st.arrive.spawn st.nextPid p).Fresh :=
  hf.arrive.spawn (Nat.lt_succ_self _)

theorem State.Fresh.finish (hf : st.Fresh) : (st.finish pid).Fresh := by
  intro q hle
  by_cases hq : q = pid
  · simp [State.finish, hq]
  · simpa [State.finish, hq] using hf q hle

theorem State.Fresh.insert (hf : st.Fresh) {s : Session} : (st.insert sid s).Fresh := hf

theorem State.Fresh.modify (hf : st.Fresh) {f : Session → Session} : (st.modify sid f).Fresh := hf

theorem State.Fresh.evict (hf : st.Fresh) : (st.evict sid).Fresh := hf

theorem State.Fresh.setBusy (hf : st.Fresh) {b : Bool} : (st.setBusy b).Fresh := hf

theorem State.Fresh.setStats (hf : st.Fresh) {stats : SellerStats} : (st.setStats stats).Fresh := hf

theorem State.Fresh.setUser (hf : st.Fresh) {w : WalletId} {u : User} : (st.setUser w u).Fresh := hf

theorem State.Fresh.claim (hf : st.Fresh) {w : WalletId} {code : Code} {claimed : ℕ} :
    (st.claim w code claimed).Fresh := hf

theorem State.Fresh.captureClaimed (hf : st.Fresh) {w : WalletId} :
    (st.captureClaimed w).1.Fresh := by
  unfold State.captureClaimed
  split <;> exact hf

theorem State.Fresh.addSpend (hf : st.Fresh) {u : WalletId} {n : ℕ} : (st.addSpend u n).Fresh := hf

theorem State.Fresh.persistSessions (hf : st.Fresh) {ok : Bool} : (st.persistSessions ok).Fresh := by
  unfold State.persistSessions
  split <;> exact hf

theorem State.Fresh.closeSession (hf : st.Fresh) {w : Writes} : (st.closeSession sid w).Fresh :=
  hf.modify.evict.persistSessions

theorem State.Fresh.releaseCurrent (hf : st.Fresh) : (st.releaseCurrent sid).Fresh := by
  unfold State.releaseCurrent
  split <;> exact hf

theorem State.Fresh.land (hf : st.Fresh) {note : EscrowNote} {run : SettleRun} :
    (st.land note run).Fresh := by
  unfold State.land
  split <;> exact hf

theorem State.Fresh.saveUsers (hf : st.Fresh) {ok : Bool} (h : st.saveUsers ok = some st') :
    st'.Fresh := by
  obtain rfl := saveUsers_eq_some h
  exact hf

theorem State.Fresh.recordRefund (hf : st.Fresh) {w : WalletId} {file : Option NoteFile} {ok : Bool}
    (h : st.recordRefund w file ok = some st') : st'.Fresh := by
  obtain ⟨-, _, rfl⟩ := recordRefund_eq_some h
  exact hf

theorem State.Fresh.holds (hf : st.Fresh) : (st.view sid).holds st.nextPid = none := by
  simp [State.view, hf st.nextPid le_rfl]

/-- A new handler that settles nothing is not seen. -/
theorem view_spawnNext (sid : SessionId) (hf : st.Fresh) (hp : p.hold sid = none) :
    (st.arrive.spawn st.nextPid p).view sid = st.view sid := by
  rw [view_spawn, view_arrive, hp, SessionView.hold_eq hf.holds]

/-- Nor is the end of a handler that settles nothing. -/
theorem view_finish_of_hold (sid : SessionId) (hp : st.procs pid = some p)
    (hhold : p.hold sid = none) :
    (st.finish pid).view sid = st.view sid := by
  have hnone : (st.view sid).holds pid = none := by simp [State.view, hp, hhold]
  rw [view_finish, SessionView.hold_eq hnone]

theorem State.Fresh.startJoao (hf : st.Fresh) {file : Option NoteFile} :
    (st.startJoao file).1.Fresh := by
  unfold State.startJoao
  split
  · exact hf
  · exact hf.spawnNext

theorem view_startJoao (hf : st.Fresh) {file : Option NoteFile} :
    (st.startJoao file).1.view sid = st.view sid := by
  unfold State.startJoao
  split
  · rfl
  · exact view_spawnNext sid hf rfl

theorem startJoao_about {file : Option NoteFile} :
    (st.startJoao file).2.filter (Event.about sid) = [] := by
  unfold State.startJoao
  split <;> simp

theorem refundEvents_about {w : WalletId} {file : Option NoteFile} :
    (refundEvents sid' w file).filter (Event.about sid) =
      if sid' = sid then refundEvents sid' w file else [] := by
  cases file with
  | none => simp [refundEvents]
  | some file => by_cases h : sid' = sid <;> simp [refundEvents, h]

end Fresh

end Bartok.Bridge
