import Bartok.Bridge.Sweep

/-!
# Restarts from the snapshot

`persistSessions` writes every session as it is, the `settling` flags of
settlements in progress included, and a restart brings them back without the
settlements. A session restored with its flag set is locked for good: `end` and
the sweeper both leave it to a settlement that no longer exists.
-/

namespace Bartok.Bridge

open Foundation Miden State

/-- The session in the snapshot on disk. -/
def Disk.saved (disk : Disk) (sid : SessionId) : Option Session :=
  disk.sessions.bind fun snapshot => snapshot.get? sid

/-- The process is killed and started again. -/
def State.restarted (st : State) : State := boot st.disk st.now st.nextPid st.chain

/-- After a restart, and as long as no settlement of the session has been started,
the next `end` starts one, and so does the next sweep once the session is idle. -/
def State.AcceptedAfterRestart (st : State) (sid : SessionId) : Prop :=
  ∀ tr st', Trace (lts step OneProcess) st.restarted tr st' →
    (∀ e ∈ tr, e.startsSettling sid = false) →
      (∃ e ∈ (st'.sessionEnd sid).2, e.startsSettling sid = true) ∧
        ∃ s, st'.sessions.get? sid = some s ∧
          (s.lastSeen + sweepIdleMs ≤ st'.now → st'.NextSweepSettles sid)

section Restored

variable {st st' : State} {sid : SessionId} {slot : Slot SessionId Session} {s : Session}
  {tr : List Event} {disk : Disk} {now : ℕ} {nextPid : Pid} {chain : EscrowNote → NoteStatus}

theorem restored_get? : (restoreSessions disk).get? sid = some s ↔
    disk.saved sid = some s ∧ s.settled = false := by
  cases hm : disk.sessions with
  | none => simp [Disk.saved, restoreSessions, hm, SlotMap.get?, SlotMap.slot?, SlotMap.empty]
  | some m =>
      simp only [Disk.saved, restoreSessions, hm, Option.bind_some, SlotMap.get?_eq_some,
        SlotMap.slot?_filterSlots, Option.filter_eq_some_iff, Bool.and_eq_true, Bool.not_eq_true']
      constructor
      · rintro ⟨slot, ⟨hslot, hlive, hopen⟩, -, rfl⟩
        exact ⟨⟨slot, hslot, hlive, rfl⟩, hopen⟩
      · rintro ⟨⟨slot, hslot, hlive, rfl⟩, hopen⟩
        exact ⟨slot, ⟨hslot, hlive, hopen⟩, hlive, rfl⟩

theorem sessionEnd_armed (hslot : st.sessions.slot? sid = some slot) (h : Armed slot) :
    ∃ e ∈ (st.sessionEnd sid).2, e.startsSettling sid = true := by
  obtain ⟨note, hnote⟩ := Option.isSome_iff_exists.mp h.note
  have hget : st.arrive.sessions.get? sid = some slot.val :=
    SlotMap.get?_eq_some.mpr ⟨slot, hslot, h.live, rfl⟩
  simp [sessionEnd, hget, hnote, h.opened, h.free, Event.startsSettling]

theorem sessionEnd_settling (hget : st.sessions.get? sid = some s) (hset : s.settling = true) :
    ∀ e ∈ (st.sessionEnd sid).2, e.startsSettling sid = false := by
  have hget : st.arrive.sessions.get? sid = some s := hget
  unfold sessionEnd
  dsimp only
  rw [hget]
  dsimp only
  split
  · simp [Event.startsSettling]
  · split <;> simp [Event.startsSettling]

/-- As long as no settlement of an armed session starts, it stays armed. -/
theorem armed_run (hf : st.Fresh) (hv : Exclusive (st.view sid))
    (hslot : st.sessions.slot? sid = some slot) (h : Armed slot)
    (hrun : Trace (lts step OneProcess) st tr st')
    (hnone : ∀ e ∈ tr, e.startsSettling sid = false) :
    st'.Fresh ∧ Exclusive (st'.view sid) ∧
      ∃ slot', st'.sessions.slot? sid = some slot' ∧ Armed slot' := by
  obtain ⟨hf', hview⟩ := trace_sees false sid (fun _ _ h => h) (by simp) hf hrun
  have hmem : ∀ e ∈ tr.filter (Event.about sid), e.startsSettling sid = false :=
    fun e he => hnone e (List.mem_filter.mp he).1
  have hquiet : Trace (fun v es v' => SessionStep sid false v es v' ∧
      ∀ e ∈ es, e.startsSettling sid = false) (st.view sid) (tr.filter (Event.about sid))
      (st'.view sid) :=
    hview.mono_mem fun v es v' hstep hes => ⟨hstep, fun e he => hmem e (hes e he)⟩
  obtain ⟨hv', harmed⟩ := hquiet.stateInvariant
    (I := fun v => Exclusive v ∧ ∃ slot, v.slot = some slot ∧ Armed slot) ⟨hv, slot, hslot, h⟩ (by
      rintro v es v' ⟨hv, slot, hslot, harmed⟩ ⟨hstep, hes⟩
      refine ⟨hstep.exclusive hv, ?_⟩
      rcases hstep.armed hv hslot harmed with ⟨e, he, hstart⟩ | ⟨-, slot', hslot', harmed', -⟩
      · rw [hes e he] at hstart
        cases hstart
      · exact ⟨slot', hslot', harmed'⟩)
  exact ⟨hf', hv', harmed⟩

/-- **What decides is the flag in the snapshot.** -/
theorem accepted_iff_released (hsaved : st.disk.saved sid = some s)
    (hnote : s.escrowNoteB64.isSome = true) (hopen : s.settled = false) :
    st.AcceptedAfterRestart sid ↔ s.settling = false := by
  have hget : st.restarted.sessions.get? sid = some s := restored_get?.mpr ⟨hsaved, hopen⟩
  obtain ⟨slot, hslot, hlive, rfl⟩ := SlotMap.get?_eq_some.mp hget
  constructor
  · intro h
    by_contra hset
    rw [Bool.not_eq_false] at hset
    obtain ⟨⟨e, he, hstart⟩, -⟩ := h [] _ .refl (by simp)
    rw [sessionEnd_settling hget hset e he] at hstart
    cases hstart
  · intro hfree tr st' hrun hnone
    obtain ⟨hf, hv, slot', hslot', harmed⟩ := armed_run (fresh_boot _ _ _ _) boot_exclusive hslot
      ⟨hlive, hopen, hfree, hnote⟩ hrun hnone
    refine ⟨sessionEnd_armed hslot' harmed, slot'.val,
      SlotMap.get?_eq_some.mpr ⟨slot', hslot', harmed.live, rfl⟩, fun hidle => ?_⟩
    exact settles_of_due hf hv ⟨le_rfl, slot', hslot', harmed, hidle⟩

end Restored

/-! ## When the snapshot is written -/

/-- A finished run whose session is closed: it succeeded and its refund was
recorded, or it found the escrow spent. -/
def SettleRun.closes (run : SettleRun) (w : Writes) : Bool :=
  match run.verdict with
  | .settled json => json.refundNoteFileB64.isNone || w.refunds
  | .spent => true
  | _ => false

/-- The step replaces the snapshot on disk. -/
def State.persists (st : State) (i : Input) : Bool :=
  i.writes.sessions &&
    match i.act with
    | .escrowBuilt _ _ params => params.isSome
    | .escrowVerified _ committed => committed
    | .answered pid (.ok a) =>
        match st.procs pid with
        | some (.runAnswer sid _ _ spent) =>
            (st.sessions.obj? sid).any fun s => spent + a.charge ≤ s.budget && !s.settled
        | _ => false
    | .endReturned _ run => run.closes i.writes
    | .sweepReturned _ run => run.closes i.writes
    | _ => false

/-- The flag of a session in the map is set. -/
def FlagSet (v : SessionView) : Prop :=
  ∃ slot, v.slot = some slot ∧ slot.live = true ∧ slot.val.settling = true

section Snapshot

variable {st st' : State} {sid sid' : SessionId} {pid : Pid} {p : Proc} {w : Writes}
  {u : WalletId} {file : Option NoteFile} {note : EscrowNote} {run : SettleRun} {ok : Bool}
  {f : Session → Session} {v : SessionView} {s : Session} {charge attempt cursor spent : ℕ}
  {prompt : JsString} {tier : String} {a : Answer} {r : State × List Event}

theorem FlagSet.of_put (h : FlagSet (v.put f)) (hf : KeepsFlags f) : FlagSet v := by
  obtain ⟨slot, hslot, hlive, hset⟩ := h
  obtain ⟨slot₀, hslot₀, rfl⟩ := slot_put hslot
  exact ⟨slot₀, hslot₀, hlive, (hf slot₀.val).2.symm.trans hset⟩

theorem FlagSet.of_modify (st : State) (h : FlagSet ((st.modify sid' f).view sid))
    (hf : KeepsFlags f) :
    FlagSet (st.view sid) := by
  by_cases hsid : sid = sid'
  · subst hsid
    rw [view_modify] at h
    exact h.of_put hf
  · rwa [view_modify_ne hsid] at h

/-- A closed session is not in the map, and the others are as they were. -/
theorem FlagSet.of_close
    (h : FlagSet (((st.modify sid' markSettled).evict sid').view sid)) :
    sid ≠ sid' ∧ FlagSet (st.view sid) := by
  by_cases hsid : sid = sid'
  · obtain ⟨slot, hslot, hlive, -⟩ := h
    simp only [State.view, State.evict, SlotMap.slot?_delete, if_pos hsid,
      Option.map_eq_some_iff] at hslot
    obtain ⟨_, -, rfl⟩ := hslot
    cases hlive
  · refine ⟨hsid, ?_⟩
    simpa [State.view, State.evict, State.modify, hsid] using h

theorem disk_persistSessions : (st.persistSessions ok).disk.sessions =
    if ok then some st.sessions.compact else st.disk.sessions := by
  unfold State.persistSessions
  split <;> rfl

theorem disk_closeSession : (st.closeSession sid w).disk.sessions =
    if w.sessions then some ((st.modify sid markSettled).evict sid).sessions.compact
    else st.disk.sessions :=
  disk_persistSessions

theorem disk_startJoao : (st.startJoao file).1.disk = st.disk := by
  unfold startJoao
  split <;> rfl

theorem disk_releaseCurrent : (st.releaseCurrent sid).disk = st.disk := by
  unfold releaseCurrent
  split <;> rfl

theorem disk_land : (st.land note run).disk = st.disk := by
  unfold State.land
  split <;> rfl

theorem disk_sweepFrom : (st.sweepFrom pid cursor).1.disk = st.disk := by
  unfold sweepFrom
  split
  · rfl
  · split <;> rfl

theorem disk_saveUsers (h : st.saveUsers ok = some st') :
    st'.disk.sessions = st.disk.sessions := by
  obtain rfl := saveUsers_eq_some h
  rfl

theorem disk_deliver : (st.deliver pid sid s prompt tier spent a w).1.disk.sessions =
    if w.sessions then some (st.modify sid (pushCharge a st.now)).sessions.compact
    else st.disk.sessions := by
  unfold deliver
  dsimp only
  split
  · exact disk_persistSessions
  · next hsave => exact (disk_saveUsers hsave).trans disk_persistSessions

theorem disk_endReturned :
    (st.endReturned pid sid s charge attempt run w).1.disk.sessions =
      if w.sessions && run.closes w then
        some ((st.modify sid markSettled).evict sid).sessions.compact
      else st.disk.sessions := by
  unfold endReturned
  cases hv : run.verdict with
  | settled json =>
      simp only [SettleRun.closes, hv]
      split
      · next hrec =>
          rw [recordRefund_eq_none hrec, Bool.and_false]
          rfl
      · next hrec =>
          obtain ⟨hcloses, _, rfl⟩ := recordRefund_eq_some hrec
          rw [hcloses, Bool.and_true, disk_startJoao]
          exact disk_closeSession
  | spent =>
      simp only [SettleRun.closes, hv, Bool.and_true]
      exact disk_closeSession
  | wedged =>
      simp only [SettleRun.closes, hv, Bool.and_false]
      split <;> rfl
  | failed =>
      simp only [SettleRun.closes, hv, Bool.and_false]
      rfl

theorem disk_sweepSettled :
    (st.sweepSettled sid s run w).1.disk.sessions =
      if w.sessions && run.closes w then
        some ((st.modify sid markSettled).evict sid).sessions.compact
      else st.disk.sessions := by
  unfold sweepSettled
  cases hv : run.verdict with
  | settled json =>
      simp only [SettleRun.closes, hv]
      split
      · next hrec =>
          rw [recordRefund_eq_none hrec, Bool.and_false, disk_releaseCurrent]
          rfl
      · next hrec =>
          obtain ⟨hcloses, _, rfl⟩ := recordRefund_eq_some hrec
          rw [hcloses, Bool.and_true, disk_startJoao, disk_releaseCurrent]
          exact disk_closeSession
  | spent =>
      simp only [SettleRun.closes, hv, Bool.and_true, disk_releaseCurrent]
      exact disk_closeSession
  | wedged =>
      simp only [SettleRun.closes, hv, Bool.and_false, disk_releaseCurrent]
      rfl
  | failed =>
      simp only [SettleRun.closes, hv, Bool.and_false, disk_releaseCurrent]
      rfl

theorem not_settles (hp : st.procs pid = some p) (hs : p.settles sid = false) :
    ¬ st.Settles sid pid := by
  rintro ⟨p', hp', hs'⟩
  rw [hp] at hp'
  rw [← Option.some.inj hp', hs] at hs'
  cases hs'

/-- What a step does to the snapshot, for one session: nothing, or it writes a
flag that is set only if the flag is set in the map, by a settlement other than
the one that has just returned. -/
def Snapshot (sid : SessionId) (st : State) (i : Input) (st' : State) : Prop :=
  st'.disk.sessions = st.disk.sessions ∨
    st.persists i = true ∧ ∀ s, st'.disk.saved sid = some s → s.settling = true →
      FlagSet (st.view sid) ∧ ∀ pid, i.act.returns = some pid → ¬ st.Settles sid pid

theorem Snapshot.ofWrite {i : Input} {st₁ : State} {b : Bool}
    (hd : st'.disk.sessions = if b then some st₁.sessions.compact else st.disk.sessions)
    (hb : b = true → st.persists i = true)
    (hflag : FlagSet (st₁.view sid) →
      FlagSet (st.view sid) ∧ ∀ pid, i.act.returns = some pid → ¬ st.Settles sid pid) :
    Snapshot sid st i st' := by
  cases b with
  | false => exact .inl hd
  | true =>
      refine .inr ⟨hb rfl, fun s hs hset => hflag ?_⟩
      rw [Disk.saved, hd, if_pos rfl, Option.bind_some] at hs
      obtain ⟨slot, hslot, hlive, rfl⟩ := SlotMap.get?_eq_some.mp hs
      rw [SlotMap.slot?_compact, Option.filter_eq_some_iff] at hslot
      exact ⟨slot, hslot.1, hlive, hset⟩

/-- A settlement returns and closes its session. -/
theorem Snapshot.ofClose {i : Input}
    (hd : st'.disk.sessions =
      if i.writes.sessions && run.closes i.writes then
        some (((st.land note run).modify sid' markSettled).evict sid').sessions.compact
      else (st.land note run).disk.sessions)
    (hp : st.procs pid = some p) (hsettles : ∀ sid, p.settles sid = true → sid' = sid)
    (hret : i.act.returns = some pid)
    (hpersists : st.persists i = (i.writes.sessions && run.closes i.writes)) :
    Snapshot sid st i st' := by
  rw [disk_land] at hd
  refine .ofWrite hd (fun h => hpersists.trans h) fun hflag => ?_
  obtain ⟨hne, hflag⟩ := hflag.of_close
  refine ⟨?_, fun q hq => ?_⟩
  · simpa [FlagSet] using hflag
  · obtain rfl := Option.some.inj (hret.symm.trans hq)
    apply not_settles hp
    rw [← Bool.not_eq_true]
    exact fun hs => hne (hsettles sid hs).symm

theorem snapshot_chatAnswered (hp : st.procs pid = some (.runAnswer sid' prompt tier spent))
    (res : Except String Answer) :
    Snapshot sid st ⟨.answered pid res, w⟩
      (st.chatAnswered pid sid' prompt tier spent res w).1 := by
  unfold chatAnswered
  dsimp only
  split
  · exact .inl rfl
  · exact .inl rfl
  · next s hs =>
      have hs : st.sessions.obj? sid' = some s := hs
      split
      · exact .inl rfl
      · next hfits =>
          split
          · exact .inl rfl
          · next hopen =>
              refine .ofWrite disk_deliver (fun hw => ?_) fun hflag => ⟨?_, fun q hq => ?_⟩
              · simp [State.persists, hw, hp, hs, Nat.le_of_not_lt hfits, hopen]
              · exact FlagSet.of_modify ((st.finish pid).setBusy false) hflag
                  keepsFlags_charge
              · exact Option.some.inj hq ▸ not_settles hp rfl

theorem snapshot_step (sid : SessionId) {i : Input} (hi : step st i = some r)
    (hone : OneProcess st i) :
    Snapshot sid st i r.1 := by
  obtain ⟨act, w⟩ := i
  cases steps_of_step hi with
  | restart => exact hone.elim
  | escrowBuilt hp hnew =>
      refine .ofWrite disk_persistSessions (fun hw => ?_) fun hflag => ⟨?_, fun q hq => ?_⟩
      · simpa [State.persists] using hw
      -- the new session is not being settled, so the flag is an old one
      · obtain ⟨slot, hslot, hlive, hset⟩ := hflag
        simp only [State.view, State.insert, SlotMap.slot?_push
          (show (st.finish _).sessions.slot? _ = none from hnew)] at hslot
        split at hslot
        · cases hslot
          cases hset
        · exact ⟨slot, hslot, hlive, hset⟩
      · exact Option.some.inj hq ▸ not_settles hp rfl
  | escrowVerified committed hp =>
      cases committed with
      | false => exact .inl rfl
      | true =>
          refine .ofWrite disk_persistSessions (fun hw => ?_) fun hflag => ⟨?_, fun q hq => ?_⟩
          · simpa [State.persists] using hw
          · exact FlagSet.of_modify (st.finish _) hflag fun _ => ⟨rfl, rfl⟩
          · exact Option.some.inj hq ▸ not_settles hp rfl
  | chat req =>
      unfold State.chat
      dsimp only
      repeat' split
      all_goals exact .inl rfl
  | answered res hp => exact snapshot_chatAnswered hp res
  | endSession sid' =>
      unfold sessionEnd
      dsimp only
      repeat' split
      all_goals exact .inl rfl
  | endReturned hp _ _ _ =>
      exact .ofClose disk_endReturned hp (fun s hs => of_decide_eq_true hs) rfl rfl
  | sweep => exact .inl (congrArg Disk.sessions disk_sweepFrom)
  | sweepReturned hp _ _ _ =>
      exact .ofClose ((congrArg Disk.sessions disk_sweepFrom).trans disk_sweepSettled) hp
        (fun s hs => of_decide_eq_true hs) rfl rfl
  | _ => exact .inl (congrArg Prod.fst (sessions_step hi rfl))

end Snapshot

/-! ## Runs with restarts -/

/-- The snapshot is not written while a settlement of the session is in progress,
except one that has just returned. -/
def QuietSnapshots (sid : SessionId) (st : State) (i : Input) : Prop :=
  st.persists i = true → ∀ pid < st.nextPid, st.Settles sid pid → i.act.returns = some pid

instance (sid : SessionId) (st : State) (i : Input) : Decidable (QuietSnapshots sid st i) :=
  inferInstanceAs (Decidable (_ → ∀ pid < _, _ → _))

/-- No flag is set without a settlement in progress, neither in memory nor in
what a restart would restore. -/
structure Unlocked (sid : SessionId) (st : State) : Prop where
  fresh : st.Fresh
  exclusive : Exclusive (st.view sid)
  releasable : Releasable (st.view sid)
  saved : ¬ RestoredSettling st.disk sid

section Runs

variable {disk : Disk} {now : ℕ} {nextPid : Pid} {chain : EscrowNote → NoteStatus}
  {sid : SessionId} {st : State} {tr : List Event} {i : Input} {r : State × List Event}

/-- A first start. -/
theorem not_restoredSettling (h : disk.sessions = none) : ¬ RestoredSettling disk sid := by
  rintro ⟨s, hs, -⟩
  simp [restored_get?, Disk.saved, h] at hs

theorem unlocked_boot (h : ¬ RestoredSettling disk sid) :
    Unlocked sid (boot disk now nextPid chain) :=
  ⟨fresh_boot disk now nextPid chain, boot_exclusive, boot_releasable h, h⟩

theorem unlocked_step (h : Unlocked sid st) (hquiet : QuietSnapshots sid st i)
    (hi : step st i = some r) : Unlocked sid r.1 := by
  by_cases hact : i.act = .restart
  · obtain rfl : r = (st.restarted, []) := by simpa [step, hact, State.restarted, eq_comm] using hi
    exact unlocked_boot h.saved
  · have hone : OneProcess st i := oneProcess_iff.mpr hact
    obtain ⟨hfresh, hview⟩ := step_sees sid h.fresh hone hi
    refine ⟨hfresh, ?_, ?_, ?_⟩
    · exact hview.stateInvariant h.exclusive fun _ _ _ hv hstep => hstep.exclusive hv
    · exact hview.stateInvariant h.releasable fun _ _ _ hv hstep => hstep.releasable hv
    · rintro ⟨s, hs, hset⟩
      rcases snapshot_step sid hi hone with hsame | ⟨hwrite, hflag⟩
      · refine h.saved ⟨s, ?_, hset⟩
        rwa [restored_get?, Disk.saved, hsame, ← Disk.saved, ← restored_get?] at hs
      · obtain ⟨⟨slot, hslot, hlive, hset'⟩, hother⟩ := hflag s (restored_get?.mp hs).1 hset
        obtain ⟨pid, hhold⟩ := h.releasable slot hslot hlive hset'
        have hsettles := settles_iff_holds.mpr hhold
        have hlt := h.fresh.lt hsettles.choose_spec.1
        exact hother pid (hquiet hwrite pid hlt hsettles) hsettles

/-- **A restart strands no session that was saved at rest.** In every run, with
restarts and failed writes, in which no snapshot is taken while a settlement of
the session is in progress, the saved session is accepted after a restart at any
moment. -/
theorem restart_accepts (hdisk : ¬ RestoredSettling disk sid)
    (h : Trace (lts step (QuietSnapshots sid)) (boot disk now nextPid chain) tr st) {s : Session}
    (hsaved : st.disk.saved sid = some s) (hnote : s.escrowNoteB64.isSome = true)
    (hopen : s.settled = false) : st.AcceptedAfterRestart sid := by
  have hunlocked : Unlocked sid st :=
    h.stateInvariant (unlocked_boot hdisk) fun _ _ _ hu ⟨i, hquiet, hi⟩ =>
      unlocked_step hu hquiet hi
  apply (accepted_iff_released hsaved hnote hopen).mpr
  by_contra hset
  rw [Bool.not_eq_false] at hset
  exact hunlocked.saved ⟨s, restored_get?.mpr ⟨hsaved, hopen⟩, hset⟩

end Runs

/-! A settlement is killed, the session is saved when the next one opens, and a
restart takes it in. -/

def demoArmed : Session := arm 1 (newSession "0xb0b" "basic" 50000 demoParams 1)

def openAnother : List Action := [.start ⟨"0xa11", "basic", .finite 60000 0⟩]

theorem restart_accepts_demo : ∃ (tr : List Event) (st : State),
    Trace (lts step (QuietSnapshots 0)) demoBoot tr st ∧ tr.countP (Event.startsSettling 0) = 1 ∧
      st.AcceptedAfterRestart 0 :=
  have h := trace_exec step (QuietSnapshots 0) demoBoot (written (openSession ++ openAnother ++
    [.endSession 0, .endReturned 3 killedRun, .escrowBuilt 2 1 (some demoParams)]))
    (by decide) (by decide)
  ⟨_, _, h, by decide, restart_accepts (s := demoArmed) (not_restoredSettling rfl) h (by decide)
    (by decide) (by decide)⟩

/-- **A restart strands a session.** The next session opens while the first one is
being settled; the process is killed, and after the restart `end` answers
`settle_retry` to the first session without a try. -/
theorem restart_strands : ¬ ∀ (disk : Disk) (now : ℕ) (nextPid : Pid)
    (chain : EscrowNote → NoteStatus) (sid : SessionId) (tr : List Event) (st : State) (s : Session),
    disk.sessions = none → Trace (lts step AnyStep) (boot disk now nextPid chain) tr st →
      st.disk.saved sid = some s → s.escrowNoteB64.isSome = true → s.settled = false →
        st.AcceptedAfterRestart sid := by
  intro h
  have hrun := trace_exec step (fun _ _ => True) demoBoot (written (openSession ++ openAnother ++
    [.endSession 0, .escrowBuilt 2 1 (some demoParams)])) (by decide) (by decide)
  have haccepted := h _ _ _ _ 0 _ _ (beginSettle 1 demoArmed) rfl hrun (by decide) (by decide)
    (by decide)
  rw [accepted_iff_released (s := beginSettle 1 demoArmed) (by decide) (by decide)
    (by decide)] at haccepted
  cases haccepted

end Bartok.Bridge
