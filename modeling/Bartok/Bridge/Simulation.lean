import Bartok.Bridge.SessionView

/-!
# The bridge refines each of its sessions

One lemma per handler: seen from a session, what the handler does is a run of
`SessionStep`. `step_sees` puts them together, and `trace_sees` lifts the result
to the runs of a process.
-/

namespace Bartok.Bridge

open Foundation Miden State

/-! ## One lemma per handler -/

/-- From `st` the outcome `r` is a run of the session `sid`. -/
def Sees (sid : SessionId) (safe : Bool) (st : State) (r : State × List Event) : Prop :=
  r.1.Fresh ∧
    Trace (SessionStep sid safe) (st.view sid) (r.2.filter (Event.about sid)) (r.1.view sid)

section Handlers

variable {st st' : State} {sid sid' : SessionId} {safe : Bool} {pid : Pid} {p : Proc}
  {r : State × List Event} {w : Writes}

theorem Sees.quiet (hf : r.1.Fresh) (hview : r.1.view sid = st.view sid)
    (hes : r.2.filter (Event.about sid) = []) : Sees sid safe st r := by
  refine ⟨hf, ?_⟩
  rw [hview, hes]
  exact .refl

theorem Sees.step {es : List Event} {v : SessionView} (hf : r.1.Fresh)
    (hview : r.1.view sid = v) (hes : r.2.filter (Event.about sid) = es)
    (hstep : SessionStep sid safe (st.view sid) es v) : Sees sid safe st r := by
  refine ⟨hf, ?_⟩
  rw [hview, hes]
  exact .single hstep

theorem Sees.trans {r' : State × List Event} (h : Sees sid safe st r) (h' : Sees sid safe r.1 r') :
    Sees sid safe st (r'.1, r.2 ++ r'.2) := by
  refine ⟨h'.1, ?_⟩
  rw [List.filter_append]
  exact h.2.trans h'.2

/-- A handler that answers at once. -/
theorem Sees.answered {es : List Event} (hf : st.Fresh) (hes : es.filter (Event.about sid) = []) :
    Sees sid safe st (st.arrive, es) :=
  .quiet hf.arrive rfl hes

/-- A handler that waits for something other than a settlement. -/
theorem Sees.spawned {es : List Event} (hf : st.Fresh) (hp : p.hold sid = none)
    (hes : es.filter (Event.about sid) = []) :
    Sees sid safe st (st.arrive.spawn st.nextPid p, es) :=
  .quiet hf.spawnNext (view_spawnNext sid hf hp) hes

/-- Such a handler ends. -/
theorem Sees.finished {es : List Event} (hf : st.Fresh) (hp : st.procs pid = some p)
    (hhold : p.hold sid = none) (hes : es.filter (Event.about sid) = []) :
    Sees sid safe st (st.finish pid, es) :=
  .quiet hf.finish (view_finish_of_hold sid hp hhold) hes

theorem sees_sessionStart (hf : st.Fresh) (req : StartRequest) :
    Sees sid safe st (st.sessionStart req) := by
  unfold sessionStart
  dsimp only
  split
  · exact .answered hf rfl
  · split
    · exact .answered hf rfl
    · split
      · exact .answered hf rfl
      · split
        · split
          · exact .answered hf rfl
          · exact .spawned hf rfl rfl
        · exact .spawned hf rfl rfl

theorem sees_escrowBuilt (hf : st.Fresh) {buyerId : WalletId} {tier : String} {budget : Option ℕ}
    (hp : st.procs pid = some (.buildEscrow buyerId tier budget))
    {built : Option (ℕ × EscrowParams)} (hnew : built.isSome → st.sessions.slot? sid' = none) :
    Sees sid safe st (st.escrowBuilt pid buyerId tier sid' built w) := by
  cases built with
  | none => exact .finished hf hp rfl rfl
  | some b =>
      have hview := view_finish_of_hold sid hp rfl
      have hslot : (st.finish pid).sessions.slot? sid' = none := hnew rfl
      by_cases hsid : sid = sid'
      · subst hsid
        refine .step hf.finish.insert.persistSessions ?_ rfl (.create buyerId tier b.1 b.2 (hnew rfl))
        rw [← hview]
        exact view_persistSessions.trans (view_insert hslot)
      · refine .quiet hf.finish.insert.persistSessions ?_ rfl
        rw [← hview]
        exact view_persistSessions.trans (view_insert_ne hslot hsid)

theorem sees_sessionEscrow (hf : st.Fresh) : Sees sid safe st (st.sessionEscrow sid') := by
  unfold sessionEscrow
  dsimp only
  split
  · exact .answered hf rfl
  · exact .spawned hf rfl rfl

theorem sees_escrowVerified (hf : st.Fresh) (hp : st.procs pid = some (.verifyEscrow sid'))
    (committed : Bool) : Sees sid safe st (st.escrowVerified pid sid' committed w) := by
  have hview := view_finish_of_hold sid hp rfl
  cases committed with
  | false => exact .finished hf hp rfl rfl
  | true =>
      have hf' : (((st.finish pid).modify sid' (arm st.now)).persistSessions w.sessions).Fresh :=
        hf.finish.modify.persistSessions
      by_cases hsid : sid = sid'
      · subst hsid
        refine .step hf' ?_ rfl (.use (.inl rfl))
        rw [← hview]
        exact view_persistSessions.trans view_modify
      · refine .quiet hf' ?_ rfl
        rw [← hview]
        exact view_persistSessions.trans (view_modify_ne hsid)

theorem sees_chat (hf : st.Fresh) (req : ChatRequest) : Sees sid safe st (st.chat req) := by
  unfold chat
  dsimp only
  split
  · exact .answered hf rfl
  · next s _ =>
      split
      · have hview := view_spawnNext sid hf
          (p := .runAnswer req.sessionId req.prompt (req.msgTier s) s.totalCharge) rfl
        by_cases hsid : sid = req.sessionId
        · subst hsid
          refine .step hf.spawnNext.setBusy.modify ?_ rfl (.use (.inr rfl))
          rw [view_modify, view_setBusy, hview]
        · refine .quiet hf.spawnNext.setBusy.modify ?_ rfl
          rw [view_modify_ne hsid, view_setBusy, hview]
      · exact .answered hf rfl

theorem sees_deliver (hf : st.Fresh) {slot : Slot SessionId Session} {prompt : JsString}
    {tier : String} {spent : ℕ} {a : Answer} (hslot : st.sessions.slot? sid' = some slot)
    (hopen : slot.val.settled = false) (hw : safe = true → w = .ok) :
    Sees sid safe st (st.deliver pid sid' slot.val prompt tier spent a w) := by
  have hf' : ((((st.modify sid' (pushCharge a st.now)).persistSessions w.sessions).modify sid'
      (pushTurns prompt a)).addSpend slot.val.buyerId a.charge).Fresh :=
    hf.modify.persistSessions.modify.addSpend
  unfold deliver
  dsimp only
  by_cases hsid : sid = sid'
  · subst hsid
    have hview : ((((st.modify sid (pushCharge a st.now)).persistSessions w.sessions).modify sid
        (pushTurns prompt a)).addSpend slot.val.buyerId a.charge).view sid =
          ((st.view sid).put (pushCharge a st.now)).put (pushTurns prompt a) := by simp
    split
    · next hnone =>
        -- the write of the spend threw: charged, but not answered
        refine .step hf' hview rfl (.lost hslot hopen ?_)
        cases safe with
        | false => rfl
        | true => simp [hw rfl, saveUsers, Writes.ok] at hnone
    · next st' hsome =>
        have hes : ([.seller (.jobDone tier a.model a.tokens a.charge),
            .done pid (.reply sid a (spent + a.charge) (slot.val.budget - (spent + a.charge)))] :
              List Event).filter (Event.about sid) =
            [.done pid (.reply sid a (spent + a.charge)
              (slot.val.budget - (spent + a.charge)))] := by simp
        exact .step (hf'.saveUsers hsome).setStats
          (view_setStats.trans ((view_saveUsers hsome).trans hview)) hes (.reply pid hslot hopen)
  · have hview : ((((st.modify sid' (pushCharge a st.now)).persistSessions w.sessions).modify sid'
        (pushTurns prompt a)).addSpend slot.val.buyerId a.charge).view sid = st.view sid := by
      simp [view_modify_ne hsid]
    split
    · exact .quiet hf' hview rfl
    · next st' hsome =>
        refine .quiet (hf'.saveUsers hsome).setStats ?_ (by simp [Ne.symm hsid])
        rw [view_setStats, view_saveUsers hsome, hview]

theorem obj?_eq_some {s : Session} (h : st.sessions.obj? sid = some s) :
    ∃ slot, st.sessions.slot? sid = some slot ∧ slot.val = s :=
  Option.map_eq_some_iff.mp h

theorem sees_chatAnswered (hf : st.Fresh) {prompt : JsString} {tier : String} {spent : ℕ}
    (hp : st.procs pid = some (.runAnswer sid' prompt tier spent)) (hw : safe = true → w = .ok)
    (res : Except String Answer) :
    Sees sid safe st (st.chatAnswered pid sid' prompt tier spent res w) := by
  have hquiet : ∀ es, es.filter (Event.about sid) = [] →
      Sees sid safe st ((st.finish pid).setBusy false, es) :=
    fun es hes => .quiet hf.finish.setBusy (view_finish_of_hold sid hp rfl) hes
  unfold chatAnswered
  dsimp only
  split
  · exact hquiet _ rfl
  · exact hquiet _ rfl
  · next a s hs =>
      obtain ⟨slot, hslot, rfl⟩ := obj?_eq_some hs
      split
      · exact hquiet _ rfl
      · split
        · exact hquiet _ rfl
        · next hopen =>
            exact (hquiet [] rfl).trans
              (sees_deliver hf.finish.setBusy hslot (by simpa using hopen) hw)

theorem sees_sessionEnd (hf : st.Fresh) : Sees sid safe st (st.sessionEnd sid') := by
  unfold sessionEnd
  dsimp only
  split
  · exact .answered hf rfl
  · next s hs =>
      split
      · exact .answered hf rfl
      · next note hnote =>
          split
          · exact .answered hf rfl
          · next hopen =>
              split
              · exact .answered hf rfl
              · next hfree =>
                  have hf' : ((st.arrive.modify sid' (beginSettle st.now)).spawn st.nextPid
                      (.endSettle sid' s.totalCharge 1)).Fresh :=
                    hf.arrive.modify.spawn (Nat.lt_succ_self _)
                  by_cases hsid : sid = sid'
                  · subst hsid
                    obtain ⟨slot, hslot, hlive, rfl⟩ := SlotMap.get?_eq_some.mp hs
                    refine .step hf' ?_ ?_ (.start st.nextPid hslot hlive (by simpa using hopen)
                      (by simpa using hfree) hnote (.inl rfl))
                    · simp [Proc.hold]
                      rfl
                    · simp
                  · refine .quiet hf' ?_ (by simp [Ne.symm hsid])
                    rw [view_spawn, view_modify_ne hsid, view_arrive, Proc.hold,
                      if_neg (Ne.symm hsid), SessionView.hold_eq hf.holds]

theorem view_holds (sid : SessionId) (hp : st.procs pid = some p) :
    (st.view sid).holds pid = p.hold sid := by
  simp [State.view, hp]

theorem sees_endWoken (hf : st.Fresh) {charge attempt : ℕ} {slot : Slot SessionId Session}
    {note : EscrowNote} (hp : st.procs pid = some (.endBackoff sid' charge attempt))
    (hslot : st.sessions.slot? sid' = some slot) (hnote : slot.val.escrowNoteB64 = some note) :
    Sees sid safe st (st.endWoken pid sid' charge attempt note) := by
  have hhold := view_holds sid hp
  have hf' : (st.spawn pid (.endSettle sid' charge (attempt + 1))).Fresh := hf.spawn (hf.lt hp)
  unfold endWoken
  by_cases hsid : sid = sid'
  · subst hsid
    rw [Proc.hold, if_pos rfl] at hhold
    refine .step hf' ?_ ?_ (.retry pid hslot hnote hhold)
    · simp [Proc.hold]
    · simp
  · rw [Proc.hold, if_neg (Ne.symm hsid)] at hhold
    refine .quiet hf' ?_ (by simp [Ne.symm hsid])
    rw [view_spawn, Proc.hold, if_neg (Ne.symm hsid), SessionView.hold_eq hhold]

/-! A settlement changes its own session; of another session it can change the
chain only. -/

theorem step_land (v : SessionView) (note : EscrowNote) (run : SettleRun) :
    SessionStep sid safe v [] (v.land note run) := by
  unfold SessionView.land
  split
  · refine .world le_rfl fun note' hnote' => ?_
    by_cases h : note' = note
    · simp [h]
    · simpa [h] using hnote'
  · exact .world le_rfl fun _ h => h

@[simp] theorem SessionView.land_hold {v : SessionView} {note : EscrowNote} {run : SettleRun}
    {h : Option Hold} : (v.hold pid h).land note run = (v.land note run).hold pid h := by
  unfold SessionView.land SessionView.hold
  split <;> rfl

/-- The settlement of `sid` that runs under `pid` returns with `run`. -/
structure Returns (st : State) (pid : Pid) (sid : SessionId) (charge : ℕ)
    (slot : Slot SessionId Session) (note : EscrowNote) (run : SettleRun) : Prop where
  fresh : st.Fresh
  lt : pid < st.nextPid
  holds : ∀ s, (st.view s).holds pid = if sid = s then some ⟨charge, false⟩ else none
  hslot : st.sessions.slot? sid = some slot
  hnote : slot.val.escrowNoteB64 = some note
  canLand : st.canLand note charge run

section Returns

variable {charge : ℕ} {slot : Slot SessionId Session} {note : EscrowNote} {run : SettleRun}
  {f : Session → Session} {es closing : List Event}

theorem Returns.self (h : Returns st pid sid charge slot note run) :
    (st.view sid).holds pid = some ⟨charge, false⟩ := by rw [h.holds, if_pos rfl]

theorem Returns.committed (h : Returns st pid sid charge slot note run)
    (hl : run.landed.isSome) : (st.view sid).chain note = .committed := by
  obtain ⟨l, hl⟩ := Option.isSome_iff_exists.mp hl
  exact (h.canLand l hl).1

/-- It is enough to look at the session itself. -/
theorem Returns.sees (h : Returns st pid sid' charge slot note run) (hfresh : st'.Fresh)
    (hself : Sees sid' safe st (st', es))
    (hview : ∀ s, s ≠ sid' → st'.view s = ((st.view s).land note run).hold pid none)
    (hes : ∀ s, s ≠ sid' → es.filter (Event.about s) = []) : Sees sid safe st (st', es) := by
  by_cases hsid : sid = sid'
  · exact hsid ▸ hself
  · have hnone := h.holds sid
    rw [if_neg (Ne.symm hsid)] at hnone
    refine .step hfresh ?_ (hes sid hsid) (step_land (st.view sid) note run)
    rw [hview sid hsid, ← SessionView.land_hold, SessionView.hold_eq hnone]

theorem Returns.giveUp (h : Returns st pid sid' charge slot note run) (hfresh : st'.Fresh)
    (hself : st'.view sid' = (((st.view sid').land note run).put f).hold pid none)
    (hview : ∀ s, s ≠ sid' → st'.view s = ((st.view s).land note run).hold pid none)
    (hf : f = release ∨ f = id ∧ slot.live = false) (hrun : givesUp safe run.verdict = true)
    (hes : ∀ s, es.filter (Event.about s) =
      if sid' = s then [.settleEnd pid sid' charge run] else []) : Sees sid safe st (st', es) :=
  h.sees hfresh
    (.step hfresh hself ((hes sid').trans (if_pos rfl))
      (.giveUp pid h.hslot h.hnote h.self h.committed hrun hf))
    hview fun s hs => (hes s).trans (if_neg (Ne.symm hs))

theorem Returns.close (h : Returns st pid sid' charge slot note run) (hfresh : st'.Fresh)
    (hself : st'.view sid' =
      ((((st.view sid').land note run).put markSettled).delete.put f).hold pid none)
    (hview : ∀ s, s ≠ sid' → st'.view s = ((st.view s).land note run).hold pid none)
    (hf : f = release ∨ f = id)
    (hrun : closingEvents sid' slot.val.buyerId run.verdict = some closing)
    (hes : ∀ s, es.filter (Event.about s) =
      if sid' = s then .settleEnd pid sid' charge run :: closing else []) :
    Sees sid safe st (st', es) :=
  h.sees hfresh
    (.step hfresh hself ((hes sid').trans (if_pos rfl))
      (.close pid h.hslot h.hnote h.self h.committed hrun hf))
    hview fun s hs => (hes s).trans (if_neg (Ne.symm hs))

theorem Returns.wait (h : Returns st pid sid' charge slot note run) {attempt : ℕ}
    (hrun : run.verdict = .wedged)
    (hes : ∀ s, es.filter (Event.about s) =
      if sid' = s then [.settleEnd pid sid' charge run] else []) :
    Sees sid safe st ((st.land note run).spawn pid (.endBackoff sid' charge attempt), es) := by
  have hfresh : ((st.land note run).spawn pid (.endBackoff sid' charge attempt)).Fresh :=
    h.fresh.land.spawn (by rw [nextPid_land]; exact h.lt)
  refine h.sees hfresh ?_ (fun s hs => ?_) fun s hs => (hes s).trans (if_neg (Ne.symm hs))
  · refine .step hfresh ?_ ((hes sid').trans (if_pos rfl))
      (.wait pid h.hslot h.hnote h.self h.committed hrun)
    simp [Proc.hold]
  · simp [Proc.hold, Ne.symm hs]

end Returns

/-- A refund that cannot be recorded: the settlement gives up. -/
theorem givesUp_of_recordRefund {buyerId : WalletId} {json : SettleJson}
    (h : st.recordRefund buyerId json.refundNoteFileB64 w.refunds = none)
    (hw : safe = true → w = .ok) : givesUp safe (.settled json) = true := by
  have hfailed := recordRefund_eq_none h
  rw [Bool.or_eq_false_iff] at hfailed
  obtain ⟨hfile, hok⟩ := hfailed
  cases safe with
  | false => simp [givesUp, Option.isSome_iff_ne_none, ← Option.isNone_iff_eq_none, hfile]
  | true => simp [hw rfl, Writes.ok] at hok

theorem sees_endReturned {charge attempt : ℕ} {slot : Slot SessionId Session}
    {note : EscrowNote} {run : SettleRun} (h : Returns st pid sid' charge slot note run)
    (hw : safe = true → w = .ok) :
    Sees sid safe st ((st.land note run).endReturned pid sid' slot.val charge attempt run w) := by
  have hreleases : givesUp safe run.verdict = true → ∀ es, (∀ s, es.filter (Event.about s) =
      if sid' = s then [.settleEnd pid sid' charge run] else []) →
      Sees sid safe st (((st.land note run).modify sid' release).finish pid, es) := by
    intro hrun es hes
    refine h.giveUp h.fresh.land.modify.finish ?_ (fun s hs => ?_) (.inl rfl) hrun hes
    · simp
    · simp [view_modify_ne hs]
  unfold endReturned
  dsimp only
  cases hverdict : run.verdict with
  | settled json =>
      dsimp only
      split
      · next hrec =>
          refine hreleases (hverdict ▸ givesUp_of_recordRefund hrec hw) _ fun s => ?_
          by_cases hs : sid' = s <;> simp [hs]
      · next st₁ hrec =>
          -- the pid of the new `joao_sweep` is the next free one
          have hfresh : ((((st₁.setStats { st₁.sellerStats with
              settled := st₁.sellerStats.settled + 1 }).closeSession sid' w).modify sid'
                release).finish pid).Fresh :=
            (h.fresh.land.recordRefund hrec).setStats.closeSession.modify.finish
          refine h.close hfresh.startJoao ?_ (fun s hs => ?_) (.inl rfl) (by rw [hverdict]; rfl)
            fun s => ?_
          · rw [view_startJoao hfresh]
            simp [view_recordRefund hrec]
          · rw [view_startJoao hfresh]
            simp [view_modify_ne hs, view_closeSession_ne hs, view_recordRefund hrec]
          · by_cases hs : sid' = s <;> simp [hs, refundEvents_about, startJoao_about]
  | spent =>
      refine h.close h.fresh.land.closeSession.modify.finish ?_ (fun s hs => ?_) (.inl rfl)
        (by rw [hverdict]; rfl) fun s => ?_
      · simp
      · simp [view_modify_ne hs, view_closeSession_ne hs]
      · by_cases hs : sid' = s <;> simp [hs]
  | wedged =>
      dsimp only
      split
      · apply h.wait hverdict
        intro s
        by_cases hs : sid' = s <;> simp [hs]
      · refine hreleases (by rw [hverdict]; rfl) _ fun s => ?_
        by_cases hs : sid' = s <;> simp [hs]
  | failed =>
      refine hreleases (by rw [hverdict]; rfl) _ fun s => ?_
      by_cases hs : sid' = s <;> simp [hs]

/-! The sweeper's visit starts from a state in which nothing runs under its pid:
either the sweep is new or the previous settlement has just been dealt with. -/

theorem sweepFrom_finish {cursor : ℕ} :
    (st.finish pid).sweepFrom pid cursor = st.sweepFrom pid cursor := by
  have hspawn : ∀ (k : SessionId) (f : Session → Session) (p : Proc),
      ((st.finish pid).modify k f).spawn pid p = (st.modify k f).spawn pid p := by
    intro k f p
    simp [State.finish, State.modify, State.spawn]
  have hfinish : (st.finish pid).finish pid = st.finish pid := by simp [State.finish]
  unfold sweepFrom
  simp only [hspawn, hfinish]
  rfl

theorem sees_sweepFrom (hf : st.Fresh) (hlt : pid < st.nextPid) {cursor : ℕ}
    (hnone : (st.view sid).holds pid = none) : Sees sid safe st (st.sweepFrom pid cursor) := by
  have hquiet : Sees sid safe st (st.finish pid, []) :=
    .quiet hf.finish (by rw [view_finish, SessionView.hold_eq hnone]) rfl
  unfold sweepFrom
  split
  · exact hquiet
  · next slot i hnext =>
      obtain ⟨-, hslot, hlive, hp⟩ := SlotMap.next?_some hnext
      split
      · exact hquiet
      · next note hnote =>
          simp only [sweepable, Bool.and_eq_true, Bool.not_eq_true', Bool.or_eq_false_iff] at hp
          obtain ⟨⟨⟨hopen, hfree⟩, -⟩, -⟩ := hp
          have hfresh : ((st.modify slot.key markSettling).spawn pid
              (.sweepSettle slot.key slot.val.totalCharge (i + 1))).Fresh := hf.modify.spawn hlt
          by_cases hsid : sid = slot.key
          · subst hsid
            refine .step hfresh ?_ ?_ (.start pid hslot hlive hopen hfree hnote (.inr rfl))
            · simp [Proc.hold]
            · simp
          · refine .quiet hfresh ?_ (by simp [Ne.symm hsid])
            rw [view_spawn, view_modify_ne hsid, Proc.hold, if_neg (Ne.symm hsid),
              SessionView.hold_eq hnone]

theorem sees_sweep (hf : st.Fresh) : Sees sid safe st st.sweep :=
  sees_sweepFrom hf.arrive (Nat.lt_succ_self _) hf.holds

theorem sees_sweepSettled {charge : ℕ} {slot : Slot SessionId Session} {note : EscrowNote}
    {run : SettleRun} (h : Returns st pid sid' charge slot note run) (hw : safe = true → w = .ok) :
    Sees sid safe st
      ((((st.land note run).sweepSettled sid' slot.val run w).1).finish pid,
        .settleEnd pid sid' charge run ::
          ((st.land note run).sweepSettled sid' slot.val run w).2) := by
  have hreleases : givesUp safe run.verdict = true →
      Sees sid safe st (((st.land note run).releaseCurrent sid').finish pid,
        [.settleEnd pid sid' charge run]) := by
    intro hrun
    -- `releaseCurrent` looks the session up again: what it clears depends on the map
    obtain ⟨f, hf, hview⟩ := view_releaseCurrent (st.land note run) sid'
    have hslot : (st.land note run).sessions.slot? sid' = some slot := by
      rw [← h.hslot]
      unfold State.land
      split <;> rfl
    refine h.giveUp h.fresh.land.releaseCurrent.finish ?_ (fun s hs => ?_) (f := f) ?_ hrun
      fun s => ?_
    · simp [hview]
    · simp [view_releaseCurrent_ne hs]
    · exact hf.imp_right (And.imp_right (SlotMap.get?_eq_none hslot).mp)
    · by_cases hs : sid' = s <;> simp [hs]
  have hcloses : ∀ st₁ : State, st₁.Fresh → (∀ s, st₁.view s = (st.land note run).view s) →
      ∀ closing, closingEvents sid' slot.val.buyerId run.verdict = some closing →
      ∀ es, (∀ s, es.filter (Event.about s) = if sid' = s then closing else []) →
      ∀ st₂ : State, st₂.Fresh →
        (∀ s, st₂.view s = ((st₁.closeSession sid' w).releaseCurrent sid').view s) →
      Sees sid safe st (st₂.finish pid, .settleEnd pid sid' charge run :: es) := by
    intro st₁ hf₁ hview₁ closing hrun es hes st₂ hf₂ hview₂
    obtain ⟨f, hf, hview⟩ := view_releaseCurrent (st₁.closeSession sid' w) sid'
    refine h.close hf₂.finish ?_ (fun s hs => ?_) (f := f) (hf.imp_right And.left) hrun
      fun s => ?_
    · simp [hview₂, hview, hview₁]
    · simp [hview₂, view_releaseCurrent_ne hs, view_closeSession_ne hs, hview₁]
    · by_cases hs : sid' = s
      · subst hs
        simp [hes]
      · simp [hs, hes]
  unfold sweepSettled
  cases hverdict : run.verdict with
  | settled json =>
      dsimp only
      split
      · next hrec => exact hreleases (hverdict ▸ givesUp_of_recordRefund hrec hw)
      · next st₁ hrec =>
          have hf₁ := h.fresh.land.recordRefund hrec
          have hf₂ : ((st₁.closeSession sid' w).releaseCurrent sid').Fresh :=
            hf₁.closeSession.releaseCurrent
          refine hcloses st₁ hf₁ (fun s => view_recordRefund hrec) _ (by rw [hverdict]; rfl) _
            (fun s => ?_) _ hf₂.startJoao fun s => view_startJoao hf₂
          by_cases hs : sid' = s <;> simp [hs, refundEvents_about, startJoao_about]
  | spent =>
      refine hcloses (st.land note run) h.fresh.land (fun s => rfl) _ (by rw [hverdict]; rfl) _
        (fun s => ?_) _ h.fresh.land.closeSession.releaseCurrent fun s => rfl
      by_cases hs : sid' = s <;> simp [hs]
  | wedged => exact hreleases (by rw [hverdict]; rfl)
  | failed => exact hreleases (by rw [hverdict]; rfl)

theorem sees_sweepReturned {charge cursor : ℕ} {slot : Slot SessionId Session} {note : EscrowNote}
    {run : SettleRun} (h : Returns st pid sid' charge slot note run) (hw : safe = true → w = .ok) :
    Sees sid safe st ((st.land note run).sweepReturned pid sid' slot.val charge cursor run w) := by
  unfold sweepReturned
  dsimp only
  rw [← sweepFrom_finish]
  have hsettled : Sees sid safe st _ := sees_sweepSettled h hw
  refine hsettled.trans (sees_sweepFrom hsettled.1 ?_ (by simp [SessionView.hold]))
  exact lt_of_lt_of_le (by rw [nextPid_land]; exact h.lt)
    (handled_sweepSettled : Handled _ none _ _).frame.nextPid

theorem sees_redeem (hf : st.Fresh) (u : WalletId) (c : String) :
    Sees sid safe st (st.redeem u c) := by
  unfold redeem
  dsimp only
  split
  · exact .answered hf rfl
  · split
    · exact .answered hf rfl
    · next code _ =>
        split
        · exact .quiet hf.arrive.setUser rfl rfl
        · split
          · exact .quiet hf.arrive.setUser rfl rfl
          · refine .quiet (hf.arrive.setUser.captureClaimed.spawn ?_) ?_ rfl
            · exact Nat.lt_of_succ_le
                (Frame.refl : Frame st.arrive none st.arrive).setUser.captureClaimed.nextPid
            · rw [view_spawn, view_captureClaimed, view_setUser, view_arrive]
              exact SessionView.hold_eq hf.holds

theorem sees_funded (hf : st.Fresh) {u : WalletId} {code : Code} {claimed : ℕ}
    (hp : st.procs pid = some (.fundBuyer u code claimed)) (ok : Bool) :
    Sees sid safe st (st.funded pid u code claimed ok w) := by
  have hview := view_finish_of_hold sid hp rfl
  unfold funded
  dsimp only
  split
  · have hf' : ((st.finish pid).claim u code claimed).Fresh := hf.finish.claim
    have hview' : ((st.finish pid).claim u code claimed).view sid = st.view sid := hview
    split
    · exact .quiet hf' hview' rfl
    · next st' hsave =>
        exact .quiet (hf'.saveUsers hsave) ((view_saveUsers hsave).trans hview') rfl
  · exact .quiet hf.finish hview rfl

theorem sees_register (hf : st.Fresh) (req : RegisterRequest) :
    Sees sid safe st (st.register req w) := by
  unfold register
  dsimp only
  split
  · exact .answered hf rfl
  · split
    · exact .answered hf rfl
    · split
      · exact .quiet hf.arrive.setUser rfl rfl
      · next st' hsave =>
          exact .quiet (hf.arrive.setUser.saveUsers hsave)
            ((view_saveUsers hsave).trans view_setUser) rfl

theorem sees_login (hf : st.Fresh) (u : WalletId) (password hash : String) :
    Sees sid safe st (st.login u password hash) := by
  unfold login
  dsimp only
  split
  · exact .answered hf rfl
  · split
    · exact .answered hf rfl
    · split <;> exact .answered hf rfl

theorem step_setChain {note : EscrowNote} {status : NoteStatus}
    (h : st.chain note = .spent → status = .spent) :
    SessionStep sid safe (st.view sid) [] ((st.setChain note status).view sid) := by
  refine .world le_rfl fun note' hspent => ?_
  have hspent : st.chain note' = .spent := hspent
  by_cases hn : note' = note
  · subst hn
    simp [setChain, h hspent]
  · simpa [setChain, hn] using hspent

/-- **The bridge refines the session.** Within one process, whatever the bridge
does in a step is, for each session, a run of `SessionStep`. -/
theorem step_sees (sid : SessionId) {i : Input} (hf : st.Fresh) (hone : OneProcess st i)
    (h : step st i = some r) : Sees sid (decide (i.writes = .ok)) st r := by
  obtain ⟨act, w⟩ := i
  have hw : decide (w = Writes.ok) = true → w = .ok := of_decide_eq_true
  cases steps_of_step h with
  | tick ms => exact .step hf rfl rfl (.world (Nat.le_add_right _ _) fun _ h => h)
  | fundNote hchain => exact .step hf rfl rfl (step_setChain (by simp [hchain]))
  | consumeNote hchain => exact .step hf rfl rfl (step_setChain fun _ => rfl)
  | connect => exact .quiet hf rfl rfl
  | start req => exact sees_sessionStart hf req
  | escrowFailed hp => exact sees_escrowBuilt hf hp fun hnone => by cases hnone
  | escrowBuilt hp hnew => exact sees_escrowBuilt hf hp fun _ => hnew
  | escrow sid' => exact sees_sessionEscrow hf
  | escrowVerified committed hp => exact sees_escrowVerified hf hp committed
  | chat req => exact sees_chat hf req
  | answered res hp => exact sees_chatAnswered hf hp hw res
  | endSession sid' => exact sees_sessionEnd hf
  | endReturned hp hslot hnote hland =>
      exact sees_endReturned
        ⟨hf, hf.lt hp, fun s => view_holds s hp, hslot, hnote, hland⟩ hw
  | endWoken hp hslot hnote => exact sees_endWoken hf hp hslot hnote
  | sweep => exact sees_sweep hf
  | sweepReturned hp hslot hnote hland =>
      exact sees_sweepReturned
        ⟨hf, hf.lt hp, fun s => view_holds s hp, hslot, hnote, hland⟩ hw
  | joaoReturned hp => exact .finished hf hp rfl rfl
  | redeem u c => exact sees_redeem hf u c
  | funded ok hp => exact sees_funded hf hp ok
  | register req => exact sees_register hf req
  | login u password hash => exact sees_login hf u password hash
  | restart => exact hone.elim

end Handlers

/-- No pid is used twice, restarts included. -/
theorem fresh_step {st : State} {i : Input} {r : State × List Event} (hf : st.Fresh)
    (hi : step st i = some r) : r.1.Fresh := by
  by_cases hone : OneProcess st i
  · exact (step_sees 0 hf hone hi).1
  · have hact : i.act = .restart := by simpa [oneProcess_iff] using hone
    obtain rfl : (_, []) = r := by simpa [step, hact] using hi
    exact fresh_boot _ _ _ _

theorem SessionStep.mono {sid : SessionId} {safe safe' : Bool} (hle : safe' = true → safe = true)
    {v v' : SessionView} {es : List Event} (h : SessionStep sid safe v es v') :
    SessionStep sid safe' v es v' := by
  have hgive : ∀ verdict, givesUp safe verdict = true → givesUp safe' verdict = true := by
    intro verdict hverdict
    cases verdict with
    | settled json =>
        simp only [givesUp, Bool.and_eq_true, Bool.not_eq_true'] at hverdict ⊢
        refine ⟨?_, hverdict.2⟩
        cases safe' with
        | false => rfl
        | true => exact absurd (hle rfl) (by simp [hverdict.1])
    | spent => exact hverdict
    | wedged => exact hverdict
    | failed => exact hverdict
  cases h with
  | world hnow hchain => exact .world hnow hchain
  | create buyerId tier budget params hslot => exact .create buyerId tier budget params hslot
  | use hf => exact .use hf
  | reply pid hslot hopen => exact .reply pid hslot hopen
  | lost hslot hopen hsafe =>
      refine .lost hslot hopen ?_
      cases safe' with
      | false => rfl
      | true => exact absurd (hle rfl) (by simp [hsafe])
  | start pid hslot hlive hopen hfree hnote hf => exact .start pid hslot hlive hopen hfree hnote hf
  | wait pid hslot hnote hhold hland hrun => exact .wait pid hslot hnote hhold hland hrun
  | retry pid hslot hnote hhold => exact .retry pid hslot hnote hhold
  | giveUp pid hslot hnote hhold hland hrun hf =>
      exact .giveUp pid hslot hnote hhold hland (hgive _ hrun) hf
  | close pid hslot hnote hhold hland hrun hf => exact .close pid hslot hnote hhold hland hrun hf

/-- What each step of a process is through an abstraction, its runs are too. -/
theorem trace_lift {τ : Type*} (abs : State → τ) (keep : Event → Bool)
    {ok : State → Input → Prop} {T : Lts τ Event} {st₀ st : State} {tr : List Event}
    (hstep : ∀ st i r, st.Fresh → ok st i → step st i = some r →
      r.1.Fresh ∧ Trace T (abs st) (r.2.filter keep) (abs r.1))
    (hf : st₀.Fresh) (h : Trace (lts step ok) st₀ tr st) :
    st.Fresh ∧ Trace T (abs st₀) (tr.filter keep) (abs st) :=
  h.project abs keep (fun st _ _ hf ⟨i, hok, hi⟩ => hstep st i _ hf hok hi) hf

/-- **A run of one process is, for each session, a run of `SessionStep`.** -/
theorem trace_sees (safe : Bool) (sid : SessionId) {ok : State → Input → Prop} {st₀ st : State}
    {tr : List Event} (hone : ∀ st i, ok st i → OneProcess st i)
    (hsafe : ∀ st i, ok st i → safe = true → i.writes = .ok) (hf : st₀.Fresh)
    (h : Trace (lts step ok) st₀ tr st) :
    st.Fresh ∧
      Trace (SessionStep sid safe) (st₀.view sid) (tr.filter (Event.about sid)) (st.view sid) := by
  refine trace_lift (State.view sid) (Event.about sid) (fun st i r hf hok hi => ?_) hf h
  obtain ⟨hf', hsees⟩ := step_sees sid hf (hone _ _ hok) hi
  refine ⟨hf', hsees.mono fun v es v' h => h.mono fun hs => ?_⟩
  exact decide_eq_true (hsafe _ _ hok hs)

end Bartok.Bridge
