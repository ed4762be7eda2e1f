import Bartok.Bridge.SettlePaths

/-!
# The seller's dashboard

A dashboard starts from a snapshot of the seller's statistics and then follows what the
bridge broadcasts. What it shows as earned and served stays what a new snapshot says. What
it shows as available to withdraw is set by the snapshot alone.
-/

namespace Bartok.Bridge

open Foundation Miden State

/-- `earned`, `served` and `settledTotal`. -/
structure Dashboard where
  earned : ℕ
  served : ℕ
  settledTotal : ℕ
deriving DecidableEq

namespace Dashboard

/-- The listeners of the page. -/
def receive (d : Dashboard) : SellerEvent → Dashboard
  | .snapshot stats => ⟨stats.earned, stats.replies, stats.earned⟩
  | .jobStarted _ _ => d
  | .jobDone _ _ _ charge => { d with earned := d.earned + charge, served := d.served + 1 }
  -- the row of the feed shows the charge, the totals stay
  | .sessionSettled _ _ _ => d

/-- The page before its first event. -/
def initial : Dashboard := ⟨0, 0, 0⟩

/-- A dashboard that connects to the bridge in this state. -/
def connected (st : State) : Dashboard := initial.receive (.snapshot st.sellerStats)

/-- What a dashboard that is connected gets of an event: a snapshot goes to the one that
asks for it. -/
def hears : Event → Option SellerEvent
  | .seller (.snapshot _) => none
  | .seller e => some e
  | _ => none

/-- What a dashboard holds after these events. -/
def follow (d : Dashboard) (tr : List Event) : Dashboard :=
  (tr.filterMap hears).foldl receive d

end Dashboard

/-- The charge of a reply that is announced as done. -/
def Event.earns : Event → Option ℕ
  | .seller (.jobDone _ _ _ charge) => some charge
  | _ => none

/-- What a step adds to the earnings and the replies is what it announces. -/
structure Announced (st : State) (r : State × List Event) : Prop where
  earned : r.1.sellerStats.earned = st.sellerStats.earned + (r.2.filterMap Event.earns).sum
  replies : r.1.sellerStats.replies = st.sellerStats.replies + (r.2.filterMap Event.earns).length

section Steps

variable {st st' : State} {r : State × List Event} {i : Input} {w : Writes} {pid : Pid}
  {sid : SessionId} {s : Session} {u : WalletId} {tier : String} {prompt : JsString}
  {spent charge attempt cursor claimed : ℕ} {run : SettleRun} {note : EscrowNote} {code : Code}
  {ok : Bool} {file : Option NoteFile}

/-! ## What a step announces -/

/-- A step that leaves both counts alone and ends no job. -/
theorem Announced.quiet (hstats : r.1.sellerStats.earned = st.sellerStats.earned ∧
    r.1.sellerStats.replies = st.sellerStats.replies)
    (hevents : r.2.filterMap Event.earns = []) : Announced st r := by
  constructor
  · rw [hevents]
    exact hstats.1
  · rw [hevents]
    exact hstats.2

theorem sellerStats_persistSessions : (st.persistSessions ok).sellerStats = st.sellerStats := by
  unfold persistSessions
  split <;> rfl

theorem sellerStats_releaseCurrent : (st.releaseCurrent sid).sellerStats = st.sellerStats := by
  unfold releaseCurrent
  split <;> rfl

theorem sellerStats_land : (st.land note run).sellerStats = st.sellerStats := by
  unfold State.land
  split <;> rfl

theorem sellerStats_saveUsers (h : st.saveUsers ok = some st') :
    st'.sellerStats = st.sellerStats := by
  rw [saveUsers_eq_some h]

theorem sellerStats_recordRefund (h : st.recordRefund u file ok = some st') :
    st'.sellerStats = st.sellerStats := by
  obtain ⟨-, _, rfl⟩ := recordRefund_eq_some h
  rfl

theorem earns_refundEvents : (refundEvents sid u file).filterMap Event.earns = [] := by
  cases file <;> rfl

theorem earns_startJoao : (st.startJoao file).2.filterMap Event.earns = [] := by
  cases file <;> rfl

/-- A reply that is delivered is counted when it is announced. -/
theorem announced_deliver {a : Answer} :
    Announced st (st.deliver pid sid s prompt tier spent a w) := by
  have hcharged : ((((st.modify sid (pushCharge a st.now)).persistSessions w.sessions).modify sid
      (pushTurns prompt a)).addSpend s.buyerId a.charge).sellerStats = st.sellerStats :=
    sellerStats_persistSessions
  unfold deliver
  dsimp only
  split
  · exact .quiet (by rw [hcharged]; exact ⟨rfl, rfl⟩) rfl
  · next hsave =>
      have hstats := (sellerStats_saveUsers hsave).trans hcharged
      rw [hstats]
      exact ⟨rfl, rfl⟩

theorem announced_chatAnswered (res : Except String Answer) :
    Announced st (st.chatAnswered pid sid prompt tier spent res w) := by
  unfold chatAnswered
  dsimp only
  split
  · exact .quiet ⟨rfl, rfl⟩ rfl
  · exact .quiet ⟨rfl, rfl⟩ rfl
  · next a s _ =>
      split
      · exact .quiet ⟨rfl, rfl⟩ rfl
      · split
        · exact .quiet ⟨rfl, rfl⟩ rfl
        · have hdeliver : Announced ((st.finish pid).setBusy false)
              (((st.finish pid).setBusy false).deliver pid sid s prompt tier spent a w) :=
            announced_deliver
          exact ⟨hdeliver.earned, hdeliver.replies⟩

/-- The endpoint counts the settlement and announces it, without a job. -/
theorem announced_endReturned :
    Announced st (st.endReturned pid sid s charge attempt run w) := by
  unfold endReturned
  dsimp only
  split
  · split
    · exact .quiet ⟨rfl, rfl⟩ rfl
    · next hrec =>
        refine .quiet ?_ ?_
        · rw [sellerStats_startJoao]
          change (State.closeSession _ sid w).sellerStats.earned = _ ∧
            (State.closeSession _ sid w).sellerStats.replies = _
          rw [sellerStats_closeSession, ← sellerStats_recordRefund hrec]
          exact ⟨rfl, rfl⟩
        · simp only [List.cons_append, List.filterMap_append, List.filterMap_cons,
            List.filterMap_nil, List.nil_append, Event.earns, earns_refundEvents, earns_startJoao]
  · refine .quiet ?_ rfl
    change (st.closeSession sid w).sellerStats.earned = _ ∧
      (st.closeSession sid w).sellerStats.replies = _
    rw [sellerStats_closeSession]
    exact ⟨rfl, rfl⟩
  · split
    · exact .quiet ⟨rfl, rfl⟩ rfl
    · exact .quiet ⟨rfl, rfl⟩ rfl
  · exact .quiet ⟨rfl, rfl⟩ rfl

theorem announced_sweepFrom : (st.sweepFrom pid cursor).1.sellerStats = st.sellerStats ∧
    (st.sweepFrom pid cursor).2.filterMap Event.earns = [] := by
  unfold sweepFrom
  split
  · exact ⟨rfl, rfl⟩
  · split
    · exact ⟨rfl, rfl⟩
    · exact ⟨rfl, rfl⟩

/-- The sweeper settles without a word to the dashboard. -/
theorem announced_sweepSettled : (st.sweepSettled sid s run w).1.sellerStats = st.sellerStats ∧
    (st.sweepSettled sid s run w).2.filterMap Event.earns = [] := by
  unfold sweepSettled
  split
  · split
    · exact ⟨sellerStats_releaseCurrent, rfl⟩
    · next hrec =>
        refine ⟨?_, ?_⟩
        · rw [sellerStats_startJoao, sellerStats_releaseCurrent, sellerStats_closeSession]
          exact sellerStats_recordRefund hrec
        · simp only [List.filterMap_append, List.filterMap_cons, List.nil_append, Event.earns,
            earns_refundEvents, earns_startJoao]
  · exact ⟨sellerStats_releaseCurrent.trans sellerStats_closeSession, rfl⟩
  · exact ⟨sellerStats_releaseCurrent, rfl⟩

theorem announced_sweepReturned :
    Announced st (st.sweepReturned pid sid s charge cursor run w) := by
  obtain ⟨hsettled, hquiet⟩ : (st.sweepSettled sid s run w).1.sellerStats = st.sellerStats ∧
      (st.sweepSettled sid s run w).2.filterMap Event.earns = [] := announced_sweepSettled
  obtain ⟨hrest, hrestQuiet⟩ :
      ((st.sweepSettled sid s run w).1.sweepFrom pid cursor).1.sellerStats =
        (st.sweepSettled sid s run w).1.sellerStats ∧
      ((st.sweepSettled sid s run w).1.sweepFrom pid cursor).2.filterMap Event.earns = [] :=
    announced_sweepFrom
  unfold sweepReturned
  dsimp only
  refine .quiet ?_ ?_
  · rw [hrest, hsettled]
    exact ⟨rfl, rfl⟩
  · simp only [List.cons_append, List.filterMap_cons, List.filterMap_append, hquiet, hrestQuiet,
      Event.earns, List.nil_append]

/-- What a run does to the chain is no concern of the statistics. -/
theorem Announced.land (h : Announced (st.land note run) r) : Announced st r := by
  obtain ⟨hearned, hreplies⟩ := h
  rw [sellerStats_land] at hearned hreplies
  exact ⟨hearned, hreplies⟩

theorem announced_step (hone : OneProcess st i) (hi : step st i = some r) : Announced st r := by
  obtain ⟨act, w⟩ := i
  cases steps_of_step hi with
  | tick | fundNote | consumeNote | connect | endWoken | joaoReturned => exact .quiet ⟨rfl, rfl⟩ rfl
  | start req =>
      unfold sessionStart
      dsimp only
      repeat' split
      all_goals exact .quiet ⟨rfl, rfl⟩ rfl
  | escrowFailed hp => exact .quiet ⟨rfl, rfl⟩ rfl
  | escrowBuilt hp hnew =>
      refine .quiet ?_ rfl
      rw [State.escrowBuilt]
      dsimp only
      rw [sellerStats_persistSessions]
      exact ⟨rfl, rfl⟩
  | escrow sid =>
      unfold sessionEscrow
      dsimp only
      split <;> exact .quiet ⟨rfl, rfl⟩ rfl
  | escrowVerified committed hp =>
      unfold State.escrowVerified
      dsimp only
      split
      · refine .quiet ?_ rfl
        rw [sellerStats_persistSessions]
        exact ⟨rfl, rfl⟩
      · exact .quiet ⟨rfl, rfl⟩ rfl
  | chat req =>
      unfold State.chat
      dsimp only
      split
      · exact .quiet ⟨rfl, rfl⟩ rfl
      · split <;> exact .quiet ⟨rfl, rfl⟩ rfl
  | answered res hp => exact announced_chatAnswered res
  | endSession sid =>
      unfold sessionEnd
      dsimp only
      repeat' split
      all_goals exact .quiet ⟨rfl, rfl⟩ rfl
  | endReturned hp hslot hnote hland => exact announced_endReturned.land
  | sweep =>
      have hsweep : (st.arrive.sweepFrom st.nextPid 0).1.sellerStats = st.sellerStats ∧
          (st.arrive.sweepFrom st.nextPid 0).2.filterMap Event.earns = [] := announced_sweepFrom
      exact .quiet (by rw [State.sweep, hsweep.1]; exact ⟨rfl, rfl⟩) hsweep.2
  | sweepReturned hp hslot hnote hland => exact announced_sweepReturned.land
  | redeem u c =>
      unfold State.redeem captureClaimed
      dsimp only
      repeat' split
      all_goals exact .quiet ⟨rfl, rfl⟩ rfl
  | funded ok hp =>
      unfold State.funded
      dsimp only
      split
      · split
        · exact .quiet ⟨rfl, rfl⟩ rfl
        · next hsave =>
            refine .quiet ?_ rfl
            rw [sellerStats_saveUsers hsave]
            exact ⟨rfl, rfl⟩
      · exact .quiet ⟨rfl, rfl⟩ rfl
  | register req =>
      unfold State.register
      dsimp only
      split
      · exact .quiet ⟨rfl, rfl⟩ rfl
      · split
        · exact .quiet ⟨rfl, rfl⟩ rfl
        · split
          · exact .quiet ⟨rfl, rfl⟩ rfl
          · next hsave =>
              refine .quiet ?_ rfl
              rw [sellerStats_saveUsers hsave]
              exact ⟨rfl, rfl⟩
  | login u password hash =>
      unfold State.login
      dsimp only
      repeat' split
      all_goals exact .quiet ⟨rfl, rfl⟩ rfl
  | restart => exact hone.elim

end Steps

/-! ## Runs -/

section Runs

variable {st₀ st : State} {tr : List Event} {d : Dashboard}

/-- A dashboard adds up the charges it is told of. -/
theorem Dashboard.follow_eq : d.follow tr =
    ⟨d.earned + (tr.filterMap Event.earns).sum, d.served + (tr.filterMap Event.earns).length,
      d.settledTotal⟩ := by
  unfold Dashboard.follow
  induction tr generalizing d with
  | nil => rfl
  | cons e tr ih =>
      cases e with
      | seller e =>
          cases e with
          | jobDone tier model tokens charge =>
              have hlater := ih (d := d.receive (.jobDone tier model tokens charge))
              simp only [List.filterMap_cons, Dashboard.hears, Event.earns, List.foldl_cons,
                List.sum_cons, List.length_cons]
              rw [hlater]
              simp only [Dashboard.receive, Dashboard.mk.injEq, and_true]
              omega
          | _ => exact ih
      | _ => exact ih

theorem announced_run (h : Trace (lts step OneProcess) st₀ tr st) : Announced st₀ (st, tr) := by
  refine h.invariant (I := fun st tr => Announced st₀ (st, tr)) ⟨rfl, rfl⟩ ?_
  rintro st tr es st' ⟨hearned, hreplies⟩ ⟨i, hone, hi⟩
  obtain ⟨hearned', hreplies'⟩ := announced_step hone hi
  constructor
  · simp only [List.filterMap_append, List.sum_append] at hearned hearned' ⊢
    omega
  · simp only [List.filterMap_append, List.length_append] at hreplies hreplies' ⊢
    omega

/-- **A dashboard keeps up with what was earned, not with what can be withdrawn.** After any
run of the bridge, what a dashboard shows as earned and served is what one that connects now
is shown. What it shows as available is that exactly if no reply was charged since it
connected. -/
theorem dashboard_faithful_iff (h : Trace (lts step OneProcess) st₀ tr st) :
    ((Dashboard.connected st₀).follow tr).earned = (Dashboard.connected st).earned ∧
      ((Dashboard.connected st₀).follow tr).served = (Dashboard.connected st).served ∧
      ((Dashboard.connected st₀).follow tr = Dashboard.connected st ↔
        ∀ charge ∈ tr.filterMap Event.earns, charge = 0) := by
  obtain ⟨hearned, hreplies⟩ := announced_run h
  rw [Dashboard.follow_eq]
  refine ⟨hearned.symm, hreplies.symm, ?_⟩
  rw [← List.sum_eq_zero_iff_forall_eq_nat]
  simp only [Dashboard.connected, Dashboard.receive, Dashboard.mk.injEq]
  dsimp only at hearned hreplies
  omega

end Runs

/-! A dashboard that is connected from the start, and one reply. -/

def connectedReply : List Input :=
  written (openSession ++ [.connect, .chat ⟨0, [0x68, 0x69], none⟩, .answered 2 (.ok demoAnswer)])

theorem dashboard_faithful_demo : ∃ (tr : List Event) (st : State),
    (Dashboard.connected demoBoot).follow tr = ⟨42, 1, 0⟩ ∧
      ((Dashboard.connected demoBoot).follow tr).earned = (Dashboard.connected st).earned :=
  have h := trace_exec step OneProcess demoBoot connectedReply (by decide) (by decide)
  ⟨_, _, by decide, (dashboard_faithful_iff h).1⟩

theorem dashboard_not_faithful : ¬ ∀ (tr : List Event) (st : State),
    Trace (lts step OneProcess) demoBoot tr st →
      (Dashboard.connected demoBoot).follow tr = Dashboard.connected st := by
  intro h
  have hrun := trace_exec step OneProcess demoBoot connectedReply (by decide) (by decide)
  have hshown := congrArg Dashboard.settledTotal (h _ _ hrun)
  exact absurd hshown (by decide)

end Bartok.Bridge
