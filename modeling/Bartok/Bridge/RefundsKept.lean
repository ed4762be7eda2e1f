import Bartok.Bridge.Chain
import Bartok.Bridge.Gate
import Bartok.Bridge.Refunds

/-!
# A refund and its session

A session may be settled by several runs, one after another and over restarts: one lands
and is not understood, or lands after its bridge has been killed, and the next one finds
the escrow spent. Nothing tells the bridge then that the escrow was consumed by a run of
its own. So a run of the bridge comes with the runs that have outlived the process that
started them, and a session is followed from the draw of its id, through every snapshot.
-/

namespace Bartok.Bridge

open Foundation Miden State

/-! ## The bridge with the runs it has lost -/

/-- A `settle_session` run whose bridge was killed, with what it was started with. -/
structure Orphan where
  sid : SessionId
  charge : ℕ
  note : EscrowNote

structure RefundState where
  bridge : State
  orphans : List Orphan
  /-- The ids that were drawn for sessions. -/
  ids : List SessionId

inductive RefundInput
  | bridge (i : Input)
  | orphanEnds (k : ℕ) (run : SettleRun)

inductive RefundEvent
  /-- An event of the bridge, in a step in which the refund store can be written or not. -/
  | bridge (e : Event) (writable : Bool)
  | opened (sid : SessionId) (buyerId : WalletId)
  | orphaned (sid : SessionId) (charge : ℕ) (run : SettleRun)
  /-- The session is not in the map. -/
  | absent (sid : SessionId)
deriving DecidableEq

/-- The `settle_session` runs in flight. -/
def State.inFlight (st : State) : List Orphan :=
  (List.range st.nextPid).filterMap fun pid =>
    ((st.procs pid).bind Proc.settleRun).bind fun run =>
      (st.captured run.1).map fun captured => ⟨run.1, run.2, captured.2⟩

/-- The id of the session that a step opens. -/
def Action.opens : Action → Option SessionId
  | .escrowBuilt _ sid (some _) => some sid
  | _ => none

namespace RefundState

variable (st : RefundState)

/-- The bridge is killed and started again; what it ran goes on. -/
def restarted : RefundState :=
  { st with bridge := st.bridge.restarted, orphans := st.orphans ++ st.bridge.inFlight }

/-- A run that nobody waits for ends. -/
def orphanEnded (k : ℕ) (o : Orphan) (run : SettleRun) : RefundState :=
  { st with bridge := st.bridge.land o.note run, orphans := st.orphans.eraseIdx k }

/-- The sessions that were opened and are not in the map. -/
def absences : List RefundEvent :=
  (st.ids.filter fun sid => (st.bridge.sessions.get? sid).isNone).map .absent

end RefundState

def openedEvents (st : State) (sid : SessionId) : List RefundEvent :=
  ((st.terms sid).map fun t => .opened sid t.buyerId).toList

def refundStep (st : RefundState) : RefundInput → Option (RefundState × List RefundEvent)
  | .bridge i =>
      match i.act with
      | .restart => some (st.restarted, st.restarted.absences)
      | .escrowBuilt _ sid (some _) =>
          -- `randomUUID` draws no id a second time
          if sid ∈ st.ids then none
          else (step st.bridge i).map fun r =>
            ({ st with bridge := r.1, ids := sid :: st.ids },
              r.2.map (.bridge · i.writes.refunds) ++ openedEvents r.1 sid)
      | _ => (step st.bridge i).map fun r =>
          ({ st with bridge := r.1 }, r.2.map (.bridge · i.writes.refunds))
  | .orphanEnds k run =>
      match st.orphans[k]? with
      | some o =>
          if st.bridge.canLand o.note o.charge run then
            some (st.orphanEnded k o run,
              .orphaned o.sid o.charge run :: (st.orphanEnded k o run).absences)
          else none
      | none => none

/-- Any step, with any outcomes. -/
def AnyRefund (_ : RefundState) (_ : RefundInput) : Prop := True

instance (st : RefundState) (i : RefundInput) : Decidable (AnyRefund st i) :=
  inferInstanceAs (Decidable True)

/-- What a step can do. -/
inductive RefundSteps (st : RefundState) : RefundState → List RefundEvent → Prop
  | bridge {i : Input} {r : State × List Event} (hi : step st.bridge i = some r)
      (hone : OneProcess st.bridge i) (hopens : i.act.opens = none) :
      RefundSteps st { st with bridge := r.1 } (r.2.map (.bridge · i.writes.refunds))
  | opened {i : Input} {r : State × List Event} {sid : SessionId} (hi : step st.bridge i = some r)
      (hopens : i.act.opens = some sid) (hnew : sid ∉ st.ids) :
      RefundSteps st { st with bridge := r.1, ids := sid :: st.ids }
        (r.2.map (.bridge · i.writes.refunds) ++ openedEvents r.1 sid)
  | restart : RefundSteps st st.restarted st.restarted.absences
  | orphanEnds {k : ℕ} {o : Orphan} {run : SettleRun} (ho : st.orphans[k]? = some o)
      (hland : st.bridge.canLand o.note o.charge run) :
      RefundSteps st (st.orphanEnded k o run)
        (.orphaned o.sid o.charge run :: (st.orphanEnded k o run).absences)

theorem refundSteps_of_refundStep {st st' : RefundState} {i : RefundInput} {es : List RefundEvent}
    (h : refundStep st i = some (st', es)) : RefundSteps st st' es := by
  cases i with
  | bridge i =>
      obtain ⟨act, w⟩ := i
      simp only [refundStep] at h
      split at h
      · obtain ⟨rfl, rfl⟩ := Prod.mk.inj (Option.some.inj h)
        exact .restart
      · split at h
        · cases h
        · next hnew =>
            obtain ⟨r, hr, heq⟩ := Option.map_eq_some_iff.mp h
            obtain ⟨rfl, rfl⟩ := Prod.mk.inj heq
            exact .opened hr rfl hnew
      · next hrestart hopens =>
          obtain ⟨r, hr, heq⟩ := Option.map_eq_some_iff.mp h
          obtain ⟨rfl, rfl⟩ := Prod.mk.inj heq
          apply RefundSteps.bridge hr (oneProcess_iff.mpr hrestart)
          unfold Action.opens
          split
          · next heq => exact (hopens _ _ _ heq).elim
          · rfl
  | orphanEnds k run =>
      simp only [refundStep] at h
      split at h
      · next o ho =>
          split at h
          · next hland =>
              obtain ⟨rfl, rfl⟩ := Prod.mk.inj (Option.some.inj h)
              exact .orphanEnds ho hland
          · cases h
      · cases h

/-! ## The refunds of a session -/

/-- What the run did on chain, unless it brings the bridge a success with a refund that
can be recorded. -/
def SettleRun.missed (run : SettleRun) (writable : Bool) : Option Landing :=
  match run.verdict with
  | .settled _ => if writable then none else run.landed
  | _ => run.landed

namespace RefundEvent

/-- The run that has ended, with its charge. -/
def run : RefundEvent → Option (ℕ × SettleRun)
  | .bridge e _ => e.run
  | .orphaned _ charge run => some (charge, run)
  | _ => none

/-- What a run on the session `sid` did on chain. -/
def landing (sid : SessionId) : RefundEvent → Option Landing
  | .bridge (.settleEnd _ s _ run) _ => if s = sid then run.landed else none
  | .orphaned s _ run => if s = sid then run.landed else none
  | _ => none

/-- The same for the runs whose refund the bridge misses: it does not hear of the success,
or cannot write the file. -/
def missed (sid : SessionId) : RefundEvent → Option Landing
  | .bridge (.settleEnd _ s _ run) writable => if s = sid then run.missed writable else none
  | .orphaned s _ run => if s = sid then run.landed else none
  | _ => none

/-- The session leaves the map, or is not in it. -/
def leaves (sid : SessionId) : RefundEvent → Bool
  | .bridge (.evicted s) _ => s = sid
  | .absent s => s = sid
  | _ => false

/-- A run on the session reports the escrow spent, or the session is not in the map. -/
def gone (sid : SessionId) : RefundEvent → Bool
  | .bridge (.settleEnd _ s _ run) _ => s = sid && run.verdict = .spent
  | .absent s => s = sid
  | _ => false

end RefundEvent

def landings (sid : SessionId) (tr : List RefundEvent) : List Landing :=
  tr.filterMap (RefundEvent.landing sid)

def missed (sid : SessionId) (tr : List RefundEvent) : List Landing :=
  tr.filterMap (RefundEvent.missed sid)

/-- Each refund that the settlements of the session created has been recorded for the
buyer `w`. -/
def AllRecorded (sid : SessionId) (w : WalletId) (tr : List RefundEvent) : Prop :=
  ∀ l ∈ landings sid tr, 0 < l.refund →
    .bridge (.refundRecorded sid w l.refundNoteFileB64) true ∈ tr

/-- No run on the session that the bridge missed created a refund. -/
def NoneMissed (sid : SessionId) (tr : List RefundEvent) : Prop :=
  ∀ l ∈ missed sid tr, l.refund = 0

/-- When the session leaves the map, each refund of its own settlements has been recorded. -/
def RefundsKept (sid : SessionId) (w : WalletId) (tr : List RefundEvent) : Prop :=
  Before (fun pre e => e.leaves sid = true → AllRecorded sid w pre) tr

/-- When a run reports the escrow spent, or the session is not in the map, no run has
created a refund that the bridge missed. -/
def MissesNothing (sid : SessionId) (tr : List RefundEvent) : Prop :=
  Before (fun pre e => e.gone sid = true → NoneMissed sid (pre ++ [e])) tr

instance (sid : SessionId) (w : WalletId) (tr : List RefundEvent) :
    Decidable (AllRecorded sid w tr) :=
  inferInstanceAs (Decidable (∀ l ∈ landings sid tr, _))

instance (sid : SessionId) (tr : List RefundEvent) : Decidable (NoneMissed sid tr) :=
  inferInstanceAs (Decidable (∀ l ∈ missed sid tr, _))

instance (sid : SessionId) (w : WalletId) (tr : List RefundEvent) :
    Decidable (RefundsKept sid w tr) :=
  inferInstanceAs (Decidable (Before _ tr))

instance (sid : SessionId) (tr : List RefundEvent) : Decidable (MissesNothing sid tr) :=
  inferInstanceAs (Decidable (Before _ tr))

/-! ## How a settlement ends -/

/-- The session that has been settled, recorded or closed. -/
def Event.closed : Event → Option SessionId
  | .settleEnd _ sid _ _ | .refundRecorded sid _ _ | .evicted sid => some sid
  | _ => none

/-- What the bridge does about a finished run: nothing, or it records the refund there is
and closes the session. -/
def SettleRun.closing (run : SettleRun) (sid : SessionId) (buyerId : WalletId) (writable : Bool) :
    List Event :=
  match run.verdict with
  | .settled json =>
      if json.refundNoteFileB64.isNone || writable then
        refundEvents sid buyerId json.refundNoteFileB64 ++ [.evicted sid]
      else []
  | .spent => [.evicted sid]
  | _ => []

section Closing

variable {st : State} {sid : SessionId} {pid : Pid} {s : Session} {charge attempt cursor : ℕ}
  {run : SettleRun} {w : Writes} {e : Event} {file : Option NoteFile} {i : Input}
  {r : State × List Event}

theorem closed_of_kind (h : e.kind ≠ .closing) : e.closed = none := by
  cases e with
  | settleEnd | refundRecorded | evicted => exact absurd rfl h
  | _ => rfl

theorem closed_startJoao : ∀ e ∈ (st.startJoao file).2, e.closed = none := by
  unfold startJoao
  split
  · simp
  · simp [Event.closed]

theorem closed_sweepFrom : ∀ e ∈ (st.sweepFrom pid cursor).2, e.closed = none := by
  unfold sweepFrom
  split
  · simp
  · split
    · simp
    · simp [Event.closed]

theorem closing_endReturned : ∃ rest, (∀ e ∈ rest, e.closed = none) ∧
    (st.endReturned pid sid s charge attempt run w).2 =
      .settleEnd pid sid charge run :: (run.closing sid s.buyerId w.refunds ++ rest) := by
  unfold endReturned SettleRun.closing
  cases hv : run.verdict with
  | settled json =>
      dsimp only
      split
      · next hrec =>
          rw [recordRefund_eq_none hrec, if_neg Bool.false_ne_true]
          exact ⟨[_], by simp [Event.closed], rfl⟩
      · next hrec =>
          rw [(recordRefund_eq_some hrec).1, if_pos rfl]
          refine ⟨_ ++ [_, _], fun e he => ?_, by
            simp only [List.cons_append, List.append_assoc, List.nil_append]
            rfl⟩
          rcases List.mem_append.mp he with he | he
          · exact closed_startJoao e he
          · simp only [List.mem_cons, List.not_mem_nil, or_false] at he
            rcases he with rfl | rfl
            · rfl
            · rfl
  | spent => exact ⟨[_], by simp [Event.closed], rfl⟩
  | wedged =>
      dsimp only
      split
      · exact ⟨[_], by simp [Event.closed], rfl⟩
      · exact ⟨[_], by simp [Event.closed], rfl⟩
  | failed => exact ⟨[_], by simp [Event.closed], rfl⟩

theorem closing_sweepSettled : ∃ rest, (∀ e ∈ rest, e.closed = none) ∧
    (st.sweepSettled sid s run w).2 = run.closing sid s.buyerId w.refunds ++ rest := by
  unfold sweepSettled SettleRun.closing
  cases hv : run.verdict with
  | settled json =>
      dsimp only
      split
      · next hrec =>
          rw [recordRefund_eq_none hrec, if_neg Bool.false_ne_true]
          exact ⟨[], by simp, rfl⟩
      · next hrec =>
          rw [(recordRefund_eq_some hrec).1, if_pos rfl]
          exact ⟨_, closed_startJoao, (List.append_assoc _ [_] _).symm⟩
  | spent => exact ⟨[], by simp, rfl⟩
  | wedged => exact ⟨[], by simp, rfl⟩
  | failed => exact ⟨[], by simp, rfl⟩

theorem closing_sweepReturned : ∃ rest, (∀ e ∈ rest, e.closed = none) ∧
    (st.sweepReturned pid sid s charge cursor run w).2 =
      .settleEnd pid sid charge run :: (run.closing sid s.buyerId w.refunds ++ rest) := by
  obtain ⟨rest, hrest, heq⟩ : ∃ rest, (∀ e ∈ rest, e.closed = none) ∧
      (st.sweepSettled sid s run w).2 = run.closing sid s.buyerId w.refunds ++ rest :=
    closing_sweepSettled
  refine ⟨rest ++ ((st.sweepSettled sid s run w).1.sweepFrom pid cursor).2, ?_, ?_⟩
  · intro e he
    rcases List.mem_append.mp he with he | he
    · exact hrest e he
    · exact closed_sweepFrom e he
  · rw [← List.append_assoc, ← heq]
    rfl

/-- A settlement ends with what the bridge does about it; no other step closes a session. -/
theorem closing_step (hi : step st i = some r) : (∀ e ∈ r.2, e.closed = none) ∨
    ∃ pid sid charge run s note rest, st.captured sid = some (s, note) ∧
      st.canLand note charge run ∧ r.1.chain = (st.land note run).chain ∧
      (∀ e ∈ rest, e.closed = none) ∧ r.2 = .settleEnd pid sid charge run ::
        (run.closing sid s.buyerId i.writes.refunds ++ rest) := by
  obtain ⟨act, w⟩ := i
  have hcaptured : ∀ {sid slot note}, st.sessions.slot? sid = some slot →
      slot.val.escrowNoteB64 = some note → st.captured sid = some (slot.val, note) := by
    intro sid slot note hslot hnote
    simp [State.captured, SlotMap.obj?, hslot, hnote]
  by_cases hkinds : EventKind.closing ∈ act.kinds
  · right
    cases steps_of_step hi with
    | endReturned hp hslot hnote hland =>
        obtain ⟨rest, hrest, heq⟩ := closing_endReturned
        exact ⟨_, _, _, _, _, _, rest, hcaptured hslot hnote, hland, chain_endReturned, hrest, heq⟩
    | sweepReturned hp hslot hnote hland =>
        obtain ⟨rest, hrest, heq⟩ := closing_sweepReturned
        exact ⟨_, _, _, _, _, _, rest, hcaptured hslot hnote, hland, chain_sweepReturned, hrest,
          heq⟩
    | _ => simp [Action.kinds] at hkinds
  · left
    intro e he
    apply closed_of_kind
    intro hkind
    rcases kind_step hi e he with hplain | hmem
    · cases hplain.symm.trans hkind
    · exact hkinds (hkind ▸ hmem)

end Closing

/-! ## What a session keeps -/

/-- The session has such a buyer and such a note, in memory and in the snapshot. -/
structure State.Only (st : State) (sid : SessionId) (P : WalletId → EscrowParams → Prop) :
    Prop where
  memory : ∀ t, st.terms sid = some t → P t.buyerId t.params
  saved : ∀ t, st.savedTerms sid = some t → P t.buyerId t.params

section Only

variable {st st' : State} {sid : SessionId} {P : WalletId → EscrowParams → Prop} {i : Input}
  {r : State × List Event}

theorem State.Only.keep (h : st.Only sid P) (hk : Keeps st st') : st'.Only sid P := by
  constructor
  · intro t ht
    rw [hk.terms] at ht
    exact h.memory t ht
  · intro t ht
    rcases hk.saved sid t ht with hsaved | hterms
    · exact h.saved t hsaved
    · exact h.memory t hterms

theorem State.Only.arrive (h : st.Only sid P) : st.arrive.Only sid P := ⟨h.memory, h.saved⟩

theorem State.Only.spawn {pid : Pid} {p : Proc} (h : st.Only sid P) : (st.spawn pid p).Only sid P :=
  ⟨h.memory, h.saved⟩

theorem only_escrowBuilt {pid : Pid} {buyerId : WalletId} {tier : String} {sid' : SessionId}
    {budget : ℕ} {params : EscrowParams} {w : Writes} (h : st.Only sid P)
    (hnew : st.sessions.slot? sid' = none) (hopened : sid = sid' → P buyerId params) :
    (st.escrowBuilt pid buyerId tier sid' (some (budget, params)) w).1.Only sid P := by
  have hterms : ((st.finish pid).insert sid' (newSession buyerId tier budget params
      (st.finish pid).now)).terms sid = if sid = sid' then
        some (newSession buyerId tier budget params (st.finish pid).now).terms
      else st.terms sid := terms_insert hnew sid
  apply State.Only.keep _ Keeps.refl.persistSessions
  refine ⟨fun t ht => ?_, h.saved⟩
  rw [hterms] at ht
  split at ht
  · next heq =>
      obtain rfl := Option.some.inj ht
      exact hopened heq
  · exact h.memory t ht

/-- Only a session that opens comes to a buyer and to a note. -/
theorem only_step (h : st.Only sid P) (hopens : i.act.opens ≠ some sid)
    (hi : step st i = some r) : r.1.Only sid P := by
  obtain ⟨act, w⟩ := i
  by_cases hgates : act.gates = false
  · exact h.keep (keeps_step hgates hi)
  · cases steps_of_step hi with
    | start req =>
        rcases sessionStart_cases st req with heq | ⟨budget, heq, -⟩
        · rw [heq]
          exact h.arrive
        · rw [heq]
          exact h.arrive.spawn
    | escrow sid =>
        unfold sessionEscrow
        dsimp only
        split
        · exact h.arrive
        · exact h.arrive.spawn
    | @escrowBuilt pid buyerId tier sid' params hp hnew =>
        apply only_escrowBuilt h hnew
        rintro rfl
        exact absurd rfl hopens
    | @escrowVerified pid sid' committed hp =>
        cases committed with
        | false => exact absurd rfl hgates
        | true =>
            apply State.Only.keep _ Keeps.refl.persistSessions
            refine ⟨fun t ht => ?_, h.saved⟩
            rw [terms_modify (g := fun t => { t with escrowNoteB64 := some t.params.noteB64 })
              fun _ => rfl] at ht
            split at ht
            · next heq =>
                obtain ⟨t', ht', rfl⟩ := Option.map_eq_some_iff.mp ht
                exact h.memory t' (heq ▸ ht')
            · exact h.memory t ht
    | chat req =>
        unfold State.chat
        dsimp only
        split
        · exact h.arrive
        · split
          · exact h.arrive.spawn.keep (Keeps.refl.setBusy.modify keepsTerms_openHistory)
          · exact h.arrive
    | restart => exact ⟨fun t ht => h.saved t (savedTerms_of_boot ht), h.saved⟩
    | _ => exact absurd rfl hgates

end Only

/-! ## What the events say of each other -/

namespace RefundEvent

/-- The session that was settled, closed or found missing. -/
def about : RefundEvent → Option SessionId
  | .bridge e _ => e.closed
  | .opened _ _ => none
  | .orphaned sid _ _ => some sid
  | .absent sid => some sid

def records (sid : SessionId) : RefundEvent → Bool
  | .bridge (.refundRecorded s _ _) _ => s = sid
  | _ => false

end RefundEvent

/-- The landings of a session, and the records of its refunds: the first landing spends the
escrow, so when a refund has been recorded there has been no other. -/
structure Booked (sid : SessionId) (w : WalletId) (spent : Prop) (tr : List RefundEvent) :
    Prop where
  landed : landings sid tr ≠ [] → spent
  recorded : ∀ l ∈ landings sid tr, 0 < l.refund → l ∈ missed sid tr ∨
    .bridge (.refundRecorded sid w l.refundNoteFileB64) true ∈ tr
  heard : (∃ e ∈ tr, e.records sid = true) → missed sid tr = [] ∧ landings sid tr ≠ []

section Events

variable {sid : SessionId} {w : WalletId} {spent spent' : Prop} {tr es : List RefundEvent}
  {e : RefundEvent} {run : SettleRun} {writable : Bool} {l : Landing} {pid : Pid} {charge : ℕ}

@[simp] theorem landings_nil : landings sid [] = [] := rfl

@[simp] theorem missed_nil : missed sid [] = [] := rfl

@[simp] theorem landings_append : landings sid (tr ++ es) = landings sid tr ++ landings sid es :=
  List.filterMap_append

@[simp] theorem missed_append : missed sid (tr ++ es) = missed sid tr ++ missed sid es :=
  List.filterMap_append

@[simp] theorem landings_cons :
    landings sid (e :: es) = (e.landing sid).toList ++ landings sid es := by
  cases he : e.landing sid <;> simp [landings, he]

@[simp] theorem missed_cons : missed sid (e :: es) = (e.missed sid).toList ++ missed sid es := by
  cases he : e.missed sid <;> simp [missed, he]

theorem landing_of_missed (h : e.missed sid = some l) : e.landing sid = some l := by
  unfold RefundEvent.missed at h
  split at h
  · next pid s charge run writable =>
      split at h
      · next hsid =>
          unfold SettleRun.missed at h
          rw [RefundEvent.landing, if_pos hsid]
          split at h
          · exact (Option.ite_none_left_eq_some.mp h).2
          · exact h
      · cases h
  · exact h
  · cases h

theorem missed_subset : missed sid tr ⊆ landings sid tr := by
  intro l hl
  obtain ⟨e, he, hmissed⟩ := List.mem_filterMap.mp hl
  exact List.mem_filterMap.mpr ⟨e, he, landing_of_missed hmissed⟩

theorem landing_about (h : e.about ≠ some sid) : e.landing sid = none := by
  unfold RefundEvent.landing
  split
  · exact if_neg fun hsid => h (congrArg some hsid)
  · exact if_neg fun hsid => h (congrArg some hsid)
  · rfl

theorem missed_of_landing (h : e.landing sid = none) : e.missed sid = none := by
  cases hm : e.missed sid with
  | none => rfl
  | some l => cases h.symm.trans (landing_of_missed hm)

theorem records_about (h : e.about ≠ some sid) : e.records sid = false := by
  unfold RefundEvent.records
  split
  · exact decide_eq_false fun hsid => h (congrArg some hsid)
  · rfl

theorem leaves_about (h : e.about ≠ some sid) : e.leaves sid = false := by
  unfold RefundEvent.leaves
  split
  · exact decide_eq_false fun hsid => h (congrArg some hsid)
  · exact decide_eq_false fun hsid => h (congrArg some hsid)
  · rfl

theorem gone_about (h : e.about ≠ some sid) : e.gone sid = false := by
  unfold RefundEvent.gone
  split
  · rw [decide_eq_false fun hsid => h (congrArg some hsid)]
    rfl
  · exact decide_eq_false fun hsid => h (congrArg some hsid)
  · rfl

theorem landings_eq_nil (h : ∀ e ∈ es, e.landing sid = none) : landings sid es = [] :=
  List.filterMap_eq_nil_iff.mpr h

theorem missed_eq_nil (h : ∀ e ∈ es, e.landing sid = none) : missed sid es = [] :=
  List.filterMap_eq_nil_iff.mpr fun e he => missed_of_landing (h e he)

namespace Booked

/-- The refunds are all recorded when none was missed. -/
theorem balanced (h : Booked sid w spent tr) : AllRecorded sid w tr ↔ NoneMissed sid tr := by
  constructor
  · intro hall l hl
    by_contra hpos
    have hrec := hall l (missed_subset hl) (Nat.pos_of_ne_zero hpos)
    rw [(h.heard ⟨_, hrec, decide_eq_true rfl⟩).1] at hl
    cases hl
  · intro hnone l hl hpos
    rcases h.recorded l hl hpos with hmissed | hrec
    · exact absurd (hnone l hmissed) hpos.ne'
    · exact hrec

theorem weaken (h : Booked sid w spent tr) (hspent : spent → spent') : Booked sid w spent' tr :=
  ⟨fun hl => hspent (h.landed hl), h.recorded, h.heard⟩

/-- Events that are no landing and no record. -/
theorem silent (h : Booked sid w spent tr) (hland : ∀ e ∈ es, e.landing sid = none)
    (hrec : ∀ e ∈ es, e.records sid = false) : Booked sid w spent (tr ++ es) := by
  constructor
  · rw [landings_append, landings_eq_nil hland, List.append_nil]
    exact h.landed
  · rw [landings_append, landings_eq_nil hland, missed_append, missed_eq_nil hland,
      List.append_nil, List.append_nil]
    exact fun l hl hpos => (h.recorded l hl hpos).imp_right fun hmem => List.mem_append_left _ hmem
  · rw [landings_append, landings_eq_nil hland, missed_append, missed_eq_nil hland,
      List.append_nil, List.append_nil]
    rintro ⟨e, he, hrecords⟩
    rcases List.mem_append.mp he with he | he
    · exact h.heard ⟨e, he, hrecords⟩
    · cases (hrec e he).symm.trans hrecords

theorem fresh (h : Booked sid w spent tr) (hnot : ¬ spent) :
    landings sid tr = [] ∧ missed sid tr = [] ∧ ∀ e ∈ tr, e.records sid = false := by
  have hnone : landings sid tr = [] := by
    by_contra hne
    exact hnot (h.landed hne)
  refine ⟨hnone, List.subset_nil.mp (hnone ▸ missed_subset), fun e he => ?_⟩
  rw [← Bool.not_eq_true]
  exact fun hrecords => (h.heard ⟨e, he, hrecords⟩).2 hnone

/-- A run that the bridge misses. -/
theorem missing (h : Booked sid w spent tr) (hland : e.landing sid = run.landed)
    (hmissed : e.missed sid = run.landed) (hrec : e.records sid = false)
    (hfirst : run.landed.isSome = true → ¬ spent ∧ spent') (hspent : spent → spent') :
    Booked sid w spent' (tr ++ [e]) := by
  cases hrun : run.landed with
  | none =>
      rw [hrun] at hland
      exact (h.weaken hspent).silent (by simpa using hland) (by simpa using hrec)
  | some l =>
      rw [hrun] at hland hmissed hfirst
      obtain ⟨hnot, hspent'⟩ := hfirst rfl
      obtain ⟨hlandings, hmisses, hrecords⟩ := h.fresh hnot
      refine ⟨fun _ => hspent', ?_, ?_⟩
      · simp [hlandings, hmisses, hland, hmissed]
      · rintro ⟨e', he', htrue⟩
        rcases List.mem_append.mp he' with he' | he'
        · cases (hrecords e' he').symm.trans htrue
        · rw [List.mem_singleton.mp he', hrec] at htrue
          cases htrue

/-- A run that landed is understood, and its refund is recorded. -/
theorem hearing (h : Booked sid w spent tr) (hnot : ¬ spent) (hspent : spent')
    (hland : landings sid es = [l]) (hmissed : missed sid es = [])
    (hrec : 0 < l.refund → .bridge (.refundRecorded sid w l.refundNoteFileB64) true ∈ es) :
    Booked sid w spent' (tr ++ es) := by
  obtain ⟨hlandings, hmisses, -⟩ := h.fresh hnot
  refine ⟨fun _ => hspent, ?_, fun _ => ?_⟩
  · rw [landings_append, hlandings, hland]
    intro l' hl' hpos
    rw [List.mem_singleton.mp hl'] at hpos ⊢
    exact .inr (List.mem_append_right _ (hrec hpos))
  · rw [landings_append, hlandings, hland, missed_append, hmisses, hmissed]
    exact ⟨rfl, List.cons_ne_nil _ _⟩

end Booked

/-- The events so far bear the result out. -/
structure Accounted (sid : SessionId) (w : WalletId) (spent : Prop) (tr : List RefundEvent) :
    Prop where
  booked : Booked sid w spent tr
  kept : RefundsKept sid w tr ↔ MissesNothing sid tr

theorem accounted_nil : Accounted sid w spent [] :=
  ⟨⟨fun h => absurd rfl h, by simp, by simp⟩, iff_of_true before_nil before_nil⟩

theorem kept_append (h : RefundsKept sid w tr ↔ MissesNothing sid tr)
    (hes : Before (fun pre e => e.leaves sid = true → AllRecorded sid w (tr ++ pre)) es ↔
      Before (fun pre e => e.gone sid = true → NoneMissed sid (tr ++ pre ++ [e])) es) :
    RefundsKept sid w (tr ++ es) ↔ MissesNothing sid (tr ++ es) :=
  before_append.trans ((and_congr h hes).trans before_append.symm)

namespace Accounted

theorem quiet (h : Accounted sid w spent tr) (hes : ∀ e ∈ es, e.about ≠ some sid) :
    Accounted sid w spent (tr ++ es) := by
  refine ⟨h.booked.silent (fun e he => landing_about (hes e he))
    fun e he => records_about (hes e he), kept_append h.kept (iff_of_true ?_ ?_)⟩
  · apply before_of_forall
    intro e he pre hleaves
    cases (leaves_about (hes e he)).symm.trans hleaves
  · apply before_of_forall
    intro e he pre hgone
    cases (gone_about (hes e he)).symm.trans hgone

/-- At every point where the session is missing, the two sides say the same. -/
theorem absent (h : Accounted sid w spent tr) (s : SessionId) :
    Accounted sid w spent (tr ++ [.absent s]) := by
  have hbooked : Booked sid w spent (tr ++ [.absent s]) :=
    h.booked.silent (by simp [RefundEvent.landing]) (by simp [RefundEvent.records])
  refine ⟨hbooked, kept_append h.kept ?_⟩
  have hmissed : NoneMissed sid (tr ++ [.absent s]) ↔ NoneMissed sid tr := by
    simp [NoneMissed, RefundEvent.missed]
  simp only [before_cons, before_nil, and_true, List.append_nil]
  rw [hmissed, h.booked.balanced]
  rfl

theorem absences (h : Accounted sid w spent tr) (ids : List SessionId) :
    Accounted sid w spent (tr ++ ids.map .absent) := by
  induction ids generalizing tr with
  | nil => simpa using h
  | cons s ids ih => simpa using ih (h.absent s)

theorem orphaned (h : Accounted sid w spent tr)
    (hfirst : run.landed.isSome = true → ¬ spent ∧ spent') (hspent : spent → spent') :
    Accounted sid w spent' (tr ++ [.orphaned sid charge run]) := by
  refine ⟨h.booked.missing (if_pos rfl) (if_pos rfl) rfl hfirst hspent, kept_append h.kept ?_⟩
  simp [RefundEvent.leaves, RefundEvent.gone]

/-- A run of the bridge ends: it brings a success, whose refund can be recorded or not. -/
theorem succeeded {json : SettleJson} (h : Accounted sid w spent tr)
    (hv : run.verdict = .settled json) (hl : run.landed = some l)
    (hfile : json.refundNoteFileB64 = if 0 < l.refund then some l.refundNoteFileB64 else none)
    (hnot : ¬ spent) (hspent : spent') :
    Accounted sid w spent' (tr ++ (.settleEnd pid sid charge run ::
      run.closing sid w writable).map (.bridge · writable)) := by
  obtain ⟨hlandings, hmisses, hrecords⟩ := h.booked.fresh hnot
  have hmissing : Booked sid w spent' (tr ++ [.bridge (.settleEnd pid sid charge run) false]) :=
    h.booked.missing (if_pos rfl) (by simp [RefundEvent.missed, SettleRun.missed, hv]) rfl
      (fun _ => ⟨hnot, hspent⟩) fun _ => hspent
  by_cases hpos : 0 < l.refund
  · rw [if_pos hpos] at hfile
    cases writable with
    | false =>
        have hclosing : run.closing sid w false = [] := by simp [SettleRun.closing, hv, hfile]
        rw [hclosing]
        refine ⟨hmissing, kept_append h.kept ?_⟩
        simp [RefundEvent.leaves, RefundEvent.gone, hv]
    | true =>
        have hclosing : run.closing sid w true =
            [.refundRecorded sid w l.refundNoteFileB64, .evicted sid] := by
          simp [SettleRun.closing, hv, hfile, refundEvents]
        rw [hclosing]
        refine ⟨h.booked.hearing (l := l) hnot hspent ?_ ?_ ?_, kept_append h.kept ?_⟩
        · simp [RefundEvent.landing, hl]
        · simp [RefundEvent.missed, SettleRun.missed, hv]
        · simp
        · simp [RefundEvent.leaves, RefundEvent.gone, hv, AllRecorded, RefundEvent.landing, hl,
            hlandings]
  · -- nothing comes back to the buyer, so there is nothing to record
    rw [if_neg hpos] at hfile
    have hclosing : run.closing sid w writable = [.evicted sid] := by
      simp [SettleRun.closing, hv, hfile, refundEvents]
    rw [hclosing]
    refine ⟨?_, kept_append h.kept ?_⟩
    · cases writable with
      | false =>
          rw [List.map_cons, List.append_cons]
          exact hmissing.silent (by simp [RefundEvent.landing]) (by simp [RefundEvent.records])
      | true =>
          refine h.booked.hearing (l := l) hnot hspent ?_ ?_ fun h => absurd h hpos
          · simp [RefundEvent.landing, hl]
          · simp [RefundEvent.missed, SettleRun.missed, hv]
    · simp [RefundEvent.leaves, RefundEvent.gone, hv, AllRecorded, RefundEvent.landing, hl,
        hlandings, hpos]

theorem settled (h : Accounted sid w spent tr) (hreported : run.Reported)
    (hfirst : run.landed.isSome = true → ¬ spent ∧ spent') (hspent : spent → spent') :
    Accounted sid w spent' (tr ++ (.settleEnd pid sid charge run ::
      run.closing sid w writable).map (.bridge · writable)) := by
  have hmissing : run.missed writable = run.landed →
      Booked sid w spent' (tr ++ [.bridge (.settleEnd pid sid charge run) writable]) :=
    fun hmissed => h.booked.missing (if_pos rfl) ((if_pos rfl).trans hmissed) rfl hfirst hspent
  cases hv : run.verdict with
  | settled json =>
      obtain ⟨l, hl, hfile⟩ := hreported json hv
      obtain ⟨hnot, hspent'⟩ := hfirst (by rw [hl]; rfl)
      exact h.succeeded hv hl hfile hnot hspent'
  | spent =>
      have hb := hmissing (by simp [SettleRun.missed, hv])
      have hclosing : run.closing sid w writable = [.evicted sid] := by simp [SettleRun.closing, hv]
      rw [hclosing]
      refine ⟨?_, kept_append h.kept ?_⟩
      · rw [List.map_cons, List.append_cons]
        exact hb.silent (by simp [RefundEvent.landing]) (by simp [RefundEvent.records])
      -- what the eviction leaves unrecorded is what was missed when the run ended
      · simpa [RefundEvent.leaves, RefundEvent.gone, hv] using hb.balanced
  | wedged =>
      have hclosing : run.closing sid w writable = [] := by simp [SettleRun.closing, hv]
      rw [hclosing]
      refine ⟨hmissing (by simp [SettleRun.missed, hv]), kept_append h.kept ?_⟩
      simp [RefundEvent.leaves, RefundEvent.gone, hv]
  | failed =>
      have hclosing : run.closing sid w writable = [] := by simp [SettleRun.closing, hv]
      rw [hclosing]
      refine ⟨hmissing (by simp [SettleRun.missed, hv]), kept_append h.kept ?_⟩
      simp [RefundEvent.leaves, RefundEvent.gone, hv]

theorem weaken (h : Accounted sid w spent tr) (hspent : spent → spent') :
    Accounted sid w spent' tr :=
  ⟨h.booked.weaken hspent, h.kept⟩

end Accounted

end Events

/-! ## One step -/

/-- No session has had this id so far. -/
structure Unborn (sid : SessionId) (st : RefundState) (tr : List RefundEvent) : Prop where
  unknown : sid ∉ st.ids
  only : st.bridge.Only sid fun _ _ => False
  orphans : ∀ o ∈ st.orphans, o.sid ≠ sid
  quiet : ∀ e ∈ tr, e.about ≠ some sid
  unopened : ∀ u, .opened sid u ∉ tr

/-- A session that was opened for the buyer `w` on an escrow note, in memory, in the
snapshot or in a run that goes on by itself. -/
structure Followed (sid : SessionId) (w : WalletId) (note : EscrowNote) (st : RefundState)
    (tr : List RefundEvent) : Prop where
  known : sid ∈ st.ids
  only : st.bridge.Only sid fun u params => u = w ∧ params.noteB64 = note
  orphans : ∀ o ∈ st.orphans, o.sid = sid → o.note = note
  opened : ∀ u, .opened sid u ∈ tr → u = w
  accounted : Accounted sid w (st.bridge.chain note = .spent) tr

section Step

variable {st : State} {sid sid' : SessionId} {P : WalletId → EscrowParams → Prop} {s : Session}
  {note : EscrowNote} {w u : WalletId} {tr : List RefundEvent} {i : Input} {r : State × List Event}
  {run : SettleRun} {writable : Bool} {e : Event} {charge : ℕ}

/-- What a settlement has captured is the note of its session. -/
theorem captured_only (hs : Solvent st) (h : st.Only sid P)
    (hc : st.captured sid = some (s, note)) : P s.buyerId s.params ∧ note = s.params.noteB64 := by
  obtain ⟨slot, hslot, rfl, hnote⟩ := captured_eq_some hc
  refine ⟨h.memory slot.val.terms ?_, (hs.sessions sid slot hslot).escrow note hnote⟩
  rw [State.terms, SlotMap.obj?, hslot]
  rfl

theorem closed_closing (h : e ∈ run.closing sid u writable) : e.closed = some sid := by
  unfold SettleRun.closing at h
  split at h
  · next json hv =>
      split at h
      · rcases List.mem_append.mp h with h | h
        · cases hfile : json.refundNoteFileB64 with
          | none =>
              rw [hfile] at h
              cases h
          | some file =>
              rw [hfile] at h
              rw [List.mem_singleton.mp h]
              rfl
        · rw [List.mem_singleton.mp h]
          rfl
      · cases h
  · rw [List.mem_singleton.mp h]
    rfl
  · cases h

/-- A session that was not settled in this step. -/
theorem closed_other {pid : Pid} {rest : List Event} (hne : sid' ≠ sid)
    (hrest : ∀ e ∈ rest, e.closed = none)
    (he : e ∈ .settleEnd pid sid' charge run :: (run.closing sid' u writable ++ rest)) :
    e.closed ≠ some sid := by
  intro hclosed
  rcases List.mem_cons.mp he with rfl | he
  · exact hne (Option.some.inj hclosed)
  · rcases List.mem_append.mp he with he | he
    · exact hne (Option.some.inj ((closed_closing he).symm.trans hclosed))
    · cases (hrest e he).symm.trans hclosed

/-- Nothing is settled for a session that does not exist. -/
theorem quiet_unborn (hs : Solvent st) (h : st.Only sid fun _ _ => False)
    (hi : step st i = some r) : ∀ e ∈ r.2, e.closed ≠ some sid := by
  intro e he
  rcases closing_step hi with hquiet | ⟨pid, sid', charge, run, s, note, rest, hc, -, -, hrest, heq⟩
  · rw [hquiet e he]
    nofun
  · have hne : sid' ≠ sid := by
      rintro rfl
      exact (captured_only hs h hc).1
    rw [heq] at he
    exact closed_other hne hrest he

theorem first_landing (hland : st.canLand note charge run) (h : run.landed.isSome = true) :
    ¬ st.chain note = .spent ∧ (st.land note run).chain note = .spent := by
  obtain ⟨l, hl⟩ := Option.isSome_iff_exists.mp h
  refine ⟨?_, spent_land h⟩
  rw [(hland l hl).1]
  nofun

theorem Accounted.bridge (hs : Solvent st)
    (honly : st.Only sid fun u params => u = w ∧ params.noteB64 = note)
    (h : Accounted sid w (st.chain note = .spent) tr)
    (hreported : ∀ e ∈ r.2, ∀ x ∈ e.run, x.2.Reported) (hi : step st i = some r) :
    Accounted sid w (r.1.chain note = .spent) (tr ++ r.2.map (.bridge · i.writes.refunds)) := by
  have hquiet : (∀ e ∈ r.2, e.closed ≠ some sid) →
      Accounted sid w (r.1.chain note = .spent) (tr ++ r.2.map (.bridge · i.writes.refunds)) := by
    intro hall
    apply (h.weaken (onward_step hi).spent).quiet
    intro e he
    obtain ⟨e', he', rfl⟩ := List.mem_map.mp he
    exact hall e' he'
  rcases closing_step hi with hnone | ⟨pid, sid', charge, run, s, note', rest, hc, hland, hchain,
    hrest, heq⟩
  · exact hquiet fun e he => by simp [hnone e he]
  · by_cases hsid : sid' = sid
    · subst hsid
      obtain ⟨⟨hbuyer, hparams⟩, rfl⟩ := captured_only hs honly hc
      rw [hparams] at hland hchain
      have hrun : run.Reported :=
        hreported (.settleEnd pid sid' charge run) (by simp [heq]) (charge, run) rfl
      rw [heq, hchain, hbuyer, ← List.cons_append, List.map_append, ← List.append_assoc]
      have hspent : st.chain note = .spent → (st.land note run).chain note = .spent :=
        onward_land.spent
      apply (h.settled hrun (first_landing hland) hspent).quiet
      intro e he
      obtain ⟨e', he', rfl⟩ := List.mem_map.mp he
      simp [RefundEvent.about, hrest e' he']
    · exact hquiet fun e he => closed_other hsid hrest (heq ▸ he)

/-- A run in flight has captured its session. -/
theorem inFlight_captured {o : Orphan} (h : o ∈ st.inFlight) :
    ∃ s, st.captured o.sid = some (s, o.note) := by
  obtain ⟨pid, -, hrun⟩ := List.mem_filterMap.mp h
  obtain ⟨run, -, hmap⟩ := Option.bind_eq_some_iff.mp hrun
  obtain ⟨c, hc, rfl⟩ := Option.map_eq_some_iff.mp hmap
  exact ⟨c.1, hc⟩

end Step

section Steps

variable {st st' : RefundState} {sid : SessionId} {w : WalletId} {note : EscrowNote}
  {tr es : List RefundEvent} {i : Input} {r : State × List Event} {e : RefundEvent}

theorem solvent_refundStep (hs : Solvent st.bridge) (hstep : RefundSteps st st' es) :
    Solvent st'.bridge := by
  cases hstep with
  | bridge hi hone hopens => exact solvent_step hs hi
  | opened hi hopens hnew => exact solvent_step hs hi
  | restart => exact solvent_boot hs.saved
  | orphanEnds ho hland => exact hs.land

theorem mem_openedEvents {st : State} {sid' : SessionId} (h : e ∈ openedEvents st sid') :
    ∃ u, e = .opened sid' u := by
  obtain ⟨t, -, rfl⟩ := Option.map_eq_some_iff.mp (Option.mem_toList.mp h)
  exact ⟨t.buyerId, rfl⟩

theorem mem_absences (h : e ∈ st.absences) : ∃ sid' ∈ st.ids, e = .absent sid' := by
  obtain ⟨sid', hsid', rfl⟩ := List.mem_map.mp h
  exact ⟨sid', (List.mem_filter.mp hsid').1, rfl⟩

namespace Followed

theorem bridge (hs : Solvent st.bridge) (h : Followed sid w note st tr)
    (hreported : ∀ e ∈ r.2, ∀ x ∈ e.run, x.2.Reported) (hopens : i.act.opens ≠ some sid)
    (hi : step st.bridge i = some r) {ids : List SessionId} (hids : sid ∈ ids) :
    Followed sid w note { st with bridge := r.1, ids := ids }
      (tr ++ r.2.map (.bridge · i.writes.refunds)) := by
  refine ⟨hids, only_step h.only hopens hi, h.orphans, fun u hu => ?_,
    h.accounted.bridge hs h.only hreported hi⟩
  rcases List.mem_append.mp hu with hu | hu
  · exact h.opened u hu
  · obtain ⟨e, -, heq⟩ := List.mem_map.mp hu
    cases heq

theorem opened_append (h : Followed sid w note st tr) (hes : ∀ u, .opened sid u ∉ es) :
    ∀ u, .opened sid u ∈ tr ++ es → u = w := by
  intro u hu
  rcases List.mem_append.mp hu with hu | hu
  · exact h.opened u hu
  · exact absurd hu (hes u)

theorem step (hs : Solvent st.bridge) (h : Followed sid w note st tr)
    (hreported : ∀ e ∈ es, ∀ x ∈ e.run, x.2.Reported) (hstep : RefundSteps st st' es) :
    Followed sid w note st' (tr ++ es) := by
  cases hstep with
  | @bridge i r hi hone hopens =>
      apply h.bridge hs (fun e he x hx => ?_) (by simp [hopens]) hi h.known
      exact hreported (.bridge e i.writes.refunds) (List.mem_map.mpr ⟨e, he, rfl⟩) x hx
  | @opened i r sid' hi hopens hnew =>
      have hne : sid' ≠ sid := by
        rintro rfl
        exact hnew h.known
      have hbridge := h.bridge hs (fun e he x hx => ?_) (by simp [hopens, hne]) hi
        (List.mem_cons_of_mem sid' h.known)
      · rw [← List.append_assoc]
        refine ⟨hbridge.known, hbridge.only, hbridge.orphans, hbridge.opened_append ?_,
          hbridge.accounted.quiet ?_⟩
        · intro u hu
          obtain ⟨u', heq⟩ := mem_openedEvents hu
          exact hne (RefundEvent.opened.inj heq).1.symm
        · intro e he
          obtain ⟨u', rfl⟩ := mem_openedEvents he
          nofun
      · exact hreported (.bridge e i.writes.refunds)
          (List.mem_append_left _ (List.mem_map.mpr ⟨e, he, rfl⟩)) x hx
  | restart =>
      refine ⟨h.known, ⟨fun t ht => h.only.saved t (savedTerms_of_boot ht), h.only.saved⟩,
        ?_, h.opened_append ?_, h.accounted.absences _⟩
      · intro o ho hsid
        rcases List.mem_append.mp ho with ho | ho
        · exact h.orphans o ho hsid
        · obtain ⟨s, hc⟩ := inFlight_captured ho
          rw [hsid] at hc
          obtain ⟨⟨-, hparams⟩, hnote⟩ := captured_only hs h.only hc
          exact hnote.trans hparams
      · intro u hu
        obtain ⟨sid', -, heq⟩ := mem_absences hu
        cases heq
  | @orphanEnds k o run ho hland =>
      refine ⟨h.known, ?_, fun o' ho' => h.orphans o' (List.mem_of_mem_eraseIdx ho'),
        h.opened_append ?_, ?_⟩
      · exact h.only.keep Keeps.refl.land
      · intro u hu
        rcases List.mem_cons.mp hu with heq | hu
        · cases heq
        · obtain ⟨sid', -, heq⟩ := mem_absences hu
          cases heq
      · have hspent : st.bridge.chain note = .spent →
            (st.bridge.land o.note run).chain note = .spent := onward_land.spent
        rw [List.append_cons]
        apply Accounted.absences
        by_cases hsid : o.sid = sid
        · obtain rfl := h.orphans o (List.mem_of_getElem? ho) hsid
          rw [hsid]
          exact h.accounted.orphaned (first_landing hland) hspent
        · refine (h.accounted.weaken hspent).quiet fun e he => ?_
          rw [List.mem_singleton.mp he]
          exact fun heq => hsid (Option.some.inj heq)

end Followed

namespace Unborn

theorem bridge (hs : Solvent st.bridge) (h : Unborn sid st tr)
    (hopens : i.act.opens ≠ some sid) (hi : step st.bridge i = some r) {ids : List SessionId}
    (hids : sid ∉ ids) :
    Unborn sid { st with bridge := r.1, ids := ids }
      (tr ++ r.2.map (.bridge · i.writes.refunds)) := by
  refine ⟨hids, only_step h.only hopens hi, h.orphans, ?_, ?_⟩
  · intro e he
    rcases List.mem_append.mp he with he | he
    · exact h.quiet e he
    · obtain ⟨e', he', rfl⟩ := List.mem_map.mp he
      exact quiet_unborn hs h.only hi e' he'
  · intro u hu
    rcases List.mem_append.mp hu with hu | hu
    · exact h.unopened u hu
    · obtain ⟨e, -, heq⟩ := List.mem_map.mp hu
      cases heq

/-- The other sessions that are found missing, or whose runs end. -/
theorem append (h : Unborn sid st tr) (hquiet : ∀ e ∈ es, e.about ≠ some sid)
    (hopened : ∀ u, .opened sid u ∉ es) : Unborn sid st (tr ++ es) := by
  refine ⟨h.unknown, h.only, h.orphans, ?_, ?_⟩
  · intro e he
    rcases List.mem_append.mp he with he | he
    · exact h.quiet e he
    · exact hquiet e he
  · intro u hu
    rcases List.mem_append.mp hu with hu | hu
    · exact h.unopened u hu
    · exact hopened u hu

theorem absences (h : Unborn sid st tr) : Unborn sid st (tr ++ st.absences) := by
  refine h.append (fun e he => ?_) fun u hu => ?_
  · obtain ⟨sid', hsid', rfl⟩ := mem_absences he
    rintro ⟨rfl⟩
    exact h.unknown hsid'
  · obtain ⟨sid', -, heq⟩ := mem_absences hu
    cases heq

/-- The session opens. -/
theorem born (hs : Solvent st.bridge) (h : Unborn sid st tr) (hi : step st.bridge i = some r)
    (hopens : i.act.opens = some sid) : ∃ w note,
      Followed sid w note { st with bridge := r.1, ids := sid :: st.ids }
        (tr ++ (r.2.map (.bridge · i.writes.refunds) ++ openedEvents r.1 sid)) := by
  obtain ⟨w, note, honly⟩ : ∃ w note,
      r.1.Only sid fun u params => u = w ∧ params.noteB64 = note := by
    obtain ⟨act, wr⟩ := i
    cases steps_of_step hi with
    | @escrowBuilt pid buyerId tier sid' params hp hnew =>
        have hnone : st.bridge.Only sid fun u params' =>
            u = buyerId ∧ params'.noteB64 = params.noteB64 :=
          ⟨fun t ht => (h.only.memory t ht).elim, fun t ht => (h.only.saved t ht).elim⟩
        exact ⟨buyerId, params.noteB64, only_escrowBuilt hnone hnew fun _ => ⟨rfl, rfl⟩⟩
    | _ => cases hopens
  have hquiet : ∀ e ∈ tr ++ (r.2.map (.bridge · i.writes.refunds) ++ openedEvents r.1 sid),
      e.about ≠ some sid := by
    intro e he
    rcases List.mem_append.mp he with he | he
    · exact h.quiet e he
    · rcases List.mem_append.mp he with he | he
      · obtain ⟨e', he', rfl⟩ := List.mem_map.mp he
        exact quiet_unborn hs h.only hi e' he'
      · obtain ⟨u, rfl⟩ := mem_openedEvents he
        nofun
  refine ⟨w, note, List.mem_cons_self, honly, fun o ho hsid => absurd hsid (h.orphans o ho),
    fun u hu => ?_, accounted_nil.quiet hquiet⟩
  rcases List.mem_append.mp hu with hu | hu
  · exact absurd hu (h.unopened u)
  · rcases List.mem_append.mp hu with hu | hu
    · obtain ⟨e, -, heq⟩ := List.mem_map.mp hu
      cases heq
    · obtain ⟨t, ht, heq⟩ := Option.map_eq_some_iff.mp (Option.mem_toList.mp hu)
      rw [← (RefundEvent.opened.inj heq).2]
      exact (honly.memory t ht).1

theorem step (hs : Solvent st.bridge) (h : Unborn sid st tr) (hstep : RefundSteps st st' es) :
    Unborn sid st' (tr ++ es) ∨ ∃ w note, Followed sid w note st' (tr ++ es) := by
  cases hstep with
  | @bridge i r hi hone hopens => exact .inl (h.bridge hs (by simp [hopens]) hi h.unknown)
  | @opened i r sid' hi hopens hnew =>
      by_cases hsid : sid' = sid
      · subst hsid
        exact .inr (h.born hs hi hopens)
      · left
        have hids : sid ∉ sid' :: st.ids := by
          rw [List.mem_cons, not_or]
          exact ⟨fun heq => hsid heq.symm, h.unknown⟩
        rw [← List.append_assoc]
        refine (h.bridge hs (by simp [hopens, hsid]) hi hids).append (fun e he => ?_) fun u hu => ?_
        · obtain ⟨u, rfl⟩ := mem_openedEvents he
          nofun
        · obtain ⟨u', heq⟩ := mem_openedEvents hu
          exact hsid (RefundEvent.opened.inj heq).1.symm
  | restart =>
      left
      have hrestarted : Unborn sid st.restarted tr := by
        refine ⟨h.unknown, ⟨fun t ht => h.only.saved t (savedTerms_of_boot ht), h.only.saved⟩,
          fun o ho hsid => ?_, h.quiet, h.unopened⟩
        rcases List.mem_append.mp ho with ho | ho
        · exact h.orphans o ho hsid
        · obtain ⟨s, hc⟩ := inFlight_captured ho
          rw [hsid] at hc
          exact (captured_only hs h.only hc).1
      exact hrestarted.absences
  | @orphanEnds k o run ho hland =>
      left
      have hne : o.sid ≠ sid := h.orphans o (List.mem_of_getElem? ho)
      have hended : Unborn sid (st.orphanEnded k o run) tr :=
        ⟨h.unknown, h.only.keep Keeps.refl.land,
          fun o' ho' => h.orphans o' (List.mem_of_mem_eraseIdx ho'), h.quiet, h.unopened⟩
      rw [List.append_cons]
      refine (hended.append (fun e he => ?_) fun u hu => ?_).absences
      · rw [List.mem_singleton.mp he]
        exact fun heq => hne (Option.some.inj heq)
      · cases List.mem_singleton.mp hu

end Unborn

end Steps

/-! ## Runs -/

section Runs

variable {disk : Disk} {now : ℕ} {nextPid : Pid} {chain : EscrowNote → NoteStatus}
  {sid : SessionId} {st : RefundState} {tr : List RefundEvent} {w : WalletId}

/-- A first start, with no snapshot. -/
def RefundState.first (disk : Disk) (now : ℕ) (nextPid : Pid) (chain : EscrowNote → NoteStatus) :
    RefundState := ⟨boot disk now nextPid chain, [], []⟩

theorem unborn_first (hdisk : disk.sessions = none) :
    Unborn sid (.first disk now nextPid chain) [] := by
  refine ⟨List.not_mem_nil, ⟨fun t ht => ?_, fun t ht => ?_⟩, by simp [RefundState.first],
    by simp, by simp⟩
  · simp [RefundState.first, State.terms, boot, restoreSessions, hdisk, SlotMap.obj?, SlotMap.slot?,
      SlotMap.empty] at ht
  · simp [RefundState.first, State.savedTerms, boot, hdisk] at ht

/-- **A refund is forgotten exactly when the session goes after a run that was missed.**
From a first start, through any steps, restarts and failed writes, and whatever the
settlements do on chain and report: whenever a session leaves the map, each refund that
its own settlements created has been recorded for its buyer, if and only if no refund was
created by a run that the bridge missed before a run finds the escrow spent or the session
is not restored. -/
theorem refunds_kept_iff (faucet : AccountId) (explorer : String) (hdisk : disk.sessions = none)
    (h : Trace (lts refundStep AnyRefund) (.first disk now nextPid chain) tr st)
    (hruns : ∀ e ∈ tr, ∀ x ∈ e.run, ∃ note, x.2.Of faucet explorer note x.1)
    (hopened : .opened sid w ∈ tr) : RefundsKept sid w tr ↔ MissesNothing sid tr := by
  have hreported : ∀ e ∈ tr, ∀ x ∈ e.run, x.2.Reported := by
    intro e he x hx
    obtain ⟨note, hof⟩ := hruns e he x hx
    exact hof.reported
  have hrun : Trace (fun st es st' => RefundSteps st st' es ∧
      ∀ e ∈ es, ∀ x ∈ e.run, x.2.Reported) (.first disk now nextPid chain) tr st :=
    h.mono_mem fun _ _ _ ⟨_, _, hi⟩ hes =>
      ⟨refundSteps_of_refundStep hi, fun e he => hreported e (hes e he)⟩
  obtain ⟨-, hborn⟩ := hrun.invariant (I := fun st tr => Solvent st.bridge ∧
      (Unborn sid st tr ∨ ∃ w note, Followed sid w note st tr))
    ⟨solvent_boot (by simp [hdisk]), .inl (unborn_first hdisk)⟩ (by
      rintro st tr es st' ⟨hs, hborn⟩ ⟨hstep, hes⟩
      refine ⟨solvent_refundStep hs hstep, ?_⟩
      rcases hborn with hnone | ⟨w, note, hfollowed⟩
      · exact hnone.step hs hstep
      · exact .inr ⟨w, note, hfollowed.step hs hes hstep⟩)
  rcases hborn with hnone | ⟨w', note, hfollowed⟩
  · exact absurd hopened (hnone.unopened w)
  · obtain rfl := hfollowed.opened w hopened
    exact hfollowed.accounted.kept

end Runs

/-! The bridge is killed while it settles. The settlement that was in flight comes to
nothing, and the one of the next process lands and says so. -/

def onBridge (acts : List Action) : List RefundInput := (written acts).map .bridge

def demoFirst : RefundState := .first ⟨none, none, none⟩ 1 0 fun _ => .unfunded

theorem refunds_kept_demo : ∃ tr : List RefundEvent, .bridge (.evicted 0) true ∈ tr ∧
    landings 0 tr = [⟨50000, "refund"⟩] ∧ RefundsKept 0 "0xb0b" tr := by
  have h := trace_exec refundStep AnyRefund demoFirst (onBridge (openSession ++
      [.endSession 0, .restart, .endSession 0]) ++ .orphanEnds 0 spentRun ::
        onBridge [.endReturned 3 (landedRun 50000)]) (by decide) (by decide)
  refine ⟨_, by decide, by decide, (refunds_kept_iff demoNote.faucet "x" rfl h
    (fun e he x hx => ?_) (by decide)).mpr (by decide)⟩
  have hrun : x = (0, spentRun) ∨ x = (0, landedRun 50000) := by
    revert e x
    decide
  rcases hrun with rfl | rfl
  · exact ⟨_, spentRun_of⟩
  · exact ⟨_, landedRun_of⟩

/-! A run is killed after it submitted, and its settlement lands. The next one
finds the escrow spent, and the session goes without a record of its refund. -/

def forgottenRefund : List RefundInput :=
  onBridge (openSession ++ [.endSession 0, .endReturned 2 killedAfterLanding, .endSession 0,
    .endReturned 3 spentRun])

theorem refund_forgotten : ¬ ∀ (disk : Disk) (now : ℕ) (nextPid : Pid)
    (chain : EscrowNote → NoteStatus) (faucet : AccountId) (explorer : String)
    (tr : List RefundEvent) (st : RefundState) (sid : SessionId) (w : WalletId),
      disk.sessions = none →
        Trace (lts refundStep AnyRefund) (.first disk now nextPid chain) tr st →
          (∀ e ∈ tr, ∀ x ∈ e.run, ∃ note, x.2.Of faucet explorer note x.1) →
            .opened sid w ∈ tr → RefundsKept sid w tr := by
  intro h
  have htrace := trace_exec refundStep AnyRefund demoFirst forgottenRefund (by decide) (by decide)
  have hkept := h _ _ _ _ demoNote.faucet "x" _ _ 0 "0xb0b" rfl htrace (fun e he x hx => ?_)
    (by decide)
  · revert hkept
    decide
  · have hrun : x = (0, killedAfterLanding) ∨ x = (0, spentRun) := by
      revert e x
      decide
    rcases hrun with rfl | rfl
    · exact ⟨_, killedAfterLanding_of⟩
    · exact ⟨_, spentRun_of⟩

end Bartok.Bridge
