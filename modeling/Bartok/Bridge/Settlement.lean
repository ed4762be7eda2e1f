import Bartok.Bridge.Simulation

/-!
# One settlement at a time

`end` and the sweeper guard a session by two flags. `Exclusive` says what the
flags mean: a settlement in progress has set `settling` on a session that is
still in the map, and no second one is in progress. Everything about the order
of a session's settlements follows from it.
-/

namespace Bartok.Bridge

open Foundation Miden State

structure Exclusive (v : SessionView) : Prop where
  settled_eq : ∀ slot, v.slot = some slot → slot.val.settled = !slot.live
  held : ∀ pid h, v.holds pid = some h →
    ∃ slot, v.slot = some slot ∧ slot.live = true ∧ slot.val.settling = true
  unique : ∀ pid pid' h h', v.holds pid = some h → v.holds pid' = some h' → pid = pid'

/-- A flag that is set is held by a settlement in progress. -/
def Releasable (v : SessionView) : Prop :=
  ∀ slot, v.slot = some slot → slot.live = true → slot.val.settling = true →
    ∃ pid h, v.holds pid = some h

/-- A write that leaves both flags alone. -/
def KeepsFlags (f : Session → Session) : Prop :=
  ∀ s, (f s).settled = s.settled ∧ (f s).settling = s.settling

section Flags

variable {v v' : SessionView} {sid : SessionId} {safe : Bool} {es : List Event}
  {slot : Slot SessionId Session} {f : Session → Session} {pid : Pid} {h : Option Hold}

theorem keepsFlags_use {now : ℕ} (hf : f = arm now ∨ f = openHistory) : KeepsFlags f := by
  rcases hf with rfl | rfl <;> exact fun s => ⟨rfl, rfl⟩

theorem keepsFlags_charge {a : Answer} {now : ℕ} : KeepsFlags (pushCharge a now) :=
  fun _ => ⟨rfl, rfl⟩

theorem keepsFlags_turns {prompt : JsString} {a : Answer} : KeepsFlags (pushTurns prompt a) :=
  fun _ => ⟨rfl, rfl⟩

theorem slot_put (hslot : (v.put f).slot = some slot) :
    ∃ s, v.slot = some s ∧ slot = { s with val := f s.val } := by
  obtain ⟨s, hs, rfl⟩ := Option.map_eq_some_iff.mp hslot
  exact ⟨s, hs, rfl⟩

theorem put_slot (hslot : v.slot = some slot) :
    (v.put f).slot = some { slot with val := f slot.val } := by
  simp [SessionView.put, hslot]

@[simp] theorem slot_land {note : EscrowNote} {run : SettleRun} :
    (v.land note run).slot = v.slot := by
  unfold SessionView.land
  split <;> rfl

@[simp] theorem holds_land {note : EscrowNote} {run : SettleRun} :
    (v.land note run).holds = v.holds := by
  unfold SessionView.land
  split <;> rfl

theorem slot_close (hslot : v.slot = some slot) {note : EscrowNote} {run : SettleRun} :
    ((((v.land note run).put markSettled).delete.put f).hold pid h).slot =
      some ⟨slot.key, f (markSettled slot.val), false⟩ := by
  simp [SessionView.hold, SessionView.put, SessionView.delete, hslot]

theorem Exclusive.land (hv : Exclusive v) {note : EscrowNote} {run : SettleRun} :
    Exclusive (v.land note run) := by
  constructor
  · simpa using hv.settled_eq
  · simpa using hv.held
  · simpa using hv.unique

theorem Exclusive.put (hv : Exclusive v) (hf : KeepsFlags f) : Exclusive (v.put f) := by
  constructor
  · intro slot hslot
    obtain ⟨s, hs, rfl⟩ := slot_put hslot
    exact (hf s.val).1.trans (hv.settled_eq s hs)
  · intro pid h hh
    obtain ⟨s, hs, hlive, hset⟩ := hv.held pid h hh
    exact ⟨_, put_slot hs, hlive, (hf s.val).2.trans hset⟩
  · exact hv.unique

theorem Releasable.put (hv : Releasable v) (hf : KeepsFlags f) : Releasable (v.put f) := by
  intro slot hslot hlive hset
  obtain ⟨s, hs, rfl⟩ := slot_put hslot
  exact hv s hs hlive ((hf s.val).2.symm.trans hset)

/-- While a settlement is in progress, what holds the session is it alone. -/
theorem Exclusive.holds_none (hv : Exclusive v) {h₀ : Hold} (hpid : v.holds pid = some h₀)
    (pid' : Pid) : (v.hold pid none).holds pid' = none := by
  by_cases hp : pid' = pid
  · simp [SessionView.hold, hp]
  · cases hh : v.holds pid' with
    | none => simpa [SessionView.hold, hp] using hh
    | some h => exact absurd (hv.unique _ _ _ _ hh hpid) hp

/-- Nothing holds a session whose flag is clear. -/
theorem Exclusive.free (hv : Exclusive v) (hslot : v.slot = some slot)
    (hfree : slot.val.settling = false) (pid : Pid) : v.holds pid = none := by
  cases hh : v.holds pid with
  | none => rfl
  | some h =>
      obtain ⟨s, hs, -, hset⟩ := hv.held pid h hh
      rw [hslot] at hs
      rw [Option.some.inj hs, hset] at hfree
      cases hfree

/-- A session that nothing holds. -/
theorem Exclusive.ofFree (hsettled : ∀ slot, v.slot = some slot → slot.val.settled = !slot.live)
    (hnone : ∀ pid, v.holds pid = none) : Exclusive v := by
  refine ⟨hsettled, fun pid h hh => ?_, fun pid _ h _ hh => ?_⟩ <;>
  · rw [hnone pid] at hh
    cases hh

theorem Exclusive.rehold (hv : Exclusive v) {h₀ h : Hold} (hpid : v.holds pid = some h₀) :
    Exclusive (v.hold pid (some h)) := by
  have hback : ∀ q h', (v.hold pid (some h)).holds q = some h' → ∃ h₁, v.holds q = some h₁ := by
    intro q h' hq
    by_cases hqp : q = pid
    · exact ⟨h₀, hqp ▸ hpid⟩
    · exact ⟨h', by simpa [SessionView.hold, hqp] using hq⟩
  refine ⟨hv.settled_eq, fun q h' hq => ?_, fun q q' h₁ h₂ hq hq' => ?_⟩
  · obtain ⟨h₁, hh₁⟩ := hback q h' hq
    exact hv.held q h₁ hh₁
  · obtain ⟨_, hh⟩ := hback q h₁ hq
    obtain ⟨_, hh'⟩ := hback q' h₂ hq'
    exact hv.unique q q' _ _ hh hh'

/-- Taking a free session: the new settlement is the only one. -/
theorem Exclusive.take (hv : Exclusive v) (hslot : v.slot = some slot) (hlive : slot.live = true)
    (hfree : slot.val.settling = false) (hsettled : ∀ s, (f s).settled = s.settled)
    (hsettling : ∀ s, (f s).settling = true) {h : Hold} :
    Exclusive ((v.put f).hold pid (some h)) := by
  have honly : ∀ q h', ((v.put f).hold pid (some h)).holds q = some h' → q = pid := by
    intro q h' hq
    by_contra hqp
    -- with the flag clear there was no holder to keep
    have hnone := hv.free hslot hfree q
    simp [SessionView.hold, SessionView.put, hqp, hnone] at hq
  refine ⟨fun s hs => ?_, fun q h' _ => ?_, fun q q' _ _ hq hq' => ?_⟩
  · obtain ⟨s₀, hs₀, rfl⟩ := slot_put hs
    exact (hsettled s₀.val).trans (hv.settled_eq s₀ hs₀)
  · exact ⟨_, put_slot hslot, hlive, hsettling slot.val⟩
  · exact (honly _ _ hq).trans (honly _ _ hq').symm

theorem SessionStep.exclusive (hstep : SessionStep sid safe v es v') (hv : Exclusive v) :
    Exclusive v' := by
  cases hstep with
  | world hnow hchain => exact ⟨hv.settled_eq, hv.held, hv.unique⟩
  | create buyerId tier budget params hslot =>
      refine ⟨fun slot hs => ?_, fun pid h hh => ?_, hv.unique⟩
      · cases hs
        rfl
      · obtain ⟨s, hs, -⟩ := hv.held pid h hh
        rw [hslot] at hs
        cases hs
  | use hf => exact hv.put (keepsFlags_use hf)
  | reply pid hslot hopen => exact (hv.put keepsFlags_charge).put keepsFlags_turns
  | lost hslot hopen hsafe => exact (hv.put keepsFlags_charge).put keepsFlags_turns
  | start pid hslot hlive hopen hfree hnote hf =>
      refine hv.take hslot hlive hfree ?_ ?_ <;>
        rcases hf with rfl | rfl <;> exact fun _ => rfl
  | wait pid hslot hnote hhold hland hrun => exact hv.land.rehold (by rw [holds_land]; exact hhold)
  | retry pid hslot hnote hhold => exact hv.rehold hhold
  -- the handler that returns was the only holder
  | @giveUp _ slot charge note run f pid hslot hnote hhold hland hrun hf =>
      refine .ofFree (fun s hs => ?_) fun q => ?_
      · obtain ⟨s₀, hs₀, rfl⟩ := slot_put hs
        rw [slot_land] at hs₀
        rcases hf with rfl | ⟨rfl, -⟩ <;> exact hv.settled_eq s₀ hs₀
      · have := hv.holds_none hhold q
        simpa [SessionView.hold, SessionView.put] using this
  | close pid hslot hnote hhold hland hrun hf =>
      refine .ofFree (fun s hs => ?_) fun q => ?_
      · rw [slot_close hslot] at hs
        cases hs
        rcases hf with rfl | rfl <;> rfl
      · have := hv.holds_none hhold q
        simpa [SessionView.hold, SessionView.put, SessionView.delete] using this

theorem SessionStep.releasable (hstep : SessionStep sid safe v es v') (hr : Releasable v) :
    Releasable v' := by
  cases hstep with
  | world hnow hchain => exact hr
  | create buyerId tier budget params hslot =>
      intro slot hs _ hset
      cases hs
      cases hset
  | use hf => exact hr.put (keepsFlags_use hf)
  | reply pid hslot hopen => exact (hr.put keepsFlags_charge).put keepsFlags_turns
  | lost hslot hopen hsafe => exact (hr.put keepsFlags_charge).put keepsFlags_turns
  | start pid hslot hlive hopen hfree hnote hf =>
      exact fun _ _ _ _ => ⟨pid, _, Function.update_self _ _ _⟩
  | wait pid hslot hnote hhold hland hrun =>
      exact fun _ _ _ _ => ⟨pid, _, Function.update_self _ _ _⟩
  | retry pid hslot hnote hhold => exact fun _ _ _ _ => ⟨pid, _, Function.update_self _ _ _⟩
  | giveUp pid hslot hnote hhold hland hrun hf =>
      intro s hs hlive hset
      obtain ⟨s₀, hs₀, rfl⟩ := slot_put hs
      rw [slot_land, hslot] at hs₀
      -- only an evicted session keeps its flag: `releaseCurrent` does not find it
      rcases hf with rfl | ⟨rfl, hdead⟩
      · cases hset
      · rw [← Option.some.inj hs₀, hdead] at hlive
        cases hlive
  | close pid hslot hnote hhold hland hrun hf =>
      intro s hs hlive
      rw [slot_close hslot] at hs
      cases hs
      cases hlive

end Flags

/-! ## The order of a session's events -/

/-- A `settle_session` run that succeeded or reported the escrow spent. -/
def SettleRun.ends (run : SettleRun) : Bool :=
  match run.verdict with
  | .settled _ | .spent => true
  | _ => false

/-- A run on `sid` ends the session's settlements. -/
def Event.endsSettling (sid : SessionId) : Event → Bool
  | .settleEnd _ s _ run => s = sid && run.ends
  | _ => false

def Event.startsSettling (sid : SessionId) : Event → Bool
  | .settleStart _ s _ _ => s = sid
  | _ => false

def Event.recordsRefund (sid : SessionId) : Event → Bool
  | .refundRecorded s _ _ => s = sid
  | _ => false

/-- A successful answer to a chat on `sid`. -/
def Event.replies (sid : SessionId) : Event → Bool
  | .done _ (.reply s _ _ _) => s = sid
  | _ => false

/-- Which events may follow which, for one session. -/
def MayFollow (sid : SessionId) (e e' : Event) : Prop :=
  (e.endsSettling sid = true → e'.startsSettling sid = false ∧ e'.replies sid = false) ∧
    ¬ (e.recordsRefund sid = true ∧ e'.recordsRefund sid = true)

/-- What a session remembers of its last settlement. -/
def Over (sid : SessionId) (e : Event) (v : SessionView) : Prop :=
  e.endsSettling sid = true ∨ e.recordsRefund sid = true →
    ∃ slot, v.slot = some slot ∧ slot.live = false

section Order

variable {v v' : SessionView} {sid : SessionId} {safe : Bool} {es closing : List Event}
  {buyerId : WalletId} {run : SettleRun}

theorem not_ends_of_givesUp (h : givesUp true run.verdict = true) : run.ends = false := by
  unfold SettleRun.ends
  split
  · next hv => simp [hv, givesUp] at h
  · next hv => simp [hv, givesUp] at h
  · rfl

theorem not_ends_of_wedged (h : run.verdict = .wedged) : run.ends = false := by
  simp [SettleRun.ends, h]

/-- What closes a session is at most one refund and its eviction. -/
theorem closing_cases (h : closingEvents sid buyerId run.verdict = some closing) :
    closing = [.evicted sid] ∨
      ∃ file, closing = [.refundRecorded sid buyerId file, .evicted sid] := by
  cases hv : run.verdict with
  | settled json =>
      simp only [hv, closingEvents, Option.some.injEq] at h
      cases hfile : json.refundNoteFileB64 with
      | none => exact .inl (by rw [← h, hfile]; rfl)
      | some file => exact .inr ⟨file, by rw [← h, hfile]; rfl⟩
  | spent =>
      simp only [hv, closingEvents, Option.some.injEq] at h
      exact .inl h.symm
  | wedged => simp [hv, closingEvents] at h
  | failed => simp [hv, closingEvents] at h

theorem SessionStep.dead (hstep : SessionStep sid safe v es v')
    (hdead : ∃ slot, v.slot = some slot ∧ slot.live = false) :
    ∃ slot, v'.slot = some slot ∧ slot.live = false := by
  obtain ⟨slot, hslot, hlive⟩ := hdead
  cases hstep with
  | world hnow hchain => exact ⟨slot, hslot, hlive⟩
  | create buyerId tier budget params hnone =>
      rw [hslot] at hnone
      cases hnone
  | use hf => exact ⟨_, put_slot hslot, hlive⟩
  | reply pid _ hopen => exact ⟨_, put_slot (put_slot hslot), hlive⟩
  | lost _ hopen hsafe => exact ⟨_, put_slot (put_slot hslot), hlive⟩
  | start pid _ hlive' hopen hfree hnote hf => exact ⟨_, put_slot hslot, hlive⟩
  | wait pid _ hnote hhold hland hrun => exact ⟨slot, slot_land.trans hslot, hlive⟩
  | retry pid _ hnote hhold => exact ⟨slot, hslot, hlive⟩
  | giveUp pid _ hnote hhold hland hrun hf =>
      exact ⟨_, put_slot (slot_land.trans hslot), hlive⟩
  | close pid _ hnote hhold hland hrun hf => exact ⟨_, slot_close hslot, rfl⟩

theorem SessionStep.over (hstep : SessionStep sid true v es v') : ∀ e ∈ es, Over sid e v' := by
  cases hstep with
  | giveUp pid hslot hnote hhold hland hrun hf =>
      intro e he hends
      rw [List.mem_singleton.mp he] at hends
      simp [Event.endsSettling, Event.recordsRefund, not_ends_of_givesUp hrun] at hends
  | wait pid hslot hnote hhold hland hrun =>
      intro e he hends
      rw [List.mem_singleton.mp he] at hends
      simp [Event.endsSettling, Event.recordsRefund, not_ends_of_wedged hrun] at hends
  | close pid hslot hnote hhold hland hrun hf => exact fun e _ _ => ⟨_, slot_close hslot, rfl⟩
  | _ => simp [Over, Event.endsSettling, Event.recordsRefund]

/-- After the end nothing is left to happen but lost answers. -/
theorem SessionStep.mayFollow (hv : Exclusive v) (hstep : SessionStep sid safe v es v') {e : Event}
    (hover : Over sid e v) : ∀ e' ∈ es, MayFollow sid e e' := by
  by_cases hends : e.endsSettling sid = true ∨ e.recordsRefund sid = true
  · obtain ⟨slot, hslot, hdead⟩ := hover hends
    have hholds : ∀ pid h, v.holds pid ≠ some h := by
      intro pid h hh
      obtain ⟨s, hs, hlive, -⟩ := hv.held pid h hh
      rw [hslot] at hs
      rw [← Option.some.inj hs, hdead] at hlive
      cases hlive
    -- nor can a request or a sweep find it in the map
    have hsettled : ∀ s, v.slot = some s → s.live ≠ true ∧ s.val.settled ≠ false := by
      intro s hs
      rw [hslot] at hs
      rw [← Option.some.inj hs, hv.settled_eq slot hslot, hdead]
      simp
    cases hstep with
    | reply pid hs hopen => exact absurd hopen (hsettled _ hs).2
    | start pid hs hlive hopen hfree hnote hf => exact absurd hlive (hsettled _ hs).1
    | wait pid hs hnote hhold hland hrun => exact absurd hhold (hholds _ _)
    | retry pid hs hnote hhold => exact absurd hhold (hholds _ _)
    | giveUp pid hs hnote hhold hland hrun hf => exact absurd hhold (hholds _ _)
    | close pid hs hnote hhold hland hrun hf => exact absurd hhold (hholds _ _)
    | _ => simp
  · obtain ⟨hsettle, hrefund⟩ := not_or.mp hends
    exact fun e' _ => ⟨fun h => absurd h hsettle, fun h => hrefund h.1⟩

theorem SessionStep.pairwise (hstep : SessionStep sid safe v es v') :
    es.Pairwise (MayFollow sid) := by
  cases hstep with
  | close pid hslot hnote hhold hland hrun hf =>
      rcases closing_cases hrun with rfl | ⟨file, rfl⟩ <;>
        simp [MayFollow, Event.startsSettling, Event.replies, Event.recordsRefund]
  | _ => simp

theorem SessionStep.order {tr : List Event} (hv : Exclusive v)
    (h : Trace (SessionStep sid true) v tr v') : tr.Pairwise (MayFollow sid) := by
  have hrun := h.restrict hv fun _ _ _ hv hstep => hstep.exclusive hv
  exact (hrun.pairwise (S := Over sid) (fun _ _ _ h => h.2.over)
    (fun _ _ _ _ h hover hends => h.2.dead (hover hends))
    (fun _ _ _ _ h hover => h.2.mayFollow h.1 hover) fun _ _ _ h => h.2.pairwise).1

end Order

/-! ## Runs of one process -/

/-- A `settle_session` run on `sid` is in flight. -/
def Proc.runsSettle (sid : SessionId) : Proc → Bool
  | .endSettle s _ _ => s = sid
  | .sweepSettle s _ _ => s = sid
  | _ => false

/-- A settlement of `sid` is in progress: a run or a back-off. -/
def Proc.settles (sid : SessionId) : Proc → Bool
  | .endSettle s _ _ => s = sid
  | .endBackoff s _ _ => s = sid
  | .sweepSettle s _ _ => s = sid
  | _ => false

def State.RunsSettle (st : State) (sid : SessionId) (pid : Pid) : Prop :=
  ∃ p, st.procs pid = some p ∧ p.runsSettle sid = true

def State.Settles (st : State) (sid : SessionId) (pid : Pid) : Prop :=
  ∃ p, st.procs pid = some p ∧ p.settles sid = true

instance (st : State) (sid : SessionId) (pid : Pid) : Decidable (st.Settles sid pid) :=
  decidable_of_iff ((st.procs pid).any (Proc.settles sid) = true) (by
    cases hp : st.procs pid <;> simp [State.Settles, hp])

/-- The session was restored at boot with its flag set. -/
def RestoredSettling (disk : Disk) (sid : SessionId) : Prop :=
  ∃ s, (restoreSessions disk).get? sid = some s ∧ s.settling = true

section Runs

variable {disk : Disk} {now : ℕ} {nextPid pid : Pid} {chain : EscrowNote → NoteStatus}
  {sid : SessionId} {st : State} {tr : List Event}

theorem settles_iff_holds : st.Settles sid pid ↔ ∃ h, (st.view sid).holds pid = some h := by
  simp only [State.Settles, State.view, Option.bind_eq_some_iff]
  constructor
  · rintro ⟨p, hp, hs⟩
    cases p <;> simp_all [Proc.settles, Proc.hold]
  · rintro ⟨h, p, hp, hs⟩
    refine ⟨p, hp, ?_⟩
    cases p <;> simp_all [Proc.settles, Proc.hold]

theorem State.RunsSettle.settles (h : st.RunsSettle sid pid) : st.Settles sid pid := by
  obtain ⟨p, hp, hs⟩ := h
  refine ⟨p, hp, ?_⟩
  cases p <;> simp_all [Proc.settles, Proc.runsSettle]

theorem boot_slot {slot : Slot SessionId Session}
    (h : ((boot disk now nextPid chain).view sid).slot = some slot) :
    slot.live = true ∧ slot.val.settled = false := by
  simp only [State.view, boot, restoreSessions] at h
  split at h
  · simp [SlotMap.slot?, SlotMap.empty] at h
  · rw [SlotMap.slot?_filterSlots, Option.filter_eq_some_iff] at h
    simpa using h.2

theorem boot_exclusive : Exclusive ((boot disk now nextPid chain).view sid) := by
  refine .ofFree (fun slot hslot => ?_) fun pid => rfl
  obtain ⟨hlive, hopen⟩ := boot_slot hslot
  rw [hlive, hopen]
  rfl

theorem boot_releasable (h : ¬ RestoredSettling disk sid) :
    Releasable ((boot disk now nextPid chain).view sid) := by
  intro slot hslot hlive hset
  exact absurd ⟨slot.val, SlotMap.get?_eq_some.mpr ⟨slot, hslot, hlive, rfl⟩, hset⟩ h

theorem trace_exclusive {ok : State → Input → Prop} (hone : ∀ st i, ok st i → OneProcess st i)
    (h : Trace (lts step ok) (boot disk now nextPid chain) tr st) : Exclusive (st.view sid) := by
  obtain ⟨-, hrun⟩ := trace_sees false sid hone (by simp)
    (fresh_boot disk now nextPid chain) h
  exact hrun.stateInvariant boot_exclusive fun _ _ _ hv hstep => hstep.exclusive hv

theorem endsSettling_about {e : Event} (h : e.endsSettling sid = true) :
    e.about sid = true := by
  cases e <;> simp_all [Event.endsSettling]

theorem startsSettling_about {e : Event} (h : e.startsSettling sid = true) :
    e.about sid = true := by
  cases e <;> simp_all [Event.startsSettling]

theorem recordsRefund_about {e : Event} (h : e.recordsRefund sid = true) :
    e.about sid = true := by
  cases e <;> simp_all [Event.recordsRefund]

theorem replies_about {e : Event} (h : e.replies sid = true) : e.about sid = true := by
  unfold Event.replies at h
  split at h
  · simpa using h
  · cases h

/-- The events of a run are ordered, whatever happens to other sessions in
between. -/
theorem trace_order (sid : SessionId)
    (h : Trace (lts step AllWritten) (boot disk now nextPid chain) tr st) :
    (tr.filter (Event.about sid)).Pairwise (MayFollow sid) := by
  obtain ⟨-, hrun⟩ := trace_sees true sid (fun _ _ h => h.1) (fun _ _ h _ => h.2)
    (fresh_boot disk now nextPid chain) h
  exact SessionStep.order boot_exclusive hrun

theorem trace_settling (h : Trace (lts step AllWritten) (boot disk now nextPid chain) tr st)
    {s : Session} (hs : st.sessions.obj? sid = some s) (hopen : s.settled = false)
    (hset : s.settling = true) : (∃ pid, st.Settles sid pid) ∨ RestoredSettling disk sid := by
  by_cases hr : RestoredSettling disk sid
  · exact .inr hr
  · obtain ⟨-, hrun⟩ := trace_sees true sid (fun _ _ h => h.1) (fun _ _ h _ => h.2)
      (fresh_boot disk now nextPid chain) h
    have hrel := hrun.stateInvariant (boot_releasable hr) fun _ _ _ hv hstep => hstep.releasable hv
    obtain ⟨slot, hslot, rfl⟩ := obj?_eq_some hs
    have hlive : slot.live = true := by
      have := (trace_exclusive (fun _ _ h => h.1) h).settled_eq slot hslot
      simpa [hopen] using this.symm
    obtain ⟨pid, hh⟩ := hrel slot hslot hlive hset
    exact .inl ⟨pid, settles_iff_holds.mpr hh⟩

/-- **One settlement at a time, none after the end.** In every run of a process
with all writes succeeding, at most one `settle_session` run of a session is in
flight, none starts after one succeeded or found the escrow spent, at most one
refund is recorded, and the flag of an unsettled session is set only while a
settlement is in progress or because the process was started with it set. -/
theorem one_settlement_at_a_time
    (h : Trace (lts step AllWritten) (boot disk now nextPid chain) tr st) :
    (∀ pid pid', st.RunsSettle sid pid → st.RunsSettle sid pid' → pid = pid') ∧
      tr.Pairwise (fun e e' => e.endsSettling sid = true → e'.startsSettling sid = false) ∧
      tr.countP (Event.recordsRefund sid) ≤ 1 ∧
      ∀ s, st.sessions.obj? sid = some s → s.settled = false →
        (∀ pid, ¬ st.Settles sid pid) → ¬ RestoredSettling disk sid → s.settling = false := by
  refine ⟨fun pid pid' hp hp' => ?_, ?_, ?_, fun s hs hopen hnone hboot => ?_⟩
  · obtain ⟨_, hh⟩ := settles_iff_holds.mp hp.settles
    obtain ⟨_, hh'⟩ := settles_iff_holds.mp hp'.settles
    exact (trace_exclusive (fun _ _ h => h.1) h).unique pid pid' _ _ hh hh'
  · refine (List.pairwise_filter.mp (trace_order sid h)).imp fun {e e'} he hends => ?_
    by_contra hstarts
    rw [Bool.not_eq_false] at hstarts
    have := (he (endsSettling_about hends) (startsSettling_about hstarts)).1 hends
    simp [hstarts] at this
  -- two refunds would have to be in an order that `MayFollow` excludes
  · have hone := countP_le_one_of_pairwise (p := Event.recordsRefund sid)
      (fun e e' he he' hf => hf.2 ⟨he, he'⟩) (trace_order sid h)
    rw [List.countP_filter] at hone
    refine le_trans (le_of_eq (List.countP_congr fun e _ => ?_)) hone
    simpa using recordsRefund_about
  · by_contra hset
    rw [Bool.not_eq_false] at hset
    rcases trace_settling h hs hopen hset with ⟨pid, hp⟩ | hr
    · exact hnone pid hp
    · exact hboot hr

end Runs

/-! A session that is opened, ended and settled, and ended once more. -/

def demoNote : EscrowNote := ⟨fun _ => 0, [], ⟨0, 0⟩, 50000, .privateNote⟩

def demoParams : EscrowParams := ⟨fun _ => 1, fun _ => 2, demoNote⟩

/-- A process on an empty disk. -/
def demoBoot : State := boot ⟨none, none, none⟩ 1 0 fun _ => .unfunded

/-- Session 0 is started, funded and armed. -/
def openSession : List Action :=
  [.start ⟨"0xb0b", "basic", .finite 60000 0⟩, .escrowBuilt 0 0 (some demoParams),
    .fundNote demoNote, .escrow 0, .escrowVerified 1 true]

/-- A run that landed and said so. -/
def landedRun (refund : ℕ) : SettleRun :=
  ⟨some 0, some ⟨refund, "p", some "refund", none, "x"⟩, false, false, some ⟨refund, "refund"⟩⟩

/-- All the writes of these actions succeed. -/
def written (acts : List Action) : List Input := acts.map fun act => ⟨act, .ok⟩

theorem one_settlement_at_a_time_demo : ∃ (tr : List Event) (st : State),
    tr.countP (Event.endsSettling 0) = 1 ∧
      (∀ pid pid', st.RunsSettle 0 pid → st.RunsSettle 0 pid' → pid = pid') ∧
      tr.Pairwise (fun e e' => e.endsSettling 0 = true → e'.startsSettling 0 = false) ∧
      tr.countP (Event.recordsRefund 0) ≤ 1 ∧
      ∀ s, st.sessions.obj? 0 = some s → s.settled = false →
        (∀ pid, ¬ st.Settles 0 pid) → ¬ RestoredSettling ⟨none, none, none⟩ 0 →
          s.settling = false :=
  have h := trace_exec step AllWritten demoBoot (written (openSession ++
    [.endSession 0, .endReturned 2 (landedRun 50000), .endSession 0])) (by decide) (by decide)
  ⟨_, _, by decide, one_settlement_at_a_time h⟩

end Bartok.Bridge
