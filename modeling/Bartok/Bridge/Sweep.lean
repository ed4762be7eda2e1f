import Bartok.Bridge.Settlement

/-!
# What the sweeper reaches

A sweep walks the live map and waits for each settlement it starts, so many
things happen between its first look and its last. A session that is due when
the sweep starts stays due until somebody settles or uses it, and the iterator
cannot pass it meanwhile. A session that is not due is passed over.
-/

namespace Bartok.Bridge

open Foundation Miden State

/-- `end` and the sweeper would take the session, once it is idle. -/
structure Armed (slot : Slot SessionId Session) : Prop where
  live : slot.live = true
  opened : slot.val.settled = false
  free : slot.val.settling = false
  note : slot.val.escrowNoteB64.isSome = true

/-- The sweeper would settle the session at the time `T`. -/
def Due (T : ℕ) (v : SessionView) : Prop :=
  T ≤ v.now ∧ ∃ slot, v.slot = some slot ∧ Armed slot ∧ slot.val.lastSeen + sweepIdleMs ≤ T

/-- The session has been used at the time `T` or later. -/
def Used (T : ℕ) (v : SessionView) : Prop :=
  T ≤ v.now ∧ ∃ slot, v.slot = some slot ∧ T ≤ slot.val.lastSeen

theorem sweepable_iff {now : ℕ} {s : Session} :
    sweepable now s = true ↔ s.settled = false ∧ s.settling = false ∧
      s.escrowNoteB64.isSome = true ∧ s.lastSeen + sweepIdleMs ≤ now := by
  simp only [sweepable, Bool.and_eq_true, Bool.not_eq_true', Bool.or_eq_false_iff,
    decide_eq_false_iff_not, Nat.not_lt, Option.isNone_eq_false_iff]
  tauto

theorem Armed.sweepable {slot : Slot SessionId Session} {now : ℕ} (h : Armed slot)
    (hidle : slot.val.lastSeen + sweepIdleMs ≤ now) : sweepable now slot.val = true :=
  sweepable_iff.mpr ⟨h.opened, h.free, h.note, hidle⟩

section Session

variable {v v' : SessionView} {sid : SessionId} {safe : Bool} {es tr : List Event} {T now : ℕ}
  {f : Session → Session} {s : Session}

theorem Due.pos (h : Due T v) : 0 < T := by
  obtain ⟨-, slot, -, -, hidle⟩ := h
  have hpos : 0 < sweepIdleMs := by decide
  omega

/-- A write that stamps the session with the current time. -/
theorem lastSeen_stamp (hs : s.lastActivity = now) (hpos : 0 < now) : s.lastSeen = now := by
  rw [Session.lastSeen, if_neg (by omega), hs]

theorem Used.put (h : Used T v) (hf : ∀ s, T ≤ s.lastSeen → T ≤ (f s).lastSeen) :
    Used T (v.put f) := by
  obtain ⟨hle, slot, hslot, hseen⟩ := h
  exact ⟨hle, _, put_slot hslot, hf _ hseen⟩

theorem Used.stamp {slot : Slot SessionId Session} (hle : T ≤ v.now) (hpos : 0 < T)
    (hslot : v.slot = some slot) (hf : ∀ s, (f s).lastActivity = v.now) : Used T (v.put f) := by
  refine ⟨hle, _, put_slot hslot, ?_⟩
  rw [lastSeen_stamp (hf _) (hpos.trans_le hle)]
  exact hle

theorem SessionStep.used (hstep : SessionStep sid safe v es v') (hpos : 0 < T) (h : Used T v) :
    Used T v' := by
  have hturns : ∀ prompt a s, T ≤ s.lastSeen → T ≤ (pushTurns prompt a s).lastSeen :=
    fun _ _ _ h => h
  have hland : ∀ note run, Used T (v.land note run) := by
    intro note run
    unfold SessionView.land
    split <;> exact h
  obtain ⟨hle, slot₀, hslot₀, -⟩ := id h
  cases hstep with
  | world hnow hchain =>
      obtain ⟨-, hslot⟩ := h
      exact ⟨hle.trans hnow, hslot⟩
  | create buyerId tier budget params hslot =>
      rw [hslot₀] at hslot
      cases hslot
  | use hf =>
      rcases hf with rfl | rfl
      · exact .stamp hle hpos hslot₀ fun _ => rfl
      · exact h.put fun _ hs => hs
  | reply pid hslot hopen => exact (Used.stamp hle hpos hslot fun _ => rfl).put (hturns _ _)
  | lost hslot hopen hsafe => exact (Used.stamp hle hpos hslot fun _ => rfl).put (hturns _ _)
  | start pid hslot hlive hopen hfree hnote hf =>
      rcases hf with rfl | rfl
      · exact Used.stamp hle hpos hslot fun _ => rfl
      · exact h.put (f := markSettling) fun _ hs => hs
  | wait pid hslot hnote hhold hl hrun => exact hland _ _
  | retry pid hslot hnote hhold => exact h
  | giveUp pid hslot hnote hhold hl hrun hf =>
      rcases hf with rfl | ⟨rfl, -⟩ <;> exact (hland _ _).put fun _ hs => hs
  | close pid hslot hnote hhold hl hrun hf =>
      obtain ⟨hle', s, hs, hseen⟩ := hland _ _
      refine ⟨hle', _, slot_close (slot_land.symm.trans hs), ?_⟩
      rcases hf with rfl | rfl <;> exact hseen

/-- A session that nobody settles stays armed, and is stamped when it is used,
until a settlement starts. -/
theorem SessionStep.armed {slot : Slot SessionId Session} (hstep : SessionStep sid safe v es v')
    (hv : Exclusive v) (hslot : v.slot = some slot) (h : Armed slot) :
    (∃ e ∈ es, e.startsSettling sid = true) ∨
      v.now ≤ v'.now ∧ ∃ slot', v'.slot = some slot' ∧ Armed slot' ∧
        (slot'.val.lastSeen = slot.val.lastSeen ∨ slot'.val.lastActivity = v.now) := by
  have hholds : ∀ pid h, v.holds pid ≠ some h := by
    intro pid hold hh
    rw [hv.free hslot h.free pid] at hh
    cases hh
  have hcharged : ∀ prompt a, ∃ slot', ((v.put (pushCharge a v.now)).put (pushTurns prompt a)).slot =
      some slot' ∧ Armed slot' ∧
        (slot'.val.lastSeen = slot.val.lastSeen ∨ slot'.val.lastActivity = v.now) :=
    fun _ _ => ⟨_, put_slot (put_slot hslot), ⟨h.live, h.opened, h.free, h.note⟩, .inr rfl⟩
  -- with nothing holding the session, no handler of a settlement returns
  cases hstep with
  | world hnow hchain => exact .inr ⟨hnow, slot, hslot, h, .inl rfl⟩
  | create buyerId tier budget params hnone =>
      rw [hslot] at hnone
      cases hnone
  | use hf =>
      refine .inr ⟨le_rfl, _, put_slot hslot, ?_⟩
      rcases hf with rfl | rfl
      · exact ⟨⟨h.live, h.opened, h.free, rfl⟩, .inr rfl⟩
      · exact ⟨⟨h.live, h.opened, h.free, h.note⟩, .inl rfl⟩
  | reply pid _ hopen => exact .inr ⟨le_rfl, hcharged _ _⟩
  | lost _ hopen hsafe => exact .inr ⟨le_rfl, hcharged _ _⟩
  | start pid _ hlive hopen hfree hnote hf =>
      exact .inl ⟨_, List.mem_singleton_self _, by simp [Event.startsSettling]⟩
  | wait pid _ hnote hhold hl hrun => exact absurd hhold (hholds _ _)
  | retry pid _ hnote hhold => exact absurd hhold (hholds _ _)
  | giveUp pid _ hnote hhold hl hrun hf => exact absurd hhold (hholds _ _)
  | close pid _ hnote hhold hl hrun hf => exact absurd hhold (hholds _ _)

/-- A session that is due stays so until it is used or a settlement starts. -/
theorem SessionStep.due (hstep : SessionStep sid safe v es v') (hv : Exclusive v) (h : Due T v) :
    Due T v' ∨ Used T v' ∨ ∃ e ∈ es, e.startsSettling sid = true := by
  obtain ⟨hle, slot, hslot, harmed, hidle⟩ := id h
  rcases hstep.armed hv hslot harmed with hs | ⟨hnow, slot', hslot', harmed', hseen | hseen⟩
  · exact .inr (.inr hs)
  · exact .inl ⟨hle.trans hnow, slot', hslot', harmed', hseen ▸ hidle⟩
  · refine .inr (.inl ⟨hle.trans hnow, slot', hslot', ?_⟩)
    rw [lastSeen_stamp hseen (h.pos.trans_le hle)]
    exact hle

theorem SessionStep.used_run (h : Trace (SessionStep sid safe) v tr v') (hpos : 0 < T)
    (hu : Used T v) : Used T v' :=
  h.stateInvariant hu fun _ _ _ hu hstep => hstep.used hpos hu

theorem SessionStep.due_run (h : Trace (SessionStep sid safe) v tr v') (hv : Exclusive v)
    (hd : Due T v) : Due T v' ∨ Used T v' ∨ ∃ e ∈ tr, e.startsSettling sid = true := by
  refine (h.invariant (I := fun v tr => Exclusive v ∧
    (Due T v ∨ Used T v ∨ ∃ e ∈ tr, e.startsSettling sid = true)) ⟨hv, .inl hd⟩ ?_).2
  rintro v tr es v' ⟨hv, hI⟩ hstep
  refine ⟨hstep.exclusive hv, ?_⟩
  rcases hI with hd | hu | ⟨e, he, hstart⟩
  · rcases hstep.due hv hd with hd | hu | ⟨e, he, hstart⟩
    · exact .inl hd
    · exact .inr (.inl hu)
    · exact .inr (.inr ⟨e, List.mem_append_right _ he, hstart⟩)
  · exact .inr (.inl (hstep.used hd.pos hu))
  · exact .inr (.inr ⟨e, List.mem_append_left _ he, hstart⟩)

end Session

/-! ## The iterator does not pass a session that is due -/

/-- The sweep `pid` is under way and has not passed the position `j`. -/
def State.Walking (st : State) (pid : Pid) (j : ℕ) : Prop :=
  ∃ sid charge cursor, st.procs pid = some (.sweepSettle sid charge cursor) ∧ cursor ≤ j

section Walk

variable {st st' : State} {sid : SessionId} {pid : Pid} {j T cursor : ℕ} {w : Writes}
  {r : State × List Event}

theorem startsSettling_filter {es : List Event}
    (h : ∃ e ∈ es.filter (Event.about sid), e.startsSettling sid = true) :
    ∃ e ∈ es, e.startsSettling sid = true := by
  obtain ⟨e, he, hstart⟩ := h
  exact ⟨e, (List.mem_filter.mp he).1, hstart⟩

theorem sweepFrom_none (hnext : st.sessions.next? cursor (sweepable st.now) = none) :
    st.sweepFrom pid cursor = (st.finish pid, []) := by
  simp only [sweepFrom, hnext]

theorem sweepFrom_some (pid : Pid) {slot : Slot SessionId Session} {i : ℕ}
    (hnext : st.sessions.next? cursor (sweepable st.now) = some (slot, i)) :
    ∃ note, slot.val.escrowNoteB64 = some note ∧
      st.sweepFrom pid cursor =
        ((st.modify slot.key markSettling).spawn pid
            (.sweepSettle slot.key slot.val.totalCharge (i + 1)),
          [.settleStart pid slot.key slot.val.totalCharge note]) := by
  obtain ⟨-, -, -, hsweep⟩ := SlotMap.next?_some hnext
  obtain ⟨note, hnote⟩ := Option.isSome_iff_exists.mp (sweepable_iff.mp hsweep).2.2.1
  exact ⟨note, hnote, by simp only [sweepFrom, hnext, hnote]⟩

theorem sweepFrom_due (st : State) (pid : Pid) (hj : st.sessions.keys[j]? = some sid)
    (hd : Due T (st.view sid))
    (hcursor : cursor ≤ j) :
    (∃ e ∈ (st.sweepFrom pid cursor).2, e.startsSettling sid = true) ∨
      (st.sweepFrom pid cursor).1.Walking pid j := by
  obtain ⟨hle, slot, hslot, harmed, hidle⟩ := hd
  obtain ⟨found, i, hnext, hi⟩ := SlotMap.next?_le (p := sweepable st.now) hj hslot harmed.live
    (harmed.sweepable (hidle.trans hle)) hcursor
  obtain ⟨hkey, -⟩ := SlotMap.next?_some hnext
  obtain ⟨note, -, heq⟩ := sweepFrom_some pid hnext
  rw [heq]
  by_cases hij : i = j
  · have hsid : found.key = sid := by
      rw [hij, hj] at hkey
      exact (Option.some.inj hkey).symm
    exact .inl ⟨_, List.mem_singleton_self _, by simp [Event.startsSettling, hsid]⟩
  · exact .inr ⟨_, _, i + 1, Function.update_self _ _ _, by omega⟩

theorem steps_sweeping {i : Input} {charge : ℕ} {sid' : SessionId} (hi : step st i = some r)
    (hret : i.act.returns = some pid) (hp : st.procs pid = some (.sweepSettle sid' charge cursor)) :
    ∃ slot note run, st.sessions.slot? sid' = some slot ∧ slot.val.escrowNoteB64 = some note ∧
      st.canLand note charge run ∧
      r = (st.land note run).sweepReturned pid sid' slot.val charge cursor run i.writes := by
  obtain ⟨act, w⟩ := i
  have hsame : ∀ {pid' p}, some pid' = some pid → st.procs pid' = some p →
      .sweepSettle sid' charge cursor = p := by
    rintro pid' p heq hp'
    rw [Option.some.inj heq, hp] at hp'
    exact Option.some.inj hp'
  cases steps_of_step hi with
  | sweepReturned hp' hslot hnote hland =>
      cases hsame hret hp'
      cases hret
      exact ⟨_, _, _, hslot, hnote, hland, rfl⟩
  | escrowFailed hp' => exact absurd (hsame hret hp') (by simp)
  | escrowBuilt hp' => exact absurd (hsame hret hp') (by simp)
  | escrowVerified _ hp' => exact absurd (hsame hret hp') (by simp)
  | answered _ hp' => exact absurd (hsame hret hp') (by simp)
  | endReturned hp' => exact absurd (hsame hret hp') (by simp)
  | endWoken hp' => exact absurd (hsame hret hp') (by simp)
  | joaoReturned hp' => exact absurd (hsame hret hp') (by simp)
  | funded _ hp' => exact absurd (hsame hret hp') (by simp)
  | _ => cases hret

/-- The sweep goes on from a session that it has settled or tried to. -/
theorem sweepReturned_due {slot : Slot SessionId Session} {note : EscrowNote} {charge : ℕ}
    {sid' : SessionId} {run : SettleRun} (h : Returns st pid sid' charge slot note run)
    (hv : Exclusive (st.view sid)) (hj : st.sessions.keys[j]? = some sid)
    (hd : Due T (st.view sid)) (hcursor : cursor ≤ j) :
    (∃ e ∈ ((st.land note run).sweepReturned pid sid' slot.val charge cursor run w).2,
        e.startsSettling sid = true) ∨
      Used T (((st.land note run).sweepReturned pid sid' slot.val charge cursor run w).1.view sid) ∨
      ((st.land note run).sweepReturned pid sid' slot.val charge cursor run w).1.Walking pid j := by
  have hsettled : Sees sid false st _ := sees_sweepSettled (w := w) h (by simp)
  set st₁ := ((st.land note run).sweepSettled sid' slot.val run w).1.finish pid with hst₁
  have hframe : Frame st (some pid) st₁ :=
    (handled_sweepSettled.after Frame.refl.land).frame.finish (.inr rfl)
  have hlt : pid < st₁.nextPid := lt_of_lt_of_le h.lt hframe.nextPid
  have hrest : Sees sid false st₁ (st₁.sweepFrom pid cursor) :=
    sees_sweepFrom hsettled.1 hlt (by simp [hst₁, SessionView.hold])
  have hj₁ : st₁.sessions.keys[j]? = some sid := hframe.position hj
  unfold sweepReturned
  dsimp only
  rw [← sweepFrom_finish, ← hst₁]
  -- the visit that returns may have been of this session
  rcases SessionStep.due_run hsettled.2 hv hd with hd₁ | hu₁ | hs
  · rcases sweepFrom_due _ pid hj₁ hd₁ hcursor with ⟨e, he, hstart⟩ | hwalk
    · exact .inl ⟨e, List.mem_append_right _ he, hstart⟩
    · exact .inr (.inr hwalk)
  · exact .inr (.inl (SessionStep.used_run hrest.2 hd.pos hu₁))
  · obtain ⟨e, he, hstart⟩ := startsSettling_filter hs
    exact .inl ⟨e, List.mem_append_left _ he, hstart⟩

/-- What a sweep under way still owes to a session. -/
def Reached (sid : SessionId) (pid : Pid) (j T : ℕ) (st : State) (tr : List Event) : Prop :=
  (∃ e ∈ tr, e.startsSettling sid = true) ∨ Used T (st.view sid) ∨
    Due T (st.view sid) ∧ st.Walking pid j

theorem reached_of_due {safe : Bool} {es : List Event}
    (hview : Trace (SessionStep sid safe) (st.view sid) (es.filter (Event.about sid))
      (st'.view sid)) (hv : Exclusive (st.view sid)) (hd : Due T (st.view sid))
    (hwalk : (∃ e ∈ es, e.startsSettling sid = true) ∨ Used T (st'.view sid) ∨
      st'.Walking pid j) : Reached sid pid j T st' es := by
  rcases SessionStep.due_run hview hv hd with hd' | hu | hs
  · rcases hwalk with hs | hu | hwalk
    · exact .inl hs
    · exact .inr (.inl hu)
    · exact .inr (.inr ⟨hd', hwalk⟩)
  · exact .inr (.inl hu)
  · exact .inl (startsSettling_filter hs)

/-- What holds of a session from the moment a sweep finds it due. -/
structure Ahead (sid : SessionId) (pid : Pid) (j T : ℕ) (st : State) (tr : List Event) : Prop where
  fresh : st.Fresh
  exclusive : Exclusive (st.view sid)
  position : st.sessions.keys[j]? = some sid
  reached : Reached sid pid j T st tr

theorem ahead_step {es tr : List Event} (h : Ahead sid pid j T st tr) (hpos : 0 < T) {i : Input}
    (hone : OneProcess st i) (hi : step st i = some (st', es)) :
    Ahead sid pid j T st' (tr ++ es) := by
  obtain ⟨hfresh, hview⟩ := step_sees sid h.fresh hone hi
  refine ⟨hfresh, ?_, ?_, ?_⟩
  · exact hview.stateInvariant h.exclusive fun _ _ _ hv hstep => hstep.exclusive hv
  -- sessions are added at the end, so the position stays
  · exact (handled_step hi hone).frame.position h.position
  · rcases h.reached with ⟨e, he, hstart⟩ | hu | ⟨hd, sid', charge, cursor, hp, hcursor⟩
    · exact .inl ⟨e, List.mem_append_left _ he, hstart⟩
    · exact .inr (.inl (SessionStep.used_run hview hpos hu))
    · have hreached : Reached sid pid j T st' es := by
        apply reached_of_due hview h.exclusive hd
        -- either the sweep's own run returns, or the sweep goes on waiting
        by_cases hret : i.act.returns = some pid
        · obtain ⟨slot, note, run, hslot, hnote, hland, hr⟩ := steps_sweeping hi hret hp
          obtain ⟨rfl, rfl⟩ := Prod.mk.inj hr
          exact sweepReturned_due
            ⟨h.fresh, h.fresh.lt hp, fun s => view_holds s hp, hslot, hnote, hland⟩
            h.exclusive h.position hd hcursor
        · have hkept := (handled_step hi hone).frame.procs pid (h.fresh.lt hp) hret
          exact .inr (.inr ⟨sid', charge, cursor, hkept.trans hp, hcursor⟩)
      rcases hreached with ⟨e, he, hstart⟩ | hreached
      · exact .inl ⟨e, List.mem_append_right _ he, hstart⟩
      · exact .inr hreached

theorem ahead_run {es tr : List Event} (h : Ahead sid pid j T st es) (hpos : 0 < T)
    (hrun : Trace (lts step OneProcess) st tr st') : Ahead sid pid j T st' (es ++ tr) := by
  refine hrun.invariant (I := fun st tr => Ahead sid pid j T st (es ++ tr)) (by simpa using h) ?_
  rintro st tr es' st' h ⟨i, hone, hi⟩
  rw [← List.append_assoc]
  exact ahead_step h hpos hone hi

/-- A sweep that starts while the session is due. -/
theorem ahead_sweep (hf : st.Fresh) (hv : Exclusive (st.view sid))
    (hj : st.sessions.keys[j]? = some sid) (hd : Due T (st.view sid)) :
    Ahead sid st.nextPid j T st.sweep.1 st.sweep.2 := by
  obtain ⟨hfresh, hview⟩ : Sees sid false st st.sweep := sees_sweep hf
  refine ⟨hfresh, ?_, ?_, reached_of_due hview hv hd ?_⟩
  · exact hview.stateInvariant hv fun _ _ _ hv hstep => hstep.exclusive hv
  · exact (handled_sweepFrom Frame.refl.arrive (.inl le_rfl) :
      Handled st none _ st.sweep).frame.position hj
  · rcases sweepFrom_due st.arrive st.nextPid hj hd (Nat.zero_le j) with hs | hw
    · exact .inl hs
    · exact .inr (.inr hw)

/-! ## The iterator passes a session that is not due -/

/-- A run that was killed before it submitted anything. -/
def killedRun : SettleRun := ⟨none, none, false, false, none⟩

/-- A settlement of the sweep is killed, and the walk goes on. -/
theorem step_killed (st : State) {key : SessionId} {slot : Slot SessionId Session} {note : EscrowNote}
    {charge : ℕ} (hp : st.procs pid = some (.sweepSettle key charge cursor))
    (hslot : st.sessions.slot? key = some slot) (hnote : slot.val.escrowNoteB64 = some note) :
    step st ⟨.sweepReturned pid killedRun, .ok⟩ =
      some (((st.releaseCurrent key).sweepFrom pid cursor).1,
        .settleEnd pid key charge killedRun ::
          ((st.releaseCurrent key).sweepFrom pid cursor).2) := by
  have hc : st.captured key = some (slot.val, note) := by
    simp [State.captured, SlotMap.obj?, hslot, hnote]
  have hland : st.canLand note charge killedRun := by simp [State.canLand, killedRun]
  simp only [step, hp, hc, if_pos hland]
  rfl

theorem sweepFrom_passes (st : State) (sid : SessionId) (pid : Pid) (cursor : ℕ)
    (hskip : ∀ slot, (st.view sid).slot = some slot → sweepable st.now slot.val = false) :
    ∃ tr st', Trace (lts step OneProcess) (st.sweepFrom pid cursor).1 tr st' ∧
      st'.procs pid = none ∧ (st'.view sid).slot = (st.view sid).slot ∧
      ∀ e ∈ (st.sweepFrom pid cursor).2 ++ tr, e.startsSettling sid = false := by
  -- each killed settlement leaves fewer positions to visit
  induction hn : st.sessions.keys.length - cursor using Nat.strong_induction_on
    generalizing st cursor with
  | _ n ih =>
      cases hnext : st.sessions.next? cursor (sweepable st.now) with
      | none =>
          rw [sweepFrom_none hnext]
          exact ⟨[], _, .refl, by simp [State.finish], rfl, by simp⟩
      | some found =>
          obtain ⟨slot, i⟩ := found
          obtain ⟨hkey, hslot, -, hsweep⟩ := SlotMap.next?_some hnext
          have hge := SlotMap.next?_ge hnext
          have hlt := (List.getElem?_eq_some_iff.mp hkey).1
          have hne : sid ≠ slot.key := by
            rintro rfl
            rw [hskip slot hslot] at hsweep
            cases hsweep
          obtain ⟨note, hnote, heq⟩ := sweepFrom_some pid hnext
          rw [heq]
          set st₁ := (st.modify slot.key markSettling).spawn pid
            (.sweepSettle slot.key slot.val.totalCharge (i + 1)) with hst₁
          have hslot₁ : st₁.sessions.slot? slot.key =
              some { slot with val := markSettling slot.val } := by
            simp [hst₁, State.spawn, State.modify, hslot]
          have hstep := step_killed st₁ (Function.update_self _ _ _) hslot₁ hnote
          have hview : ((st₁.releaseCurrent slot.key).view sid).slot = (st.view sid).slot := by
            rw [view_releaseCurrent_ne hne, hst₁, view_spawn, view_modify_ne hne]
            rfl
          have hkeys : (st₁.releaseCurrent slot.key).sessions.keys = st.sessions.keys := by
            unfold State.releaseCurrent
            split
            · exact SlotMap.keys_modify.trans SlotMap.keys_modify
            · exact SlotMap.keys_modify
          have hnow : (st₁.releaseCurrent slot.key).now = st.now := by
            unfold State.releaseCurrent
            split <;> rfl
          obtain ⟨tr, st', htr, hdone, hkeep, hquiet⟩ :=
            ih (st.sessions.keys.length - (i + 1)) (by omega) (st₁.releaseCurrent slot.key) (i + 1)
              (hview ▸ hnow ▸ hskip) (congrArg (·.length - (i + 1)) hkeys)
          have hone : OneProcess st₁ ⟨.sweepReturned pid killedRun, .ok⟩ := trivial
          refine ⟨_, st', (Trace.single ⟨_, hone, hstep⟩).trans htr, hdone, hkeep.trans hview, ?_⟩
          intro e he
          simp only [List.cons_append, List.nil_append, List.mem_cons] at he
          rcases he with rfl | rfl | he
          · simp [Event.startsSettling, Ne.symm hne]
          · rfl
          · exact hquiet e he

end Walk

/-! ## The next sweep -/

/-- However a sweep that starts now runs on, when it is over a settlement of the
session has been started, or the session has been used in the meantime. -/
def State.NextSweepSettles (st : State) (sid : SessionId) : Prop :=
  ∀ tr st', Trace (lts step OneProcess) st.sweep.1 tr st' → st'.procs st.nextPid = none →
    (∃ e ∈ st.sweep.2 ++ tr, e.startsSettling sid = true) ∨
      ∃ s, st'.sessions.obj? sid = some s ∧ st.now ≤ s.lastSeen

section Next

variable {st : State} {sid : SessionId} {slot : Slot SessionId Session}

theorem settles_of_due (hf : st.Fresh) (hv : Exclusive (st.view sid))
    (hd : Due st.now (st.view sid)) : st.NextSweepSettles sid := by
  intro tr st' hrun hdone
  obtain ⟨-, slot, hslot, -⟩ := id hd
  have hmem : sid ∈ st.sessions.keys := by
    by_contra hout
    rw [show (st.view sid).slot = none from SlotMap.slot?_eq_none.mpr hout] at hslot
    cases hslot
  obtain ⟨j, hj⟩ := List.getElem?_of_mem hmem
  rcases (ahead_run (ahead_sweep hf hv hj hd) hd.pos hrun).reached with hs | hu | ⟨-, hwalk⟩
  · exact .inl hs
  · obtain ⟨-, slot', hslot', hseen⟩ := hu
    exact .inr ⟨slot'.val, Option.map_eq_some_iff.mpr ⟨slot', hslot', rfl⟩, hseen⟩
  · obtain ⟨sid', charge, cursor, hp, -⟩ := hwalk
    rw [hdone] at hp
    cases hp

theorem not_settles_of_skip (slot : Slot SessionId Session)
    (hslot : st.sessions.slot? sid = some slot)
    (hseen : slot.val.lastSeen < st.now) (hskip : sweepable st.now slot.val = false) :
    ¬ st.NextSweepSettles sid := by
  intro h
  obtain ⟨tr, st', hrun, hdone, hkeep, hquiet⟩ :=
    sweepFrom_passes st.arrive sid st.nextPid 0 (by
      intro s hs
      rw [show (st.arrive.view sid).slot = some slot from hslot] at hs
      exact Option.some.inj hs ▸ hskip)
  rcases h tr st' hrun hdone with ⟨e, he, hstart⟩ | ⟨s, hs, hused⟩
  · rw [hquiet e he] at hstart
    cases hstart
  · have hslot' : st'.sessions.slot? sid = some slot := hkeep.trans hslot
    rw [SlotMap.obj?, hslot'] at hs
    cases hs
    omega

end Next

/-- **A hold that the bridge knows of is swept.** In every state a process
reaches, the next sweep settles an idle session exactly when the bridge has
recorded its escrow note and its flag is clear, whatever became of the note on
chain. -/
theorem swept_iff_recorded {disk : Disk} {now : ℕ} {nextPid : Pid}
    {chain : EscrowNote → NoteStatus} {tr : List Event} {st : State} {sid : SessionId} {s : Session}
    (h : Trace (lts step OneProcess) (boot disk now nextPid chain) tr st)
    (hs : st.sessions.get? sid = some s) (hidle : s.lastSeen + sweepIdleMs ≤ st.now) :
    st.NextSweepSettles sid ↔ s.escrowNoteB64.isSome = true ∧ s.settling = false := by
  obtain ⟨hf, -⟩ := trace_sees false sid (fun _ _ h => h) (by simp)
    (fresh_boot disk now nextPid chain) h
  have hv : Exclusive (st.view sid) := trace_exclusive (fun _ _ h => h) h
  obtain ⟨slot, hslot, hlive, rfl⟩ := SlotMap.get?_eq_some.mp hs
  have hopen : slot.val.settled = false := by simp [hv.settled_eq slot hslot, hlive]
  constructor
  · intro hnext
    by_contra hcond
    have hpos : 0 < sweepIdleMs := by decide
    refine not_settles_of_skip _ hslot (by omega) ?_ hnext
    rw [← Bool.not_eq_true, sweepable_iff]
    exact fun hsweep => hcond ⟨hsweep.2.2.1, hsweep.2.1⟩
  · rintro ⟨hnote, hfree⟩
    exact settles_of_due hf hv
      ⟨le_rfl, slot, hslot, ⟨hlive, hopen, hfree, hnote⟩, hidle⟩

/-- The buyer funds a hold and closes the tab before the bridge confirms it. -/
def unconfirmedHold : List Action :=
  [.start ⟨"0xb0b", "basic", .finite 60000 0⟩, .escrowBuilt 0 0 (some demoParams),
    .fundNote demoNote, .tick sweepIdleMs]

/-- **A funded hold is left out.** Nobody settles it, it is idle, and the next
sweep does not see it. -/
theorem funded_hold_left_out : ∃ (tr : List Event) (st : State) (s : Session),
    Trace (lts step OneProcess) demoBoot tr st ∧ st.sessions.get? 0 = some s ∧
      st.chain s.params.noteB64 = .committed ∧ s.lastSeen + sweepIdleMs ≤ st.now ∧
      (∀ pid, ¬ st.Settles 0 pid) ∧ ¬ st.NextSweepSettles 0 := by
  have h := trace_exec step OneProcess demoBoot (written unconfirmedHold) (by decide) (by decide)
  have hv : Exclusive (State.view 0 _) := trace_exclusive (fun _ _ h => h) h
  refine ⟨_, _, newSession "0xb0b" "basic" 50000 demoParams 1, h, by decide, by decide, by decide,
    fun pid hp => ?_, ?_⟩
  · obtain ⟨hold, hh⟩ := settles_iff_holds.mp hp
    rw [@Exclusive.free _ ⟨0, newSession "0xb0b" "basic" 50000 demoParams 1, true⟩ hv
      (by decide) rfl pid] at hh
    cases hh
  · exact not_settles_of_skip ⟨0, newSession "0xb0b" "basic" 50000 demoParams 1, true⟩
      (by decide) (by decide) (by decide)

theorem swept_iff_recorded_demo : ∃ (tr : List Event) (st : State),
    Trace (lts step OneProcess) demoBoot tr st ∧ st.NextSweepSettles 0 :=
  have h := trace_exec step OneProcess demoBoot (written (openSession ++ [.tick sweepIdleMs]))
    (by decide) (by decide)
  ⟨_, _, h, (swept_iff_recorded (s := arm 1 (newSession "0xb0b" "basic" 50000 demoParams 1)) h
    (by decide) (by decide)).mpr (by decide)⟩

end Bartok.Bridge
