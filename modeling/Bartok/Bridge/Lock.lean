import Bartok.Bridge.Answered
import Bartok.Bridge.Gate

/-!
# The lock of the proof pipeline

All chats share the working files of `runAnswer`, and `busy` lets one of them in at a
time. The flag is tested and set between two `await`s, and `finally` clears it. `Locked`
says that it is set exactly while one handler is inside; every piece of work of the
bridge keeps that, whatever request it is for and wherever it throws.
-/

namespace Bartok.Bridge

open Foundation Miden State

/-- The handler is in the critical section of `/api/chat`: it waits for its `runAnswer`. -/
def State.InAnswer (st : State) (pid : Pid) : Prop :=
  ∃ p, st.procs pid = some p ∧ p.isAnswer = true

structure Locked (st : State) : Prop where
  fresh : st.Fresh
  exclusive : ∀ pid pid', st.InAnswer pid → st.InAnswer pid' → pid = pid'
  busy_iff : st.busy = true ↔ ∃ pid, st.InAnswer pid

section Steps

variable {rt : Runtime} {st st' : State} {act : Action} {w : Writes} {r : State × List Event}
  {mine : Option Pid} {pid : Pid} {sid : SessionId} {prompt : JsString} {tier : String} {spent : ℕ}
  {res : Except String Answer} {req : State.ChatRequest}

/-- Nobody entered the critical section or left it. -/
theorem Locked.keep (h : Locked st) (hfresh : st'.Fresh) (hbusy : st'.busy = st.busy)
    (hsame : ∀ pid, st'.InAnswer pid ↔ st.InAnswer pid) : Locked st' where
  fresh := hfresh
  exclusive pid pid' hin hin' := h.exclusive pid pid' ((hsame pid).mp hin) ((hsame pid').mp hin')
  busy_iff := by
    rw [hbusy, h.busy_iff]
    exact exists_congr fun pid => (hsame pid).symm

/-- A handler that is inside stays there while others work. -/
theorem inAnswer_frame (hf : st.Fresh) (hframe : Frame st mine st') (hin : st.InAnswer pid)
    (hmine : mine ≠ some pid) : st'.InAnswer pid := by
  obtain ⟨p, hp, hanswer⟩ := hin
  exact ⟨p, (hframe.procs pid (hf.lt hp) hmine).trans hp, hanswer⟩

theorem procs_persistSessions {ok : Bool} : (st.persistSessions ok).procs = st.procs := by
  unfold persistSessions
  split <;> rfl

/-- Only `/api/chat` lets a handler in. -/
theorem inAnswer_new (hchat : ∀ req, act ≠ .chat req) (hi : step st ⟨act, w⟩ = some r)
    (hin : r.1.InAnswer pid) : st.InAnswer pid := by
  obtain ⟨p, hp, hanswer⟩ := hin
  have hgating : p.gating = true := by
    cases p <;> first | rfl | cases hanswer
  have hspawn : ∀ (st₀ : State) {pid₀ : Pid} {p₀ : Proc}, p₀.isAnswer = false →
      (st₀.spawn pid₀ p₀).procs pid = some p → st₀.procs pid = some p := by
    intro st₀ pid₀ p₀ hp₀ hp
    rcases procs_spawn hp with ⟨-, rfl⟩ | hp
    · rw [hp₀] at hanswer
      cases hanswer
    · exact hp
  cases hact : act.gates with
  | false => exact ⟨p, (keeps_step hact hi).procs pid p hp hgating, hanswer⟩
  | true =>
      cases steps_of_step hi with
      | start req =>
          rcases sessionStart_cases st req with heq | ⟨budget, heq, -⟩
          · rw [heq] at hp
            exact ⟨p, hp, hanswer⟩
          · rw [heq] at hp
            exact ⟨p, hspawn st.arrive rfl hp, hanswer⟩
      | escrow sid =>
          unfold sessionEscrow at hp
          dsimp only at hp
          split at hp
          · exact ⟨p, hp, hanswer⟩
          · exact ⟨p, hspawn st.arrive rfl hp, hanswer⟩
      | escrowBuilt hq hnew =>
          rw [State.escrowBuilt] at hp
          dsimp only at hp
          rw [procs_persistSessions] at hp
          exact ⟨p, (procs_finish hp).2, hanswer⟩
      | escrowVerified committed hq =>
          cases committed with
          | false => cases hact
          | true =>
              rw [State.escrowVerified, if_pos rfl] at hp
              dsimp only at hp
              rw [procs_persistSessions] at hp
              exact ⟨p, (procs_finish hp).2, hanswer⟩
      | chat req => exact absurd rfl (hchat req)
      | restart => cases hp
      | _ => cases hact

theorem Locked.free (h : Locked st) (hbusy : st.busy = false) : ¬ st.InAnswer pid := by
  intro hin
  rw [h.busy_iff.mpr ⟨pid, hin⟩] at hbusy
  cases hbusy

/-- A chat that is let in is the only one. -/
theorem locked_chat (h : Locked st) : Locked (st.chat req).1 := by
  have hfresh : (st.chat req).1.Fresh :=
    fresh_step (i := ⟨.chat req, .ok⟩) h.fresh (r := st.chat req) rfl
  revert hfresh
  unfold State.chat
  dsimp only
  split
  · exact fun hfresh => h.keep hfresh rfl fun _ => Iff.rfl
  · next s hgate =>
      have hfree : ∀ q, ¬ st.InAnswer q := fun q => h.free (chatGate_ok hgate).2.2.2.2.2.2.2
      split
      · intro hfresh
        have honly : ∀ q, (st.arrive.spawn st.nextPid (.runAnswer req.sessionId req.prompt
            (req.msgTier s) s.totalCharge)).InAnswer q ↔ q = st.nextPid := by
          intro q
          constructor
          · rintro ⟨p, hp, hanswer⟩
            rcases procs_spawn hp with ⟨rfl, -⟩ | hp
            · rfl
            · exact absurd ⟨p, hp, hanswer⟩ (hfree q)
          · rintro rfl
            exact ⟨_, Function.update_self _ _ _, rfl⟩
        exact ⟨hfresh, fun pid pid' hin hin' => ((honly pid).mp hin).trans ((honly pid').mp hin').symm,
          iff_of_true rfl ⟨st.nextPid, (honly _).mpr rfl⟩⟩
      · exact fun hfresh => h.keep hfresh rfl fun _ => Iff.rfl

theorem procs_chatAnswered :
    (st.chatAnswered pid sid prompt tier spent res w).1.procs = (st.finish pid).procs := by
  unfold chatAnswered
  dsimp only
  split
  · rfl
  · rfl
  · split
    · rfl
    · split
      · rfl
      · unfold deliver
        dsimp only
        split
        · exact procs_persistSessions
        · next hsave =>
            rw [saveUsers_eq_some hsave]
            exact procs_persistSessions

/-- Whatever came of its answer, the chat leaves, and the lock is free. -/
theorem locked_chatAnswered (h : Locked st)
    (hp : st.procs pid = some (.runAnswer sid prompt tier spent)) :
    Locked (st.chatAnswered pid sid prompt tier spent res w).1 := by
  have hnone : ∀ q, ¬ (st.chatAnswered pid sid prompt tier spent res w).1.InAnswer q := by
    rintro q ⟨p, hq, hanswer⟩
    rw [procs_chatAnswered] at hq
    obtain ⟨hne, hq⟩ := procs_finish hq
    exact hne (h.exclusive q pid ⟨p, hq, hanswer⟩ ⟨_, hp, rfl⟩)
  refine ⟨?_, fun q _ hin => absurd hin (hnone q), ?_⟩
  · exact fresh_step (i := ⟨.answered pid res, w⟩) h.fresh (by simp only [step, hp])
  · rw [busy_chatAnswered]
    exact iff_of_false Bool.false_ne_true (not_exists.mpr hnone)

theorem locked_step (h : Locked st) (hi : step st ⟨act, w⟩ = some r) : Locked r.1 := by
  have hfresh : r.1.Fresh := fresh_step h.fresh hi
  have hother : act ≠ .restart → (∀ req, act ≠ .chat req) →
      (∀ pid res, act ≠ .answered pid res) → Locked r.1 := by
    intro hone hchat hanswered
    refine h.keep hfresh (busy_step hone hchat hanswered hi) fun pid =>
      ⟨inAnswer_new hchat hi, fun hin => ?_⟩
    apply inAnswer_frame h.fresh (handled_step hi (oneProcess_iff.mpr hone)).frame hin
    intro hmine
    obtain ⟨p, hp, hanswer⟩ := hin
    obtain ⟨res, hact⟩ := answered_of_returns hi hmine hp hanswer
    exact hanswered pid res hact
  cases steps_of_step hi with
  | chat req => exact locked_chat h
  | answered res hp => exact locked_chatAnswered h hp
  | restart =>
      have hnone : ∀ q, ¬ (boot st.disk st.now st.nextPid st.chain).InAnswer q := by
        rintro q ⟨p, hp, -⟩
        cases hp
      refine ⟨hfresh, fun q _ hin => absurd hin (hnone q), ?_⟩
      exact iff_of_false Bool.false_ne_true (not_exists.mpr hnone)
  | _ => exact hother nofun nofun nofun

/-- A `runAnswer` in progress is no process that has yet to start. -/
theorem not_inAnswer_of_spawnThrows {message : String} (hi : st.spawnThrows pid message = some r) :
    ¬ st.InAnswer pid := by
  rintro ⟨p, hp, hanswer⟩
  cases p with
  | runAnswer sid prompt tier spent =>
      rw [spawnThrows, hp] at hi
      cases hi
  | _ => cases hanswer

theorem busy_spawnThrows {message : String} (hi : st.spawnThrows pid message = some r) :
    r.1.busy = st.busy := by
  unfold spawnThrows at hi
  split at hi
  · exact Option.some.inj hi ▸ rfl
  · exact Option.some.inj hi ▸ rfl
  · exact Option.some.inj hi ▸ rfl
  · exact Option.some.inj hi ▸ rfl
  · exact Option.some.inj hi ▸ congrArg Aside.busy (aside_sweepFrom.trans aside_releaseCurrent)
  · exact Option.some.inj hi ▸ rfl
  · cases hi

theorem locked_serve {i : Served} (h : Locked st) (hi : serve rt st i = some r) : Locked r.1 := by
  have hfresh : r.1.Fresh := fresh_serve h.fresh hi
  obtain ⟨arrival, w⟩ := i
  cases arrival with
  | post q =>
      obtain rfl := Option.some.inj hi
      rcases dispatch_typed q (readBody q.chunks) (parseBody (readBody q.chunks)) with
        hrefused | ⟨act, w', r, -, hstep, hst, -⟩
      · show Locked (State.dispatch rt st q _ _ w).1
        rw [hrefused.1]
        exact h.keep h.fresh.arrive rfl fun _ => Iff.rfl
      · show Locked (State.dispatch rt st q _ _ w).1
        rw [hst]
        exact locked_step h hstep
  | spawnThrows pid message =>
      refine h.keep hfresh (busy_spawnThrows hi) fun q => ⟨?_, fun hin => ?_⟩
      · rintro ⟨p, hp, hanswer⟩
        have hgating : p.gating = true := by
          cases p <;> first | rfl | cases hanswer
        exact ⟨p, (keeps_spawnThrows hi).procs q p hp hgating, hanswer⟩
      · apply inAnswer_frame h.fresh (frame_spawnThrows hi) hin
        intro hsame
        exact not_inAnswer_of_spawnThrows hi (Option.some.inj hsame ▸ hin)
  | other act =>
      obtain ⟨-, hstep⟩ := Option.ite_none_right_eq_some.mp hi
      exact locked_step h hstep

/-! ## What a chat does to the lock -/

/-- A chat that is refused, in whatever words, touches neither the lock nor a handler. -/
theorem lock_post {p : Post} (hchat : p.endpoint = .chat) (hi : serve rt st ⟨.post p, w⟩ = some r)
    (herror : ∃ e ∈ r.2, e.isError = true) : r.1.busy = st.busy ∧ r.1.procs = st.procs := by
  have hr : st.dispatch rt p (readBody p.chunks) (parseBody (readBody p.chunks)) w = r :=
    Option.some.inj hi
  rcases hr ▸ dispatch_typed p (readBody p.chunks) (parseBody (readBody p.chunks)) with
    hrefused | ⟨act, w', r', hend, hstep, hst, hsub⟩
  · rw [hrefused.1]
    exact ⟨rfl, rfl⟩
  · rw [hchat] at hend
    rw [hst]
    cases act with
    | chat req =>
        obtain rfl : st.chat req = r' := Option.some.inj hstep
        rcases lock_chat st req with hsame | ⟨-, hnone⟩
        · exact hsame
        · obtain ⟨e, he, hfail⟩ := herror
          rw [hnone e (hsub he)] at hfail
          cases hfail
    | _ => cases hend

/-- The answer of the one that is inside frees the lock, whatever it is. -/
theorem lock_answered (hin : st.InAnswer pid) (res : Except String Answer) (w : Writes) :
    ∃ r, serve rt st ⟨.other (.answered pid res), w⟩ = some r ∧ r.1.busy = false ∧
      ¬ r.1.InAnswer pid := by
  obtain ⟨p, hp, hanswer⟩ := hin
  cases p with
  | runAnswer sid prompt tier spent =>
      refine ⟨st.chatAnswered pid sid prompt tier spent res (rt.saves st ⟨.answered pid res, w⟩),
        ?_, busy_chatAnswered res, ?_⟩
      · rw [serve]
        simp only [Action.endpoint, if_true, step, hp]
      · rintro ⟨p, hq, -⟩
        rw [procs_chatAnswered] at hq
        exact (procs_finish hq).1 rfl
  | _ => cases hanswer

end Steps

/-! ## Runs -/

section Runs

variable {rt : Runtime} {disk : Disk} {now : ℕ} {nextPid : Pid} {chain : EscrowNote → NoteStatus}
  {st : State} {tr : List Event}

theorem locked_boot : Locked (boot disk now nextPid chain) := by
  have hnone : ∀ q, ¬ (boot disk now nextPid chain).InAnswer q := by
    rintro q ⟨p, hp, -⟩
    cases hp
  refine ⟨fresh_boot _ _ _ _, fun q _ hin => absurd hin (hnone q), ?_⟩
  exact iff_of_false Bool.false_ne_true (not_exists.mpr hnone)

theorem locked_run
    (h : Trace (lts (serve rt) AnyServed) (boot disk now nextPid chain) tr st) : Locked st :=
  h.stateInvariant locked_boot fun _ _ _ hlocked ⟨_, _, hi⟩ => locked_serve hlocked hi

/-- **The pipeline is exclusive, and the lock is never lost.** In every state a run
reaches, with any requests over any sessions: at most one `runAnswer` is in progress;
`busy` is set exactly while one is; a chat that is refused touches neither the flag nor
another handler; the one that is inside frees the lock with whatever its answer is; and
when none is left the lock is free. -/
theorem pipeline_exclusive
    (h : Trace (lts (serve rt) AnyServed) (boot disk now nextPid chain) tr st) :
    (∀ pid pid', st.InAnswer pid → st.InAnswer pid' → pid = pid') ∧
      (st.busy = true ↔ ∃ pid, st.InAnswer pid) ∧
      (∀ p w r, p.endpoint = .chat → serve rt st ⟨.post p, w⟩ = some r →
        (∃ e ∈ r.2, e.isError = true) → r.1.busy = st.busy ∧ r.1.procs = st.procs) ∧
      (∀ pid, st.InAnswer pid → ∀ res w, ∃ r,
        serve rt st ⟨.other (.answered pid res), w⟩ = some r ∧ r.1.busy = false ∧
          ¬ r.1.InAnswer pid) ∧
      ((∀ pid, ¬ st.InAnswer pid) → st.busy = false) := by
  have hlocked := locked_run h
  refine ⟨hlocked.exclusive, hlocked.busy_iff, fun p w r hchat hi herror => lock_post hchat hi herror,
    fun pid hin res w => lock_answered hin res w, fun hnone => ?_⟩
  rw [Bool.eq_false_iff, ne_eq, hlocked.busy_iff]
  exact fun ⟨pid, hin⟩ => hnone pid hin

end Runs

/-- A second chat comes while the first one waits for its answer. -/
theorem pipeline_exclusive_demo : ∃ (tr : List Event) (st : State),
    Trace (lts (serve gateRuntime) AnyServed) demoBoot tr st ∧ st.busy = true ∧
      (∀ pid, st.InAnswer pid → pid = 2) ∧
      ∀ w r, serve gateRuntime st ⟨.post chatPost, w⟩ = some r → (∃ e ∈ r.2, e.isError = true) →
        r.1.busy = true ∧ r.1.procs = st.procs := by
  have hstart : serve gateRuntime demoBoot ⟨.post startPost, .ok⟩ = some (startedState, []) := by
    simp only [serve, post, startPost, jsonPost, parseBody_print]
    rfl
  have hopen : serve gateRuntime startedState ⟨.other (.escrowBuilt 0 0 (some demoParams)), .ok⟩ =
      some (openedState, [.done 0 (.sessionStarted 0 50000)]) := rfl
  have hask : serve gateRuntime openedState ⟨.post escrowPost, .ok⟩ = some (askedState, []) := by
    simp only [serve, post, escrowPost, jsonPost, parseBody_print]
    rfl
  have harm : serve gateRuntime askedState ⟨.other (.escrowVerified 1 true), .ok⟩ =
      some (armedState, [.done 1 (.escrowConfirmed 0 50000)]) := rfl
  have hchat : serve gateRuntime armedState ⟨.post chatPost, .ok⟩ = some (chattingState,
      [.seller (.jobStarted "basic" "nvidia/nemotron-nano-9b-v2:free")]) := by
    simp only [serve, post, chatPost, jsonPost, parseBody_print]
    rfl
  have htrace := ((((Trace.single (T := lts (serve gateRuntime) AnyServed)
    ⟨_, trivial, hstart⟩).tail ⟨_, trivial, hopen⟩).tail ⟨_, trivial, hask⟩).tail
      ⟨_, trivial, harm⟩).tail ⟨_, trivial, hchat⟩
  obtain ⟨honly, hbusy, hrefused, -, -⟩ := pipeline_exclusive htrace
  have hin : chattingState.InAnswer 2 := ⟨_, rfl, rfl⟩
  refine ⟨_, _, htrace, hbusy.mpr ⟨2, hin⟩, fun pid hpid => honly pid 2 hpid hin, ?_⟩
  intro w r hi herror
  obtain ⟨hsame, hprocs⟩ := hrefused chatPost w r rfl hi herror
  exact ⟨hsame.trans (hbusy.mpr ⟨2, hin⟩), hprocs⟩

end Bartok.Bridge
