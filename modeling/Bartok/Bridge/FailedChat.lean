import Bartok.Bridge.Accounts
import Bartok.Bridge.Hold

/-!
# What a failed chat costs

A chat that is delivered changes the session, the snapshot, the buyer's record and
the seller's statistics, one after the other. `State.chatView` is what these
changes are made to. The guards stand before the first change; the one thing that
can still fail after it is the write of `users.json`.
-/

namespace Bartok.Bridge

open Foundation Miden State

/-! ## The lock -/

/-- The lock is taken on behalf of a chat that waits for its answer. -/
def State.LockHeld (st : State) : Prop :=
  st.busy = true → ∃ pid p, st.procs pid = some p ∧ p.isAnswer = true

def Event.isError : Event → Bool
  | .done _ (.error _ _) => true
  | _ => false

section Lock

variable {st : State} {pid : Pid} {sid : SessionId} {w : Writes} {u : WalletId} {code : Code}
  {claimed : ℕ} {prompt : JsString} {tier : String} {spent : ℕ} {i : Input}
  {r : State × List Event} {act : Action}

theorem busy_saveUsers {st' : State} {ok : Bool} (h : st.saveUsers ok = some st') :
    st'.busy = st.busy := by
  obtain rfl := saveUsers_eq_some h
  rfl

theorem busy_redeem (c : String) : (st.redeem u c).1.busy = st.busy := by
  unfold State.redeem
  dsimp only
  split
  · rfl
  · split
    · rfl
    · split
      · rfl
      · split
        · rfl
        · unfold captureClaimed
          split <;> rfl

theorem busy_funded (ok : Bool) : (st.funded pid u code claimed ok w).1.busy = st.busy := by
  unfold State.funded
  dsimp only
  split
  · split
    · rfl
    · next hsave => exact (busy_saveUsers hsave).trans rfl
  · rfl

theorem busy_register (req : RegisterRequest) : (st.register req w).1.busy = st.busy := by
  unfold State.register
  dsimp only
  split
  · rfl
  · split
    · rfl
    · split
      · rfl
      · next hsave => exact (busy_saveUsers hsave).trans rfl

/-- The lock is free when an answer has been dealt with, whatever came of it. -/
theorem busy_chatAnswered (res : Except String Answer) :
    (st.chatAnswered pid sid prompt tier spent res w).1.busy = false := by
  unfold chatAnswered
  dsimp only
  split
  · rfl
  · rfl
  · split
    · rfl
    · split
      · rfl
      · unfold deliver
        dsimp only
        split
        · exact congrArg Aside.busy aside_persistSessions
        · next hsave =>
            exact (busy_saveUsers hsave).trans (congrArg Aside.busy aside_persistSessions)

/-- A chat that is turned away leaves the lock as it found it, and one that is
admitted takes it. -/
theorem lock_chat (st : State) (req : ChatRequest) :
    (st.chat req).1.busy = st.busy ∧ (st.chat req).1.procs = st.procs ∨
      (∃ p, (st.chat req).1.procs st.nextPid = some p ∧ p.isAnswer = true) ∧
        ∀ e ∈ (st.chat req).2, e.isError = false := by
  unfold State.chat
  dsimp only
  split
  · exact .inl ⟨rfl, rfl⟩
  · split
    · exact .inr ⟨⟨_, Function.update_self _ _ _, rfl⟩, by simp [Event.isError]⟩
    · exact .inl ⟨rfl, rfl⟩

/-- Only its own answer ends the wait of a chat. -/
theorem answered_of_returns {p : Proc} (hi : step st i = some r) (hreturns : i.act.returns = some pid)
    (hp : st.procs pid = some p) (hanswer : p.isAnswer = true) :
    ∃ res, i.act = .answered pid res := by
  have hsame : ∀ {p' : Proc}, st.procs pid = some p' → p'.isAnswer = true := by
    intro p' hp'
    rwa [← Option.some.inj (hp.symm.trans hp')]
  obtain ⟨act, w⟩ := i
  cases steps_of_step hi with
  | answered res _ =>
      obtain rfl := Option.some.inj hreturns
      exact ⟨res, rfl⟩
  | escrowFailed hq | escrowBuilt hq | escrowVerified _ hq | endReturned hq | endWoken hq =>
      obtain rfl := Option.some.inj hreturns
      cases hsame hq
  | sweepReturned hq | joaoReturned hq | funded _ hq =>
      obtain rfl := Option.some.inj hreturns
      cases hsame hq
  | _ => cases hreturns

/-- What else the bridge does leaves the lock alone. -/
theorem busy_step (hone : act ≠ .restart) (hchat : ∀ req, act ≠ .chat req)
    (hanswered : ∀ pid res, act ≠ .answered pid res) (hi : step st ⟨act, w⟩ = some r) :
    r.1.busy = st.busy := by
  cases haside : act.writesAside with
  | false => exact congrArg Aside.busy (aside_step (oneProcess_iff.mpr hone) hi haside)
  | true =>
      cases steps_of_step hi with
      | chat req => exact absurd rfl (hchat req)
      | answered res hp => exact absurd rfl (hanswered _ res)
      | redeem u c => exact busy_redeem c
      | funded ok hp => exact busy_funded ok
      | register req => exact busy_register req
      | _ => cases haside

/-- Whoever holds the lock is still there after a step, or the step has released it. -/
theorem lockHeld_step (h : st.LockHeld) (hf : st.Fresh) (hi : step st ⟨act, w⟩ = some r) :
    r.1.LockHeld := by
  have hother : act ≠ .restart → (∀ req, act ≠ .chat req) →
      (∀ pid res, act ≠ .answered pid res) → r.1.LockHeld := by
    intro hone hchat hanswered hbusy
    rw [busy_step hone hchat hanswered hi] at hbusy
    obtain ⟨pid, p, hp, hanswer⟩ := h hbusy
    refine ⟨pid, p, ?_, hanswer⟩
    rw [(handled_step hi (oneProcess_iff.mpr hone)).frame.procs pid (hf.lt hp), hp]
    intro hmine
    obtain ⟨res, hact⟩ := answered_of_returns hi hmine hp hanswer
    exact hanswered pid res hact
  cases steps_of_step hi with
  | chat req =>
      intro hbusy
      rcases lock_chat st req with ⟨hsame, hprocs⟩ | ⟨⟨p, hp, hanswer⟩, -⟩
      · obtain ⟨pid, p, hp, hanswer⟩ := h (hsame ▸ hbusy)
        exact ⟨pid, p, hprocs ▸ hp, hanswer⟩
      · exact ⟨_, p, hp, hanswer⟩
  | answered res hp =>
      intro hbusy
      rw [busy_chatAnswered] at hbusy
      cases hbusy
  | restart => rintro ⟨⟩
  | _ => exact hother nofun nofun nofun

end Lock

/-! ## What a chat pays with -/

/-- The charges and the turns of each session, the spend of each wallet, the
statistics a reply counts in, and the snapshot. -/
structure ChatView where
  charges : SessionId → Option (List Answer)
  turns : SessionId → Option (List Turn)
  spent : WalletId → ℕ
  earned : ℕ
  replies : ℕ
  snapshot : Option (SlotMap SessionId Session)

def State.chatView (st : State) : ChatView where
  charges sid := (st.sessions.obj? sid).map Session.charges
  -- no history and an empty one are the same conversation
  turns sid := (st.sessions.obj? sid).map fun s => s.history.getD []
  spent := st.spentBy
  earned := st.sellerStats.earned
  replies := st.sellerStats.replies
  snapshot := st.disk.sessions

/-- The answer passes the two guards after `runAnswer`: it fits the hold, and the
session is not settled. -/
def State.Charges (st : State) (pid : Pid) (res : Except String Answer) : Prop :=
  ∃ sid prompt tier spent a s, st.procs pid = some (.runAnswer sid prompt tier spent) ∧
    res = .ok a ∧ st.sessions.obj? sid = some s ∧ spent + a.charge ≤ s.budget ∧ s.settled = false

section Costs

variable {st : State} {pid : Pid} {sid sid' : SessionId} {s : Session} {w : Writes}
  {prompt : JsString} {tier : String} {spent : ℕ} {f : Session → Session} {a : Answer}
  {res : Except String Answer}

theorem obj?_modify : (st.modify sid f).sessions.obj? sid' =
    if sid' = sid then (st.sessions.obj? sid).map f else st.sessions.obj? sid' := by
  rw [State.modify, SlotMap.obj?, SlotMap.slot?_modify]
  split
  · rw [SlotMap.obj?, Option.map_map, Option.map_map]
    rfl
  · rfl

/-- A write to a session that charges nothing and adds no turn. -/
theorem chatView_modify (hcharges : ∀ s, (f s).charges = s.charges)
    (hturns : ∀ s, (f s).history.getD [] = s.history.getD []) :
    (st.modify sid f).chatView = st.chatView := by
  have hobj : ∀ {β : Type} (g : Session → β), (∀ s, g (f s) = g s) → ∀ sid',
      ((st.modify sid f).sessions.obj? sid').map g = (st.sessions.obj? sid').map g := by
    intro β g hg sid'
    rw [obj?_modify]
    split
    · next h =>
        rw [h, Option.map_map]
        exact Option.map_congr fun s _ => hg s
    · rfl
  have hview : (st.modify sid f).chatView = { st.chatView with
      charges := fun sid' => ((st.modify sid f).sessions.obj? sid').map Session.charges
      turns := fun sid' =>
        ((st.modify sid f).sessions.obj? sid').map fun s => s.history.getD [] } := rfl
  rw [hview, funext (hobj _ hcharges), funext (hobj _ hturns)]
  rfl

/-- **A chat costs nothing when it arrives**, admitted or not. -/
theorem chatView_chat (req : ChatRequest) : (st.chat req).1.chatView = st.chatView := by
  unfold State.chat
  dsimp only
  split
  · rfl
  · split
    · have hopened : ∀ st₀ : State,
          (st₀.modify req.sessionId openHistory).chatView = st₀.chatView :=
        fun _ => chatView_modify (fun _ => rfl) fun _ => rfl
      exact (hopened _).trans rfl
    · rfl

/-- The block after the guards charges the session. -/
theorem chatView_deliver (hs : st.sessions.obj? sid = some s) :
    (st.deliver pid sid s prompt tier spent a w).1.chatView.charges sid =
      some (s.charges ++ [a]) := by
  have hpersist : ∀ (st₀ : State) ok, (st₀.persistSessions ok).sessions = st₀.sessions := by
    intro st₀ ok
    unfold persistSessions
    split <;> rfl
  have hcharged : (((((st.modify sid (pushCharge a st.now)).persistSessions w.sessions).modify sid
      (pushTurns prompt a)).sessions.obj? sid).map Session.charges) = some (s.charges ++ [a]) := by
    rw [obj?_modify, if_pos rfl, hpersist, obj?_modify, if_pos rfl, hs]
    rfl
  unfold deliver
  dsimp only
  split
  · exact hcharged
  · next hsave =>
      obtain rfl := saveUsers_eq_some hsave
      exact hcharged

/-- It answers with an error only when the records cannot be saved. -/
theorem error_deliver : (∃ e ∈ (st.deliver pid sid s prompt tier spent a w).2, e.isError = true) ↔
    w.users = false := by
  unfold deliver
  dsimp only
  split
  · next hsave => simp [Event.isError, saveUsers_eq_none hsave]
  · next hsave => simp [Event.isError, (userStore_saveUsers hsave).1]

/-- An answer that is not charged changes nothing else. -/
theorem chatView_answered (hp : st.procs pid = some (.runAnswer sid prompt tier spent))
    (hnot : ¬ st.Charges pid res) :
    (st.chatAnswered pid sid prompt tier spent res w).1.chatView = st.chatView := by
  unfold chatAnswered
  dsimp only
  split
  · rfl
  · rfl
  · next a s hs =>
      split
      · rfl
      · next hfits =>
          split
          · rfl
          · next hopen =>
              exact absurd ⟨sid, prompt, tier, spent, a, s, hp, rfl, hs, Nat.le_of_not_lt hfits,
                by simpa using hopen⟩ hnot

/-- One that passes the guards is charged, and gets its reply unless the records
cannot be saved. -/
theorem charged_answered (hp : st.procs pid = some (.runAnswer sid prompt tier spent))
    (hcharges : st.Charges pid res) :
    (st.chatAnswered pid sid prompt tier spent res w).1.chatView ≠ st.chatView ∧
      ((∃ e ∈ (st.chatAnswered pid sid prompt tier spent res w).2, e.isError = true) ↔
        w.users = false) := by
  obtain ⟨sid', prompt', tier', spent', a, s, hp', rfl, hs, hfits, hopen⟩ := hcharges
  obtain ⟨rfl, rfl, rfl, rfl⟩ := Proc.runAnswer.inj (Option.some.inj (hp'.symm.trans hp))
  have hs' : ((st.finish pid).setBusy false).sessions.obj? sid' = some s := hs
  have hdeliver : st.chatAnswered pid sid' prompt' tier' spent' (.ok a) w =
      ((st.finish pid).setBusy false).deliver pid sid' s prompt' tier' spent' a w := by
    unfold chatAnswered
    dsimp only
    rw [hs']
    dsimp only
    rw [if_neg (Nat.not_lt_of_le hfits), if_neg (by simp [hopen])]
  rw [hdeliver]
  refine ⟨fun hsame => ?_, error_deliver⟩
  have hcharged : some (s.charges ++ [a]) = st.chatView.charges sid' := by
    rw [← hsame]
    exact (chatView_deliver hs').symm
  have hold : st.chatView.charges sid' = some s.charges := by
    simp [State.chatView, hs]
  simpa using hcharged.trans hold

end Costs

/-! ## Runs -/

/-- The lock is free, or taken by a handler other than `pid`. -/
def State.FreeFor (st : State) (pid : Pid) : Prop :=
  st.busy = true → ∃ q p, q ≠ pid ∧ st.procs q = some p ∧ p.isAnswer = true

section Runs

variable {disk : Disk} {now : ℕ} {nextPid : Pid} {chain : EscrowNote → NoteStatus} {st : State}
  {tr : List Event}

theorem lockHeld_run (h : Trace (lts step AnyStep) (boot disk now nextPid chain) tr st) :
    st.Fresh ∧ st.LockHeld :=
  h.stateInvariant (I := fun s => s.Fresh ∧ s.LockHeld) ⟨fresh_boot _ _ _ _, by rintro ⟨⟩⟩
    fun _ _ _ ⟨hf, hheld⟩ ⟨_, _, hi⟩ => ⟨fresh_step hf hi, lockHeld_step hheld hf hi⟩

/-- **A failed chat costs nothing unless it fails in `saveUsers`.** In every state a
run reaches: a chat costs nothing when it arrives, and leaves the lock alone when
it is turned away; and one that comes back from `runAnswer` to an error has cost
nothing exactly when it did not pass the guards. -/
theorem failed_chat_free_iff
    (h : Trace (lts step AnyStep) (boot disk now nextPid chain) tr st) :
    (∀ req w r, step st ⟨.chat req, w⟩ = some r → r.1.chatView = st.chatView ∧
      ((∃ e ∈ r.2, e.isError = true) → r.1.FreeFor st.nextPid)) ∧
      ∀ pid res w r, step st ⟨.answered pid res, w⟩ = some r → (∃ e ∈ r.2, e.isError = true) →
        ((r.1.chatView = st.chatView ∧ r.1.FreeFor pid) ↔
          ¬ (st.Charges pid res ∧ w.users = false)) := by
  obtain ⟨hf, hheld⟩ := lockHeld_run h
  constructor
  · intro req w r hi
    obtain rfl : st.chat req = r := Option.some.inj hi
    refine ⟨chatView_chat req, fun ⟨e, he, herror⟩ hbusy => ?_⟩
    rcases lock_chat st req with ⟨hsame, hprocs⟩ | ⟨-, hnone⟩
    · obtain ⟨q, p, hp, hanswer⟩ := hheld (hsame ▸ hbusy)
      exact ⟨q, p, (hf.lt hp).ne, hprocs ▸ hp, hanswer⟩
    · rw [hnone e he] at herror
      cases herror
  · intro pid res w r hi hfail
    cases steps_of_step hi with
    | answered _ hp =>
        by_cases hcharges : st.Charges pid res
        · obtain ⟨hcost, herror⟩ := charged_answered hp hcharges
          have hw : w.users = false := herror.mp hfail
          exact iff_of_false (fun h => hcost h.1) fun hnot => hnot ⟨hcharges, hw⟩
        · refine iff_of_true ⟨chatView_answered hp hcharges, fun hbusy => ?_⟩ fun h => hcharges h.1
          rw [busy_chatAnswered] at hbusy
          cases hbusy

end Runs

/-! A chat whose pipeline fails costs nothing. -/

def waitingChat : List Action := openSession ++ [.chat ⟨0, [0x68, 0x69], none⟩]

/-- The bridge with a chat of session 0 that waits for its answer. -/
def waitingState : State := ((exec step demoBoot (written waitingChat)).get (by decide)).1

theorem failed_chat_free_demo : ∃ r, step waitingState ⟨.answered 2 (.error "BUSY"), .ok⟩ = some r ∧
    (∃ e ∈ r.2, e.isError = true) ∧ r.1.chatView = waitingState.chatView ∧ r.1.FreeFor 2 :=
  have h := trace_exec step AnyStep demoBoot (written waitingChat) (by decide) (by decide)
  have hfree := (failed_chat_free_iff h).2 2 (.error "BUSY") .ok _ rfl
    ⟨_, List.mem_singleton_self _, rfl⟩
  ⟨_, rfl, ⟨_, List.mem_singleton_self _, rfl⟩, hfree.mpr (by simp [Writes.ok])⟩

/-! The answer passes the guards, and then `users.json` cannot be written: the buyer
is sent the error, and the charge is in the session and its snapshot. -/

theorem failed_chat_charged : ¬ ∀ (disk : Disk) (now : ℕ) (nextPid : Pid)
    (chain : EscrowNote → NoteStatus) (tr : List Event) (st : State),
    Trace (lts step AnyStep) (boot disk now nextPid chain) tr st →
      ∀ pid res w r, step st ⟨.answered pid res, w⟩ = some r → (∃ e ∈ r.2, e.isError = true) →
        r.1.chatView = st.chatView ∧ r.1.FreeFor pid := by
  intro h
  have hrun := trace_exec step AnyStep demoBoot (written waitingChat) (by decide) (by decide)
  have hsame := (h _ _ _ _ _ waitingState hrun 2 (.ok demoAnswer) ⟨true, false, true⟩ _ rfl
    ⟨_, List.mem_singleton_self _, rfl⟩).1
  have hcharges := congrFun (congrArg ChatView.charges hsame) 0
  revert hcharges
  decide

end Bartok.Bridge
