import Bartok.Bridge.Step

/-!
# What a step leaves alone

A suspended handler changes only in the step that answers it, so what it
captured stays. A session keeps its position in the map, so an iterator over the
map stands where it stood. And most handlers only answer and report progress:
few actions emit anything else.

`Frame` says this of two states and `Handled` of a handler's result. There is one
lemma for each operation and one for each handler.
-/

namespace Bartok.Bridge

open Foundation Miden State

/-! ## Kinds of events -/

inductive EventKind
  /-- A stage, a message to the seller, an answer other than a reply. -/
  | plain
  | reply
  | settleStart
  /-- What follows a finished settlement. -/
  | closing
  | mint
deriving DecidableEq

def Event.kind : Event → EventKind
  | .done _ (.reply _ _ _ _) => .reply
  | .settleStart _ _ _ _ => .settleStart
  | .settleEnd _ _ _ _ => .closing
  | .refundRecorded _ _ _ => .closing
  | .evicted _ => .closing
  | .joaoStart _ => .closing
  | .fundStart _ _ _ => .mint
  | .fundEnd _ _ _ _ => .mint
  | _ => .plain

/-- The kinds an action emits besides plain events. -/
def Action.kinds : Action → List EventKind
  | .answered _ _ => [.reply]
  | .endSession _ => [.settleStart]
  | .endWoken _ => [.settleStart]
  | .endReturned _ _ => [.closing]
  | .sweep => [.settleStart]
  | .sweepReturned _ _ => [.closing, .settleStart]
  | .redeem _ _ => [.mint]
  | .funded _ _ => [.mint]
  | _ => []

/-- The handler whose wait an action ends. -/
def Action.returns : Action → Option Pid
  | .escrowBuilt pid _ _ => some pid
  | .escrowVerified pid _ => some pid
  | .answered pid _ => some pid
  | .endReturned pid _ => some pid
  | .endWoken pid => some pid
  | .sweepReturned pid _ => some pid
  | .joaoReturned pid => some pid
  | .funded pid _ => some pid
  | _ => none

/-! ## Operations on the state -/

/-- On the way from `st` to `st'`, the handlers of `st` other than `mine` go on
waiting as they were, and sessions are only added at the end of the map. -/
structure Frame (st : State) (mine : Option Pid) (st' : State) : Prop where
  procs : ∀ q < st.nextPid, mine ≠ some q → st'.procs q = st.procs q
  keys : st.sessions.keys <+: st'.sessions.keys
  nextPid : st.nextPid ≤ st'.nextPid

/-- A handler's result: the state it leaves, and the events it emits besides
plain ones. -/
structure Handled (st : State) (mine : Option Pid) (kinds : List EventKind)
    (r : State × List Event) : Prop where
  frame : Frame st mine r.1
  kinds : ∀ e ∈ r.2, e.kind = .plain ∨ e.kind ∈ kinds

section Operations

variable {st st' st₁ : State} {mine : Option Pid} {sid : SessionId} {pid : Pid} {p : Proc}
  {w : Writes} {u : WalletId} {file : Option NoteFile} {note : EscrowNote} {run : SettleRun}
  {ok : Bool} {f : Session → Session} {kinds : List EventKind} {r : State × List Event} {j : ℕ}

namespace Frame

theorem refl : Frame st mine st := ⟨fun _ _ _ => rfl, List.prefix_rfl, le_rfl⟩

theorem trans (h : Frame st mine st') (h' : Frame st' mine st₁) : Frame st mine st₁ where
  procs q hq hmine :=
    (h'.procs q (lt_of_lt_of_le hq h.nextPid) hmine).trans (h.procs q hq hmine)
  keys := h.keys.trans h'.keys
  nextPid := h.nextPid.trans h'.nextPid

/-- A session's position in the map is for ever. -/
theorem position (h : Frame st mine st') (hj : st.sessions.keys[j]? = some sid) :
    st'.sessions.keys[j]? = some sid := by
  obtain ⟨hlt, hget⟩ := List.getElem?_eq_some_iff.mp hj
  exact hget ▸ List.prefix_iff_getElem?.mp h.keys j hlt

theorem congr (h : Frame st mine st') (hprocs : st₁.procs = st'.procs)
    (hkeys : st₁.sessions.keys = st'.sessions.keys) (hpid : st₁.nextPid = st'.nextPid) :
    Frame st mine st₁ where
  procs q hq hmine := by
    rw [hprocs]
    exact h.procs q hq hmine
  keys := hkeys ▸ h.keys
  nextPid := hpid ▸ h.nextPid

theorem arrive (h : Frame st mine st') : Frame st mine st'.arrive :=
  ⟨h.procs, h.keys, h.nextPid.trans (Nat.le_succ _)⟩

theorem spawn (h : Frame st mine st') (hpid : st.nextPid ≤ pid ∨ mine = some pid) :
    Frame st mine (st'.spawn pid p) := by
  refine ⟨fun q hq hmine => ?_, h.keys, h.nextPid⟩
  have hne : q ≠ pid := by
    rintro rfl
    rcases hpid with hle | hpid
    · exact absurd hq (Nat.not_lt_of_le hle)
    · exact hmine hpid
  exact (Function.update_of_ne hne _ _).trans (h.procs q hq hmine)

theorem finish (h : Frame st mine st') (hpid : st.nextPid ≤ pid ∨ mine = some pid) :
    Frame st mine (st'.finish pid) := by
  refine ⟨fun q hq hmine => ?_, h.keys, h.nextPid⟩
  have hne : q ≠ pid := by
    rintro rfl
    rcases hpid with hle | hpid
    · exact absurd hq (Nat.not_lt_of_le hle)
    · exact hmine hpid
  exact (Function.update_of_ne hne _ _).trans (h.procs q hq hmine)

theorem insert {s : Session} (h : Frame st mine st') : Frame st mine (st'.insert sid s) :=
  ⟨h.procs, h.keys.trans SlotMap.keys_push, h.nextPid⟩

theorem modify (h : Frame st mine st') : Frame st mine (st'.modify sid f) :=
  h.congr rfl SlotMap.keys_modify rfl

theorem evict (h : Frame st mine st') : Frame st mine (st'.evict sid) :=
  h.congr rfl SlotMap.keys_delete rfl

theorem setBusy {b : Bool} (h : Frame st mine st') : Frame st mine (st'.setBusy b) :=
  h.congr rfl rfl rfl

theorem setStats {x : SellerStats} (h : Frame st mine st') : Frame st mine (st'.setStats x) :=
  h.congr rfl rfl rfl

theorem setUser {x : User} (h : Frame st mine st') : Frame st mine (st'.setUser u x) :=
  h.congr rfl rfl rfl

theorem addSpend {n : ℕ} (h : Frame st mine st') : Frame st mine (st'.addSpend u n) :=
  h.congr rfl rfl rfl

theorem claim {c : Code} {n : ℕ} (h : Frame st mine st') : Frame st mine (st'.claim u c n) :=
  h.congr rfl rfl rfl

theorem persistSessions (h : Frame st mine st') : Frame st mine (st'.persistSessions ok) := by
  unfold State.persistSessions
  split
  · exact h.congr rfl rfl rfl
  · exact h

theorem closeSession (h : Frame st mine st') : Frame st mine (st'.closeSession sid w) :=
  h.modify.evict.persistSessions

theorem releaseCurrent (h : Frame st mine st') : Frame st mine (st'.releaseCurrent sid) := by
  unfold State.releaseCurrent
  split
  · exact h.modify
  · exact h

theorem land (h : Frame st mine st') : Frame st mine (st'.land note run) := by
  unfold State.land
  split
  · exact h.congr rfl rfl rfl
  · exact h

theorem captureClaimed (h : Frame st mine st') : Frame st mine (st'.captureClaimed u).1 := by
  unfold State.captureClaimed
  split
  · exact h
  · exact h.congr rfl rfl rfl

theorem saveUsers (h : Frame st mine st') (hsave : st'.saveUsers ok = some st₁) :
    Frame st mine st₁ := by
  obtain rfl := saveUsers_eq_some hsave
  exact h.congr rfl rfl rfl

theorem recordRefund (h : Frame st mine st') (hrec : st'.recordRefund u file ok = some st₁) :
    Frame st mine st₁ := by
  obtain ⟨-, _, rfl⟩ := recordRefund_eq_some hrec
  exact h.congr rfl rfl rfl

theorem startJoao (h : Frame st mine st') : Frame st mine (st'.startJoao file).1 := by
  unfold State.startJoao
  split
  · exact h
  · exact h.arrive.spawn (.inl h.nextPid)

end Frame

theorem procs_land : (st.land note run).procs = st.procs := by
  unfold State.land
  split <;> rfl

theorem nextPid_land : (st.land note run).nextPid = st.nextPid := by
  unfold State.land
  split <;> rfl

theorem Handled.after (h : Frame st mine st') (h' : Handled st' mine kinds r) :
    Handled st mine kinds r :=
  ⟨h.trans h'.frame, h'.kinds⟩

theorem kind_refundEvents : ∀ e ∈ refundEvents sid u file, e.kind = .closing := by
  cases file <;> simp [refundEvents, Event.kind]

theorem kind_startJoao : ∀ e ∈ (st.startJoao file).2, e.kind = .closing := by
  cases file <;> simp [State.startJoao, Event.kind]

end Operations

/-! ## Handlers -/

section Handlers

variable {st : State} {mine : Option Pid} {sid : SessionId} {pid : Pid} {w : Writes}
  {u : WalletId} {s : Session} {charge attempt cursor spent : ℕ} {prompt : JsString}
  {tier : String} {run : SettleRun} {note : EscrowNote}

theorem handled_sessionStart (req : StartRequest) : Handled st none [] (st.sessionStart req) := by
  unfold sessionStart
  dsimp only
  split
  · exact ⟨Frame.refl.arrive, by simp [Event.kind]⟩
  · split
    · exact ⟨Frame.refl.arrive, by simp [Event.kind]⟩
    · split
      · exact ⟨Frame.refl.arrive, by simp [Event.kind]⟩
      · split
        · split
          · exact ⟨Frame.refl.arrive, by simp [Event.kind]⟩
          · exact ⟨Frame.refl.arrive.spawn (.inl le_rfl), by simp⟩
        · exact ⟨Frame.refl.arrive.spawn (.inl le_rfl), by simp⟩

theorem handled_escrowBuilt {built : Option (ℕ × EscrowParams)} :
    Handled st (some pid) [] (st.escrowBuilt pid u tier sid built w) := by
  cases built with
  | none => exact ⟨Frame.refl.finish (.inr rfl), by simp [State.escrowBuilt, Event.kind]⟩
  | some b =>
      exact ⟨(Frame.refl.finish (.inr rfl)).insert.persistSessions,
        by simp [State.escrowBuilt, Event.kind]⟩

theorem handled_sessionEscrow : Handled st none [] (st.sessionEscrow sid) := by
  unfold sessionEscrow
  dsimp only
  split
  · exact ⟨Frame.refl.arrive, by simp [Event.kind]⟩
  · exact ⟨Frame.refl.arrive.spawn (.inl le_rfl), by simp⟩

theorem handled_escrowVerified (committed : Bool) :
    Handled st (some pid) [] (st.escrowVerified pid sid committed w) := by
  unfold escrowVerified
  dsimp only
  split
  · exact ⟨(Frame.refl.finish (.inr rfl)).modify.persistSessions, by simp [Event.kind]⟩
  · exact ⟨Frame.refl.finish (.inr rfl), by simp [Event.kind]⟩

theorem handled_chat (req : ChatRequest) : Handled st none [] (st.chat req) := by
  unfold State.chat
  dsimp only
  split
  · exact ⟨Frame.refl.arrive, by simp [Event.kind]⟩
  · split
    · exact ⟨(Frame.refl.arrive.spawn (.inl le_rfl)).setBusy.modify, by simp [Event.kind]⟩
    · exact ⟨Frame.refl.arrive, by simp [Event.kind]⟩

theorem handled_deliver {a : Answer} :
    Handled st mine [.reply] (st.deliver pid sid s prompt tier spent a w) := by
  have hcharged : Frame st mine ((((st.modify sid (pushCharge a st.now)).persistSessions
      w.sessions).modify sid (pushTurns prompt a)).addSpend s.buyerId a.charge) :=
    Frame.refl.modify.persistSessions.modify.addSpend
  unfold deliver
  dsimp only
  split
  · exact ⟨hcharged, by simp [Event.kind]⟩
  · next hsave => exact ⟨(hcharged.saveUsers hsave).setStats, by simp [Event.kind]⟩

theorem handled_chatAnswered (res : Except String Answer) :
    Handled st (some pid) [.reply] (st.chatAnswered pid sid prompt tier spent res w) := by
  have hfreed : Frame st (some pid) ((st.finish pid).setBusy false) :=
    (Frame.refl.finish (.inr rfl)).setBusy
  unfold chatAnswered
  dsimp only
  split
  · exact ⟨hfreed, by simp [Event.kind]⟩
  · exact ⟨hfreed, by simp⟩
  · split
    · exact ⟨hfreed, by simp [Event.kind]⟩
    · split
      · exact ⟨hfreed, by simp [Event.kind]⟩
      · exact handled_deliver.after hfreed

theorem handled_sessionEnd : Handled st none [.settleStart] (st.sessionEnd sid) := by
  unfold sessionEnd
  dsimp only
  split
  · exact ⟨Frame.refl.arrive, by simp [Event.kind]⟩
  · split
    · exact ⟨Frame.refl.arrive, by simp [Event.kind]⟩
    · split
      · exact ⟨Frame.refl.arrive, by simp [Event.kind]⟩
      · split
        · exact ⟨Frame.refl.arrive, by simp [Event.kind]⟩
        · exact ⟨Frame.refl.arrive.modify.spawn (.inl le_rfl), by simp [Event.kind]⟩

theorem handled_endReturned :
    Handled st (some pid) [.closing] (st.endReturned pid sid s charge attempt run w) := by
  have hreleased : Frame st (some pid) ((st.modify sid release).finish pid) :=
    Frame.refl.modify.finish (.inr rfl)
  unfold endReturned
  dsimp only
  split
  · split
    · exact ⟨hreleased, by simp [Event.kind]⟩
    · next hrec =>
        refine ⟨((Frame.refl.recordRefund hrec).setStats.closeSession.modify.finish
          (.inr rfl)).startJoao, fun e he => ?_⟩
        simp only [List.cons_append, List.append_assoc, List.mem_cons, List.mem_append,
          List.not_mem_nil, or_false] at he
        rcases he with rfl | he | rfl | he | rfl | rfl
        · exact .inr (List.mem_singleton_self _)
        · exact .inr (List.mem_singleton.mpr (kind_refundEvents e he))
        · exact .inr (List.mem_singleton_self _)
        · exact .inr (List.mem_singleton.mpr (kind_startJoao e he))
        · exact .inl rfl
        · exact .inl rfl
  · exact ⟨Frame.refl.closeSession.modify.finish (.inr rfl), by simp [Event.kind]⟩
  · split
    · exact ⟨Frame.refl.spawn (.inr rfl), by simp [Event.kind]⟩
    · exact ⟨hreleased, by simp [Event.kind]⟩
  · exact ⟨hreleased, by simp [Event.kind]⟩

theorem handled_endWoken :
    Handled st (some pid) [.settleStart] (st.endWoken pid sid charge attempt note) :=
  ⟨Frame.refl.spawn (.inr rfl), by simp [State.endWoken, Event.kind]⟩

/-- The sweep that walks on is a new handler, or the one that has been answered. -/
theorem handled_sweepFrom {st₀ : State} (h : Frame st₀ mine st)
    (hpid : st₀.nextPid ≤ pid ∨ mine = some pid) :
    Handled st₀ mine [.settleStart] (st.sweepFrom pid cursor) := by
  unfold sweepFrom
  split
  · exact ⟨h.finish hpid, by simp⟩
  · split
    · exact ⟨h.finish hpid, by simp⟩
    · exact ⟨h.modify.spawn hpid, by simp [Event.kind]⟩

theorem handled_sweepSettled : Handled st mine [.closing] (st.sweepSettled sid s run w) := by
  unfold sweepSettled
  split
  · split
    · exact ⟨Frame.refl.releaseCurrent, by simp⟩
    · next hrec =>
        refine ⟨(Frame.refl.recordRefund hrec).closeSession.releaseCurrent.startJoao,
          fun e he => .inr ?_⟩
        rcases List.mem_append.mp he with he | he
        · exact List.mem_singleton.mpr (kind_refundEvents e he)
        · rcases List.mem_cons.mp he with rfl | he
          · exact List.mem_singleton_self _
          · exact List.mem_singleton.mpr (kind_startJoao e he)
  · exact ⟨Frame.refl.closeSession.releaseCurrent, by simp [Event.kind]⟩
  · exact ⟨Frame.refl.releaseCurrent, by simp⟩

theorem handled_sweepReturned : Handled st (some pid) [.closing, .settleStart]
    (st.sweepReturned pid sid s charge cursor run w) := by
  obtain ⟨hframe, hkinds⟩ :
      Handled st (some pid) [.closing] (st.sweepSettled sid s run w) := handled_sweepSettled
  obtain ⟨hframe', hkinds'⟩ : Handled st (some pid) [.settleStart]
      ((st.sweepSettled sid s run w).1.sweepFrom pid cursor) :=
    handled_sweepFrom hframe (.inr rfl)
  refine ⟨hframe', fun e he => ?_⟩
  rcases List.mem_append.mp he with he | he
  · rcases List.mem_cons.mp he with rfl | he
    · exact .inr (by simp [Event.kind])
    · exact (hkinds e he).imp_right (List.mem_append_left [EventKind.settleStart])
  · exact (hkinds' e he).imp_right (List.mem_cons_of_mem EventKind.closing)

theorem handled_redeem (c : String) : Handled st none [.mint] (st.redeem u c) := by
  unfold State.redeem
  dsimp only
  split
  · exact ⟨Frame.refl.arrive, by simp [Event.kind]⟩
  · split
    · exact ⟨Frame.refl.arrive, by simp [Event.kind]⟩
    · split
      · exact ⟨Frame.refl.arrive.setUser, by simp [Event.kind]⟩
      · split
        · exact ⟨Frame.refl.arrive.setUser, by simp [Event.kind]⟩
        · exact ⟨Frame.refl.arrive.setUser.captureClaimed.spawn (.inl le_rfl),
            by simp [Event.kind]⟩

theorem handled_funded {c : Code} {n : ℕ} (ok : Bool) :
    Handled st (some pid) [.mint] (st.funded pid u c n ok w) := by
  have hclaimed : Frame st (some pid) ((st.finish pid).claim u c n) :=
    (Frame.refl.finish (.inr rfl)).claim
  unfold State.funded
  dsimp only
  split
  · split
    · exact ⟨hclaimed, by simp [Event.kind]⟩
    · next hsave => exact ⟨hclaimed.saveUsers hsave, by simp [Event.kind]⟩
  · exact ⟨Frame.refl.finish (.inr rfl), by simp [Event.kind]⟩

theorem handled_register (req : RegisterRequest) : Handled st none [] (st.register req w) := by
  unfold State.register
  dsimp only
  split
  · exact ⟨Frame.refl.arrive, by simp [Event.kind]⟩
  · split
    · exact ⟨Frame.refl.arrive, by simp [Event.kind]⟩
    · split
      · exact ⟨Frame.refl.arrive.setUser, by simp⟩
      · next hsave => exact ⟨Frame.refl.arrive.setUser.saveUsers hsave, by simp [Event.kind]⟩

theorem handled_login (password hash : String) :
    Handled st none [] (st.login u password hash) := by
  unfold State.login
  dsimp only
  split
  · exact ⟨Frame.refl.arrive, by simp [Event.kind]⟩
  · split
    · exact ⟨Frame.refl.arrive, by simp [Event.kind]⟩
    · split <;> exact ⟨Frame.refl.arrive, by simp [Event.kind]⟩

end Handlers

/-! ## Steps -/

section Steps

variable {st : State} {i : Input} {r : State × List Event}

/-- A step of one process moves only the handler it answers. -/
theorem handled_step (hi : step st i = some r) (hone : OneProcess st i) :
    Handled st i.act.returns i.act.kinds r := by
  obtain ⟨act, w⟩ := i
  cases steps_of_step hi with
  | tick ms => exact ⟨Frame.refl.congr rfl rfl rfl, by simp⟩
  | fundNote h => exact ⟨Frame.refl.congr rfl rfl rfl, by simp⟩
  | consumeNote h => exact ⟨Frame.refl.congr rfl rfl rfl, by simp⟩
  | connect => exact ⟨Frame.refl, by simp [Event.kind]⟩
  | start req => exact handled_sessionStart req
  | escrowFailed hp => exact handled_escrowBuilt
  | escrowBuilt hp hnew => exact handled_escrowBuilt
  | escrow sid => exact handled_sessionEscrow
  | escrowVerified committed hp => exact handled_escrowVerified committed
  | chat req => exact handled_chat req
  | answered res hp => exact handled_chatAnswered res
  | endSession sid => exact handled_sessionEnd
  | endReturned hp _ _ _ => exact handled_endReturned.after Frame.refl.land
  | endWoken hp _ _ => exact handled_endWoken
  | sweep => exact handled_sweepFrom Frame.refl.arrive (.inl le_rfl)
  | sweepReturned hp _ _ _ => exact handled_sweepReturned.after Frame.refl.land
  | joaoReturned hp => exact ⟨Frame.refl.finish (.inr rfl), by simp⟩
  | redeem u c => exact handled_redeem c
  | funded ok hp => exact handled_funded ok
  | register req => exact handled_register req
  | login u password hash => exact handled_login password hash
  | restart => exact hone.elim

/-- The actions whose handlers write to a session, or to the snapshot. -/
def Action.writesSessions : Action → Bool
  | .escrowBuilt _ _ params => params.isSome
  | .escrowVerified _ _ => true
  | .chat _ => true
  | .answered _ _ => true
  | .endSession _ => true
  | .endReturned _ _ => true
  | .sweep => true
  | .sweepReturned _ _ => true
  | .restart => true
  | _ => false

/-- The other steps leave the sessions and their file as they were. -/
theorem sessions_step {act : Action} {w : Writes} (hi : step st ⟨act, w⟩ = some r)
    (hact : act.writesSessions = false) :
    (r.1.disk.sessions, r.1.sessions) = (st.disk.sessions, st.sessions) := by
  cases steps_of_step hi with
  | tick | fundNote | consumeNote | connect | escrowFailed | endWoken | joaoReturned => rfl
  | start req =>
      unfold sessionStart
      dsimp only
      repeat' split
      all_goals rfl
  | escrow sid =>
      unfold sessionEscrow
      dsimp only
      split <;> rfl
  | redeem u c =>
      unfold State.redeem captureClaimed
      dsimp only
      repeat' split
      all_goals rfl
  | funded ok hp =>
      unfold State.funded
      dsimp only
      split
      · split
        · rfl
        · next hsave =>
            obtain rfl := saveUsers_eq_some hsave
            rfl
      · rfl
  | register req =>
      unfold State.register
      dsimp only
      split
      · rfl
      · split
        · rfl
        · split
          · rfl
          · next hsave =>
              obtain rfl := saveUsers_eq_some hsave
              rfl
  | login u password hash =>
      unfold State.login
      dsimp only
      repeat' split
      all_goals rfl
  | escrowBuilt | escrowVerified | chat | answered | endSession | endReturned => cases hact
  | sweep | sweepReturned | restart => cases hact

/-- In what kinds of events a step takes part, a restart in none. -/
theorem kind_step (hi : step st i = some r) :
    ∀ e ∈ r.2, e.kind = .plain ∨ e.kind ∈ i.act.kinds := by
  by_cases hact : i.act = .restart
  · obtain rfl : (_, []) = r := by simpa [step, hact] using hi
    simp
  · exact (handled_step hi (oneProcess_iff.mpr hact)).kinds

end Steps

end Bartok.Bridge
