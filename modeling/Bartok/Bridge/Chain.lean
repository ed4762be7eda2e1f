import Bartok.Bridge.Step

/-!
# The fate of the escrow notes

No handler writes to the chain: what is on it changes when a buyer funds a note,
when somebody consumes one, and when a `settle_session` run lands. A note is
funded once and spent once, and stays spent.
-/

namespace Bartok.Bridge

open Foundation Miden State

/-! ## Handlers leave the chain alone -/

section Chain

variable {st st' : State} {sid : SessionId} {pid : Pid} {w : Writes} {u : WalletId} {ok : Bool}
  {s : Session} {file : Option NoteFile} {run : SettleRun} {cursor : ℕ}

theorem chain_persistSessions : (st.persistSessions ok).chain = st.chain := by
  unfold persistSessions
  split <;> rfl

theorem chain_closeSession : (st.closeSession sid w).chain = st.chain := chain_persistSessions

theorem chain_releaseCurrent : (st.releaseCurrent sid).chain = st.chain := by
  unfold releaseCurrent
  split <;> rfl

theorem chain_startJoao : (st.startJoao file).1.chain = st.chain := by
  unfold startJoao
  split <;> rfl

theorem chain_captureClaimed : (st.captureClaimed u).1.chain = st.chain := by
  unfold captureClaimed
  split <;> rfl

theorem chain_saveUsers (h : st.saveUsers ok = some st') : st'.chain = st.chain := by
  obtain rfl := saveUsers_eq_some h
  rfl

theorem chain_recordRefund (h : st.recordRefund u file ok = some st') : st'.chain = st.chain := by
  obtain ⟨-, _, rfl⟩ := recordRefund_eq_some h
  rfl

theorem chain_chatAnswered {prompt : JsString} {tier : String} {spent : ℕ}
    (res : Except String Answer) :
    (st.chatAnswered pid sid prompt tier spent res w).1.chain = st.chain := by
  unfold chatAnswered
  dsimp only
  split
  · rfl
  · rfl
  · split
    · rfl
    · split
      · rfl
      · unfold deliver
        dsimp only
        split
        · exact chain_persistSessions
        · next hsave => exact (chain_saveUsers hsave).trans chain_persistSessions

theorem chain_endReturned {charge attempt : ℕ} :
    (st.endReturned pid sid s charge attempt run w).1.chain = st.chain := by
  unfold endReturned
  dsimp only
  split
  · split
    · rfl
    · next hrec =>
        have hkept := chain_recordRefund hrec
        rw [chain_startJoao]
        exact chain_closeSession.trans hkept
  · exact chain_closeSession
  · split <;> rfl
  · rfl

theorem chain_sweepFrom : (st.sweepFrom pid cursor).1.chain = st.chain := by
  unfold sweepFrom
  split
  · rfl
  · split <;> rfl

theorem chain_sweepSettled : (st.sweepSettled sid s run w).1.chain = st.chain := by
  unfold sweepSettled
  split
  · split
    · exact chain_releaseCurrent
    · next hrec =>
        rw [chain_startJoao, chain_releaseCurrent, chain_closeSession, chain_recordRefund hrec]
  · rw [chain_releaseCurrent, chain_closeSession]
  · exact chain_releaseCurrent

theorem chain_sweepReturned {charge : ℕ} :
    (st.sweepReturned pid sid s charge cursor run w).1.chain = st.chain :=
  chain_sweepFrom.trans chain_sweepSettled

/-! ## A note only moves on -/

/-- On the way from `chain` to `chain'` a note only moves on: to the chain and, once
there, to be spent. -/
def Onward (chain chain' : EscrowNote → NoteStatus) : Prop :=
  ∀ note, chain note = .unfunded ∨ chain' note = chain note ∨ chain' note = .spent

theorem onward_of_eq {chain chain' : EscrowNote → NoteStatus} (h : chain' = chain) :
    Onward chain chain' := fun _ => .inr (.inl (h ▸ rfl))

/-- A note that is on chain stays there, spent or not. -/
theorem Onward.lasts {chain chain' : EscrowNote → NoteStatus} {note : EscrowNote}
    (h : Onward chain chain') (hnote : chain note ≠ .unfunded) : chain' note ≠ .unfunded := by
  rcases h note with hnone | heq | hspent
  · exact absurd hnone hnote
  · rwa [heq]
  · rw [hspent]
    nofun

theorem Onward.spent {chain chain' : EscrowNote → NoteStatus} {note : EscrowNote}
    (h : Onward chain chain') (hnote : chain note = .spent) : chain' note = .spent := by
  rcases h note with hnone | heq | hspent
  · cases hnone.symm.trans hnote
  · exact heq.trans hnote
  · exact hspent

theorem onward_fundNote {note : EscrowNote} (h : st.chain note = .unfunded) :
    Onward st.chain (st.setChain note .committed).chain := by
  intro note'
  by_cases hsame : note' = note
  · exact .inl (hsame ▸ h)
  · exact .inr (.inl (Function.update_of_ne hsame _ _))

theorem onward_spend {note : EscrowNote} : Onward st.chain (st.setChain note .spent).chain := by
  intro note'
  by_cases hsame : note' = note
  · subst hsame
    exact .inr (.inr (Function.update_self _ _ _))
  · exact .inr (.inl (Function.update_of_ne hsame _ _))

theorem onward_land {note : EscrowNote} : Onward st.chain (st.land note run).chain := by
  unfold State.land
  split
  · exact onward_spend
  · exact onward_of_eq rfl

/-- A run that landed has spent the note. -/
theorem spent_land {note : EscrowNote} (h : run.landed.isSome = true) :
    (st.land note run).chain note = .spent := by
  rw [State.land, if_pos h]
  exact Function.update_self _ _ _

/-- No step takes a note back. -/
theorem onward_step {i : Input} {r : State × List Event} (hi : step st i = some r) :
    Onward st.chain r.1.chain := by
  obtain ⟨act, w⟩ := i
  cases steps_of_step hi with
  | tick | connect | restart | joaoReturned | endWoken => exact onward_of_eq rfl
  | escrow sid =>
      apply onward_of_eq
      unfold sessionEscrow
      dsimp only
      split <;> rfl
  | fundNote h => exact onward_fundNote h
  | consumeNote h => exact onward_spend
  | start req =>
      apply onward_of_eq
      unfold sessionStart
      dsimp only
      repeat' split
      all_goals rfl
  | escrowFailed hp => exact onward_of_eq rfl
  | escrowBuilt hp hnew => exact onward_of_eq chain_persistSessions
  | escrowVerified committed hp =>
      apply onward_of_eq
      cases committed with
      | false => rfl
      | true => exact chain_persistSessions
  | chat req =>
      apply onward_of_eq
      unfold State.chat
      dsimp only
      repeat' split
      all_goals rfl
  | answered res hp => exact onward_of_eq (chain_chatAnswered res)
  | endSession sid =>
      apply onward_of_eq
      unfold sessionEnd
      dsimp only
      repeat' split
      all_goals rfl
  | endReturned hp hslot hnote hland =>
      rw [chain_endReturned]
      exact onward_land
  | sweep => exact onward_of_eq chain_sweepFrom
  | sweepReturned hp hslot hnote hland =>
      rw [chain_sweepReturned]
      exact onward_land
  | redeem u c =>
      apply onward_of_eq
      unfold State.redeem
      dsimp only
      repeat' split
      all_goals first | rfl | exact chain_captureClaimed
  | funded ok hp =>
      apply onward_of_eq
      unfold State.funded
      dsimp only
      split
      · split
        · rfl
        · next hsave => exact (chain_saveUsers hsave).trans rfl
      · rfl
  | register req =>
      apply onward_of_eq
      unfold State.register
      dsimp only
      split
      · rfl
      · split
        · rfl
        · split
          · rfl
          · next hsave => exact (chain_saveUsers hsave).trans rfl
  | login u password hash =>
      apply onward_of_eq
      unfold State.login
      dsimp only
      repeat' split
      all_goals rfl

end Chain

end Bartok.Bridge
