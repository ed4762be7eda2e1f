import Bartok.Bridge.FreeReply
import Bartok.Foundation.Outcome
import Bartok.Miden.SettleSession

/-!
# Charges stay within the hold

`/api/chat` reads the running total before it waits for the answer and compares
it with the hold afterwards. The total is still right then because the `busy`
lock lets one answer be awaited at a time, over all sessions. `Solvent` is the
invariant; it speaks about the snapshot too, so it survives a restart.
-/

namespace Bartok.Bridge

open Foundation Miden State

/-- A session whose charges fit its hold, and whose escrow is the note that was
built for it. -/
structure Sound (s : Session) : Prop where
  charges : s.totalCharge ≤ s.budget
  escrow : ∀ note, s.escrowNoteB64 = some note → note = s.params.noteB64
  amount : s.params.noteB64.amount = s.budget
  bounded : s.budget ≤ holdBartok .genius

/-- A write that charges nothing and arms with the session's own note at most. -/
def KeepsHold (f : Session → Session) : Prop :=
  ∀ s, (f s).charges = s.charges ∧ (f s).budget = s.budget ∧ (f s).params = s.params ∧
    ((f s).escrowNoteB64 = s.escrowNoteB64 ∨ (f s).escrowNoteB64 = some s.params.noteB64)

def Proc.isAnswer : Proc → Bool
  | .runAnswer _ _ _ _ => true
  | _ => false

/-- What a suspended handler relies on. -/
def Proc.Covered (st : State) : Proc → Prop
  | .buildEscrow _ _ budget => ∀ b ∈ budget, b ≤ holdBartok .genius
  | .runAnswer sid _ _ spent =>
      st.busy = true ∧ ∃ slot, st.sessions.slot? sid = some slot ∧ slot.val.totalCharge = spent
  | .endSettle sid charge _ => ∃ slot, st.sessions.slot? sid = some slot ∧ charge ≤ slot.val.budget
  | .endBackoff sid charge _ => ∃ slot, st.sessions.slot? sid = some slot ∧ charge ≤ slot.val.budget
  | .sweepSettle sid charge _ =>
      ∃ slot, st.sessions.slot? sid = some slot ∧ charge ≤ slot.val.budget
  | _ => True

structure Solvent (st : State) : Prop where
  sessions : ∀ sid slot, st.sessions.slot? sid = some slot → Sound slot.val
  saved : ∀ m, st.disk.sessions = some m → ∀ sid slot, m.slot? sid = some slot → Sound slot.val
  covered : ∀ pid p, st.procs pid = some p → p.Covered st
  alone : ∀ pid pid' p p', st.procs pid = some p → st.procs pid' = some p' →
    p.isAnswer = true → p'.isAnswer = true → pid = pid'

section Operations

variable {st st' : State} {sid : SessionId} {pid : Pid} {p : Proc} {f : Session → Session}
  {s : Session}

theorem Sound.keep (h : Sound s) (hf : KeepsHold f) : Sound (f s) := by
  obtain ⟨hcharges, hbudget, hparams, hescrow⟩ := hf s
  refine ⟨?_, fun note hnote => ?_, ?_, ?_⟩
  · rw [Session.totalCharge, hcharges, hbudget]
    exact h.charges
  · rw [hparams]
    rcases hescrow with he | he
    · exact h.escrow note (he ▸ hnote)
    · exact (Option.some.inj (he ▸ hnote)).symm
  · rw [hparams, hbudget, h.amount]
  · rw [hbudget]
    exact h.bounded

/-- Sessions may come, and go from the map, but keep their charges and holds. -/
theorem Proc.Covered.keep (h : p.Covered st) (hbusy : st'.busy = st.busy)
    (hslots : ∀ sid slot, st.sessions.slot? sid = some slot →
      ∃ slot', st'.sessions.slot? sid = some slot' ∧
        slot'.val.totalCharge = slot.val.totalCharge ∧ slot'.val.budget = slot.val.budget) :
    p.Covered st' := by
  have hsettle : ∀ sid charge,
      (∃ slot, st.sessions.slot? sid = some slot ∧ charge ≤ slot.val.budget) →
      ∃ slot, st'.sessions.slot? sid = some slot ∧ charge ≤ slot.val.budget := by
    rintro sid charge ⟨slot, hslot, hle⟩
    obtain ⟨slot', hslot', -, hbudget⟩ := hslots sid slot hslot
    exact ⟨slot', hslot', hbudget ▸ hle⟩
  cases p with
  | runAnswer sid prompt tier spent =>
      obtain ⟨hb, slot, hslot, hspent⟩ := h
      obtain ⟨slot', hslot', htotal, -⟩ := hslots sid slot hslot
      exact ⟨hbusy.trans hb, slot', hslot', htotal.trans hspent⟩
  | endSettle sid charge attempt => exact hsettle sid charge h
  | endBackoff sid charge attempt => exact hsettle sid charge h
  | sweepSettle sid charge cursor => exact hsettle sid charge h
  | _ => exact h

theorem Solvent.congr (h : Solvent st) (hsessions : st'.sessions = st.sessions)
    (hdisk : st'.disk.sessions = st.disk.sessions) (hprocs : st'.procs = st.procs)
    (hbusy : st'.busy = st.busy) : Solvent st' := by
  refine ⟨?_, ?_, fun pid p hp => ?_, ?_⟩
  · rw [hsessions]
    exact h.sessions
  · rw [hdisk]
    exact h.saved
  · rw [hprocs] at hp
    refine (h.covered pid p hp).keep hbusy fun sid slot hslot => ⟨slot, ?_, rfl, rfl⟩
    rw [hsessions]
    exact hslot
  · rw [hprocs]
    exact h.alone

theorem Solvent.modify (h : Solvent st) (hf : KeepsHold f) : Solvent (st.modify sid f) := by
  refine ⟨fun sid' slot hslot => ?_, h.saved, fun pid p hp => ?_, h.alone⟩
  · simp only [State.modify, SlotMap.slot?_modify] at hslot
    split at hslot
    · obtain ⟨slot', hslot', rfl⟩ := Option.map_eq_some_iff.mp hslot
      exact (h.sessions sid slot' hslot').keep hf
    · exact h.sessions sid' slot hslot
  · refine (h.covered pid p hp).keep rfl fun sid' slot hslot => ?_
    simp only [State.modify, SlotMap.slot?_modify]
    split
    · next hsid =>
        refine ⟨_, Option.map_eq_some_iff.mpr ⟨slot, hsid ▸ hslot, rfl⟩, ?_, (hf slot.val).2.1⟩
        rw [Session.totalCharge, Session.totalCharge, (hf slot.val).1]
    · exact ⟨slot, hslot, rfl, rfl⟩

theorem Solvent.insert (h : Solvent st) (hs : Sound s) (hnew : st.sessions.slot? sid = none) :
    Solvent (st.insert sid s) := by
  refine ⟨fun sid' slot hslot => ?_, h.saved, fun pid p hp => ?_, h.alone⟩
  · simp only [State.insert, SlotMap.slot?_push hnew] at hslot
    split at hslot
    · cases hslot
      exact hs
    · exact h.sessions sid' slot hslot
  · refine (h.covered pid p hp).keep rfl fun sid' slot hslot => ⟨slot, ?_, rfl, rfl⟩
    simp only [State.insert, SlotMap.slot?_push hnew]
    split
    · next hsid =>
        subst hsid
        rw [hnew] at hslot
        cases hslot
    · exact hslot

theorem Solvent.evict (h : Solvent st) : Solvent (st.evict sid) := by
  refine ⟨fun sid' slot hslot => ?_, h.saved, fun pid p hp => ?_, h.alone⟩
  · simp only [State.evict, SlotMap.slot?_delete] at hslot
    split at hslot
    · obtain ⟨slot', hslot', rfl⟩ := Option.map_eq_some_iff.mp hslot
      exact h.sessions sid slot' hslot'
    · exact h.sessions sid' slot hslot
  · refine (h.covered pid p hp).keep rfl fun sid' slot hslot => ?_
    simp only [State.evict, SlotMap.slot?_delete]
    split
    · next hsid => exact ⟨_, Option.map_eq_some_iff.mpr ⟨slot, hsid ▸ hslot, rfl⟩, rfl, rfl⟩
    · exact ⟨slot, hslot, rfl, rfl⟩

theorem Solvent.persistSessions (h : Solvent st) {ok : Bool} : Solvent (st.persistSessions ok) := by
  unfold State.persistSessions
  split
  · refine ⟨h.sessions, fun m hm sid slot hslot => ?_, fun pid p hp => ?_, h.alone⟩
    · cases hm
      rw [SlotMap.slot?_compact, Option.filter_eq_some_iff] at hslot
      exact h.sessions sid slot hslot.1
    · exact (h.covered pid p hp).keep rfl fun sid slot hslot => ⟨slot, hslot, rfl, rfl⟩
  · exact h

theorem procs_spawn {q : Pid} {p' : Proc} (hq : (st.spawn pid p).procs q = some p') :
    q = pid ∧ p' = p ∨ st.procs q = some p' := by
  by_cases hqp : q = pid
  · subst hqp
    simp only [State.spawn, Function.update_self, Option.some.injEq] at hq
    exact .inl ⟨rfl, hq.symm⟩
  · simp only [State.spawn, Function.update_of_ne hqp] at hq
    exact .inr hq

theorem procs_finish {q : Pid} {p' : Proc} (hq : (st.finish pid).procs q = some p') :
    q ≠ pid ∧ st.procs q = some p' := by
  by_cases hqp : q = pid
  · simp [State.finish, hqp] at hq
  · exact ⟨hqp, by simpa [State.finish, hqp] using hq⟩

/-- A handler that awaits no answer starts, or moves to its next `await`. -/
theorem Solvent.spawn (h : Solvent st) (hanswer : p.isAnswer = false) (hp : p.Covered st) :
    Solvent (st.spawn pid p) := by
  refine ⟨h.sessions, h.saved, fun q p' hq => ?_, fun q q' p₁ p₂ hq hq' h₁ h₂ => ?_⟩
  · have hcov : p'.Covered st := by
      rcases procs_spawn hq with ⟨-, rfl⟩ | hq
      · exact hp
      · exact h.covered q p' hq
    exact hcov.keep rfl fun sid slot hslot => ⟨slot, hslot, rfl, rfl⟩
  · rcases procs_spawn hq with ⟨-, rfl⟩ | hq
    · rw [hanswer] at h₁
      cases h₁
    · rcases procs_spawn hq' with ⟨-, rfl⟩ | hq'
      · rw [hanswer] at h₂
        cases h₂
      · exact h.alone q q' p₁ p₂ hq hq' h₁ h₂

theorem Solvent.finish (h : Solvent st) : Solvent (st.finish pid) := by
  refine ⟨h.sessions, h.saved, fun q p hq => ?_, fun q q' p p' hq hq' => ?_⟩
  · exact (h.covered q p (procs_finish hq).2).keep rfl fun sid slot hslot => ⟨slot, hslot, rfl, rfl⟩
  · exact h.alone q q' p p' (procs_finish hq).2 (procs_finish hq').2

theorem Solvent.saveUsers (h : Solvent st) {ok : Bool} (hsave : st.saveUsers ok = some st') :
    Solvent st' := by
  obtain rfl := saveUsers_eq_some hsave
  exact h.congr rfl rfl rfl rfl

theorem Solvent.recordRefund (h : Solvent st) {w : WalletId} {file : Option NoteFile} {ok : Bool}
    (hrec : st.recordRefund w file ok = some st') : Solvent st' := by
  obtain ⟨-, _, rfl⟩ := recordRefund_eq_some hrec
  exact h.congr rfl rfl rfl rfl

theorem Solvent.setUser (h : Solvent st) {w : WalletId} {u : User} : Solvent (st.setUser w u) :=
  h.congr rfl rfl rfl rfl

theorem Solvent.arrive (h : Solvent st) : Solvent st.arrive := h.congr rfl rfl rfl rfl

theorem Solvent.setStats (h : Solvent st) {stats : SellerStats} : Solvent (st.setStats stats) :=
  h.congr rfl rfl rfl rfl

theorem Solvent.setChain (h : Solvent st) {note : EscrowNote} {status : NoteStatus} :
    Solvent (st.setChain note status) := h.congr rfl rfl rfl rfl

theorem Solvent.land (h : Solvent st) {note : EscrowNote} {run : SettleRun} :
    Solvent (st.land note run) := by
  unfold State.land
  split
  · exact h.setChain
  · exact h

theorem Solvent.captureClaimed (h : Solvent st) {w : WalletId} :
    Solvent (st.captureClaimed w).1 := by
  unfold State.captureClaimed
  split
  · exact h
  · exact h.congr rfl rfl rfl rfl

theorem Solvent.closeSession (h : Solvent st) {w : Writes} : Solvent (st.closeSession sid w) :=
  (h.modify (f := markSettled) fun _ => ⟨rfl, rfl, rfl, .inl rfl⟩).evict.persistSessions

theorem keepsHold_release : KeepsHold release := fun _ => ⟨rfl, rfl, rfl, .inl rfl⟩

theorem Solvent.releaseCurrent (h : Solvent st) : Solvent (st.releaseCurrent sid) := by
  unfold State.releaseCurrent
  split
  · exact h.modify keepsHold_release
  · exact h

theorem Solvent.startJoao (h : Solvent st) {file : Option NoteFile} :
    Solvent (st.startJoao file).1 := by
  unfold State.startJoao
  split
  · exact h
  · exact h.arrive.spawn rfl trivial

end Operations

/-! ## The lock -/

section Lock

variable {st : State} {sid : SessionId} {pid : Pid} {prompt : JsString} {tier : String} {spent : ℕ}

/-- Nothing is awaited while the lock is free. -/
theorem Solvent.unlocked (h : Solvent st) (hbusy : st.busy = false) {p : Proc}
    (hp : st.procs pid = some p) : p.isAnswer = false := by
  cases p with
  | runAnswer sid prompt tier spent =>
      rw [(h.covered pid _ hp).1] at hbusy
      cases hbusy
  | _ => rfl

theorem Solvent.lock (h : Solvent st) (hbusy : st.busy = false)
    {slot : Slot SessionId Session} (hslot : st.sessions.slot? sid = some slot) :
    Solvent ((st.spawn pid (.runAnswer sid prompt tier slot.val.totalCharge)).setBusy true) := by
  have honly : ∀ q p', (st.spawn pid (.runAnswer sid prompt tier slot.val.totalCharge)).procs q =
      some p' → p'.isAnswer = true → q = pid := by
    intro q p' hq hans
    rcases procs_spawn hq with ⟨rfl, -⟩ | hq
    · rfl
    · rw [h.unlocked hbusy hq] at hans
      cases hans
  refine ⟨h.sessions, h.saved, fun q p hq => ?_, fun q q' p p' hq hq' hp hp' => ?_⟩
  · rcases procs_spawn hq with ⟨-, rfl⟩ | hq
    · exact ⟨rfl, slot, hslot, rfl⟩
    · have hcov := h.covered q p hq
      have hno := h.unlocked hbusy hq
      cases p with
      | runAnswer sid prompt tier spent => cases hno
      | _ => exact hcov
  · exact (honly q p hq hp).trans (honly q' p' hq' hp').symm

/-- The one answer that was awaited is back. -/
theorem Solvent.unlock (h : Solvent st)
    (hp : st.procs pid = some (.runAnswer sid prompt tier spent)) :
    Solvent ((st.finish pid).setBusy false) ∧
      ∀ q p, ((st.finish pid).setBusy false).procs q = some p → p.isAnswer = false := by
  have hnone : ∀ q p, (st.finish pid).procs q = some p → p.isAnswer = false := by
    intro q p hq
    obtain ⟨hqp, hq⟩ := procs_finish hq
    cases hans : p.isAnswer with
    | false => rfl
    | true => exact absurd (h.alone q pid _ _ hq hp hans rfl) hqp
  have hf : Solvent (st.finish pid) := h.finish
  refine ⟨⟨hf.sessions, hf.saved, fun q p hq => ?_, hf.alone⟩, hnone⟩
  have hcov := hf.covered q p hq
  have hno := hnone q p hq
  cases p with
  | runAnswer sid prompt tier spent => cases hno
  | _ => exact hcov

/-- Charging while nothing is awaited, within the hold. -/
theorem Solvent.charge (h : Solvent st) (hnone : ∀ q p, st.procs q = some p → p.isAnswer = false)
    {slot : Slot SessionId Session} (hslot : st.sessions.slot? sid = some slot) {a : Answer}
    (hfits : slot.val.totalCharge + a.charge ≤ slot.val.budget) {now : ℕ} :
    Solvent (st.modify sid (pushCharge a now)) := by
  refine ⟨fun sid' slot' hslot' => ?_, h.saved, fun q p hq => ?_, h.alone⟩
  · simp only [State.modify, SlotMap.slot?_modify] at hslot'
    split at hslot'
    · rw [hslot] at hslot'
      cases hslot'
      have hsound := h.sessions sid slot hslot
      refine ⟨?_, hsound.escrow, hsound.amount, hsound.bounded⟩
      simpa [Session.totalCharge, pushCharge] using hfits
    · exact h.sessions sid' slot' hslot'
  -- the lock excludes a second answer; a settlement keeps its bound
  · have hsettle : ∀ sid' charge,
        (∃ slot, st.sessions.slot? sid' = some slot ∧ charge ≤ slot.val.budget) →
        ∃ slot, (st.modify sid (pushCharge a now)).sessions.slot? sid' = some slot ∧
          charge ≤ slot.val.budget := by
      rintro sid' charge ⟨slot', hslot', hle⟩
      simp only [State.modify, SlotMap.slot?_modify]
      split
      · next hsid => exact ⟨_, Option.map_eq_some_iff.mpr ⟨slot', hsid ▸ hslot', rfl⟩, hle⟩
      · exact ⟨slot', hslot', hle⟩
    have hcov := h.covered q p hq
    have hno := hnone q p hq
    cases p with
    | runAnswer sid prompt tier spent => cases hno
    | endSettle sid' charge attempt => exact hsettle sid' charge hcov
    | endBackoff sid' charge attempt => exact hsettle sid' charge hcov
    | sweepSettle sid' charge cursor => exact hsettle sid' charge hcov
    | _ => exact hcov

end Lock

/-! ## One lemma per handler -/

section Handlers

variable {st : State} {sid : SessionId} {pid : Pid} {w : Writes}

theorem holdBartok_le (tier : Tier) : holdBartok tier ≤ holdBartok .genius := by
  cases tier <;> decide

theorem solvent_sessionStart (h : Solvent st) (req : StartRequest) :
    Solvent (st.sessionStart req).1 := by
  unfold sessionStart
  dsimp only
  split
  · exact h.arrive
  · split
    · exact h.arrive
    · split
      · exact h.arrive
      · split
        · next tier _ =>
            split
            · exact h.arrive
            · next hbal =>
                apply h.arrive.spawn rfl
                intro budget heq
                rw [← Option.some.inj heq]
                exact (sessionBudget_bounds (by simpa using hbal)).2.trans (holdBartok_le tier)
        · exact h.arrive.spawn rfl fun budget heq => by cases heq

theorem solvent_escrowBuilt (h : Solvent st) {buyerId : WalletId} {tier : String}
    {params : EscrowParams}
    (hp : st.procs pid = some (.buildEscrow buyerId tier (some params.noteB64.amount)))
    (hnew : st.sessions.slot? sid = none) :
    Solvent (st.escrowBuilt pid buyerId tier sid (some (params.noteB64.amount, params)) w).1 := by
  have hbound := h.covered pid _ hp _ rfl
  have hsound : Sound (newSession buyerId tier params.noteB64.amount params st.now) :=
    ⟨Nat.zero_le _, fun note hnote => (by cases hnote), rfl, hbound⟩
  exact (h.finish.insert hsound hnew).persistSessions

theorem solvent_sessionEscrow (h : Solvent st) : Solvent (st.sessionEscrow sid).1 := by
  unfold sessionEscrow
  dsimp only
  split
  · exact h.arrive
  · exact h.arrive.spawn rfl trivial

theorem solvent_escrowVerified (h : Solvent st) (committed : Bool) :
    Solvent (st.escrowVerified pid sid committed w).1 := by
  cases committed with
  | false => exact h.finish
  | true =>
      have harm : KeepsHold (arm st.now) := fun _ => ⟨rfl, rfl, rfl, .inr rfl⟩
      exact (h.finish.modify harm).persistSessions

/-- What a chat has been checked for when it enters the critical section. -/
theorem chatGate_ok {req : ChatRequest} {s : Session} (h : st.chatGate req = .ok s) :
    st.sessions.get? req.sessionId = some s ∧ s.escrowNoteB64 ≠ none ∧ s.settled = false ∧
      req.prompt ≠ [] ∧ tierEntry (req.msgTier s) ≠ .missing ∧
      ((tierEntry (req.msgTier s)).requiresAccount = true → st.hasAccount s.buyerId = true) ∧
      (st.hasAccount s.buyerId = false → st.spentBy s.buyerId < anonSpendCapBartok) ∧
      st.busy = false := by
  unfold chatGate at h
  split at h
  · cases h
  · next s' hget =>
      simp only [ite_error_eq_ok, Except.ok.injEq] at h
      obtain ⟨harmed, hopen, hprompt, htier, haccount, hcap, hbusy, rfl⟩ := h
      refine ⟨hget, harmed, by simpa using hopen, hprompt, htier, ?_, ?_, by simpa using hbusy⟩
      · simpa using haccount
      · simpa using hcap

theorem solvent_chat (h : Solvent st) (req : ChatRequest) : Solvent (st.chat req).1 := by
  unfold chat
  dsimp only
  split
  · exact h.arrive
  · next s hgate =>
      split
      · obtain ⟨hget, -, -, -, -, -, -, hbusy⟩ := chatGate_ok hgate
        obtain ⟨slot, hslot, -, rfl⟩ := SlotMap.get?_eq_some.mp hget
        exact (h.arrive.lock hbusy hslot).modify fun _ => ⟨rfl, rfl, rfl, .inl rfl⟩
      · exact h.arrive

theorem solvent_chatAnswered (h : Solvent st) {prompt : JsString} {tier : String} {spent : ℕ}
    (hp : st.procs pid = some (.runAnswer sid prompt tier spent)) (res : Except String Answer) :
    Solvent (st.chatAnswered pid sid prompt tier spent res w).1 := by
  obtain ⟨hfree, hnone⟩ := h.unlock hp
  obtain ⟨-, slot, hslot, rfl⟩ := h.covered pid _ hp
  unfold chatAnswered
  dsimp only
  split
  · exact hfree
  · exact hfree
  · next a s hs =>
      obtain ⟨slot', hslot', rfl⟩ := obj?_eq_some hs
      obtain rfl : slot = slot' := Option.some.inj (hslot.symm.trans hslot')
      split
      · exact hfree
      · next hfits =>
          split
          · exact hfree
          · have hcharged : Solvent (((((st.finish pid).setBusy false).modify sid
                (pushCharge a st.now)).persistSessions w.sessions).modify sid (pushTurns prompt a)) :=
              (hfree.charge hnone hslot' (Nat.le_of_not_lt hfits)).persistSessions.modify
                fun _ => ⟨rfl, rfl, rfl, .inl rfl⟩
            unfold deliver
            dsimp only
            split
            · exact hcharged.setUser
            · next st' hsave => exact (hcharged.setUser.saveUsers hsave).setStats

/-- A settlement starts with what the session owes. -/
theorem Solvent.owes (h : Solvent st) {f : Session → Session} (hf : KeepsHold f)
    {slot : Slot SessionId Session} (hslot : st.sessions.slot? sid = some slot) :
    ∃ slot', (st.modify sid f).sessions.slot? sid = some slot' ∧
      slot.val.totalCharge ≤ slot'.val.budget := by
  refine ⟨_, by simp [State.modify, hslot]; rfl, ?_⟩
  rw [(hf slot.val).2.1]
  exact (h.sessions sid slot hslot).charges

theorem solvent_sessionEnd (h : Solvent st) : Solvent (st.sessionEnd sid).1 := by
  have hbegin : KeepsHold (beginSettle st.now) := fun _ => ⟨rfl, rfl, rfl, .inl rfl⟩
  unfold sessionEnd
  dsimp only
  split
  · exact h.arrive
  · next s hget =>
      obtain ⟨slot, hslot, -, rfl⟩ := SlotMap.get?_eq_some.mp hget
      split
      · exact h.arrive
      · split
        · exact h.arrive
        · split
          · exact h.arrive
          · exact (h.arrive.modify hbegin).spawn rfl (h.arrive.owes hbegin hslot)

theorem solvent_endReturned (h : Solvent st) {s : Session} {charge attempt : ℕ} {run : SettleRun}
    (hcharge : ∃ slot, st.sessions.slot? sid = some slot ∧ charge ≤ slot.val.budget) :
    Solvent (st.endReturned pid sid s charge attempt run w).1 := by
  unfold endReturned
  dsimp only
  split
  · split
    · exact (h.modify keepsHold_release).finish
    · next st₁ hrec =>
        exact ((h.recordRefund hrec).setStats.closeSession.modify
          keepsHold_release).finish.startJoao
  · exact (h.closeSession.modify keepsHold_release).finish
  · split
    · exact h.spawn rfl hcharge
    · exact (h.modify keepsHold_release).finish
  · exact (h.modify keepsHold_release).finish

theorem solvent_sweepFrom (h : Solvent st) {cursor : ℕ} :
    Solvent (st.sweepFrom pid cursor).1 := by
  unfold sweepFrom
  split
  · exact h.finish
  · next slot i hnext =>
      split
      · exact h.finish
      · have hmark : KeepsHold markSettling := fun _ => ⟨rfl, rfl, rfl, .inl rfl⟩
        exact (h.modify hmark).spawn rfl (h.owes hmark (SlotMap.next?_some hnext).2.1)

theorem solvent_sweepSettled (h : Solvent st) {s : Session} {run : SettleRun} :
    Solvent (st.sweepSettled sid s run w).1 := by
  unfold sweepSettled
  split
  · split
    · exact h.releaseCurrent
    · next st₁ hrec => exact (h.recordRefund hrec).closeSession.releaseCurrent.startJoao
  · exact h.closeSession.releaseCurrent
  · exact h.releaseCurrent

theorem solvent_redeem (h : Solvent st) (u : WalletId) (c : String) :
    Solvent (st.redeem u c).1 := by
  unfold redeem
  dsimp only
  split
  · exact h.arrive
  · split
    · exact h.arrive
    · split
      · exact h.arrive.setUser
      · split
        · exact h.arrive.setUser
        · exact h.arrive.setUser.captureClaimed.spawn rfl trivial

theorem solvent_funded (h : Solvent st) {u : WalletId} {code : Code} {claimed : ℕ} {ok : Bool} :
    Solvent (st.funded pid u code claimed ok w).1 := by
  unfold funded
  dsimp only
  split
  · have hclaim : Solvent ((st.finish pid).claim u code claimed) := h.finish.congr rfl rfl rfl rfl
    split
    · exact hclaim
    · next st' hsave => exact hclaim.saveUsers hsave
  · exact h.finish

theorem solvent_register (h : Solvent st) (req : RegisterRequest) :
    Solvent (st.register req w).1 := by
  unfold register
  dsimp only
  split
  · exact h.arrive
  · split
    · exact h.arrive
    · split
      · exact h.arrive.setUser
      · next st' hsave => exact h.arrive.setUser.saveUsers hsave

theorem solvent_login (h : Solvent st) (u : WalletId) (password hash : String) :
    Solvent (st.login u password hash).1 := by
  unfold login
  dsimp only
  split
  · exact h.arrive
  · split
    · exact h.arrive
    · split <;> exact h.arrive

/-- What a process restores from a sound snapshot. -/
theorem solvent_boot {disk : Disk} {now : ℕ} {nextPid : Pid} {chain : EscrowNote → NoteStatus}
    (hdisk : ∀ m, disk.sessions = some m → ∀ sid slot, m.slot? sid = some slot → Sound slot.val) :
    Solvent (boot disk now nextPid chain) := by
  refine ⟨fun sid slot hslot => ?_, hdisk, fun _ _ hp => (by cases hp),
    fun _ _ _ _ hp => (by cases hp)⟩
  simp only [boot, restoreSessions] at hslot
  split at hslot
  · simp [SlotMap.slot?, SlotMap.empty] at hslot
  · next m hm =>
      rw [SlotMap.slot?_filterSlots, Option.filter_eq_some_iff] at hslot
      exact hdisk m hm sid slot hslot.1

theorem sessions_land {note : EscrowNote} {run : SettleRun} :
    (st.land note run).sessions = st.sessions := by
  unfold State.land
  split <;> rfl

/-- Every step, restarts included and whatever can be written, keeps the bridge
solvent. -/
theorem solvent_step (h : Solvent st) {i : Input} {r : State × List Event}
    (hi : step st i = some r) : Solvent r.1 := by
  obtain ⟨act, w⟩ := i
  cases steps_of_step hi with
  | tick ms => exact h.congr rfl rfl rfl rfl
  | fundNote hchain => exact h.setChain
  | consumeNote hchain => exact h.setChain
  | connect => exact h
  | start req => exact solvent_sessionStart h req
  | escrowFailed hp => exact h.finish
  | escrowBuilt hp hnew => exact solvent_escrowBuilt h hp hnew
  | escrow sid => exact solvent_sessionEscrow h
  | escrowVerified committed hp => exact solvent_escrowVerified h committed
  | chat req => exact solvent_chat h req
  | answered res hp => exact solvent_chatAnswered h hp res
  | endSession sid => exact solvent_sessionEnd h
  | endReturned hp hslot hnote hland =>
      apply solvent_endReturned h.land
      rw [sessions_land]
      exact h.covered _ _ hp
  | endWoken hp hslot hnote =>
      have hcovered := h.covered _ _ hp
      exact h.spawn rfl hcovered
  | sweep => exact solvent_sweepFrom h.arrive
  | sweepReturned hp hslot hnote hland => exact solvent_sweepFrom (solvent_sweepSettled h.land)
  | joaoReturned hp => exact h.finish
  | redeem u c => exact solvent_redeem h u c
  | funded ok hp => exact solvent_funded h
  | register req => exact solvent_register h req
  | login u password hash => exact solvent_login h u password hash
  | restart => exact solvent_boot h.saved

end Handlers

/-! ## Every settlement is accepted -/

section Accepted

variable {st : State} {sid : SessionId} {pid : Pid} {w : Writes} {e : Event}

/-- A `settle_session` call that the binary and the note script accept. -/
def Event.Accepted : Event → Prop
  | .settleStart _ _ charge note => ChargeAccepted note charge
  | _ => True

theorem Sound.accepts {s : Session} (h : Sound s) {note : EscrowNote} {charge : ℕ}
    (hnote : s.escrowNoteB64 = some note) (hle : charge ≤ s.budget) :
    ChargeAccepted note charge := by
  obtain rfl := h.escrow note hnote
  have hbound : s.params.noteB64.amount < modulus := by
    rw [h.amount]
    exact lt_of_le_of_lt h.bounded (by decide)
  rw [chargeAccepted_iff hbound, h.amount]
  exact hle

theorem accepted_of_kind {e : Event} (h : e.kind ≠ .settleStart) : e.Accepted := by
  cases e with
  | settleStart pid sid charge note => exact absurd rfl h
  | _ => trivial

theorem accepted_sessionEnd (h : Solvent st) : ∀ e ∈ (st.sessionEnd sid).2, e.Accepted := by
  unfold sessionEnd
  dsimp only
  split
  · simp [Event.Accepted]
  · next s hget =>
      obtain ⟨slot, hslot, -, rfl⟩ := SlotMap.get?_eq_some.mp hget
      have hsound := h.sessions sid slot hslot
      split
      · simp [Event.Accepted]
      · next note hnote =>
          split
          · simp [Event.Accepted]
          · split
            · simp [Event.Accepted]
            · simpa [Event.Accepted] using hsound.accepts hnote hsound.charges

theorem accepted_sweepFrom (h : Solvent st) {cursor : ℕ} :
    ∀ e ∈ (st.sweepFrom pid cursor).2, e.Accepted := by
  unfold sweepFrom
  split
  · simp
  · next slot i hnext =>
      have hsound := h.sessions _ slot (SlotMap.next?_some hnext).2.1
      split
      · simp
      · next note hnote => simpa [Event.Accepted] using hsound.accepts hnote hsound.charges

theorem accepted_step (h : Solvent st) {i : Input} {r : State × List Event}
    (hi : step st i = some r) : ∀ e ∈ r.2, e.Accepted := by
  intro e he
  by_cases hstart : e.kind = .settleStart
  · obtain ⟨act, w⟩ := i
    have hkinds : EventKind.settleStart ∈ act.kinds := by
      rcases kind_step hi e he with hplain | hmem
      · cases hplain.symm.trans hstart
      · rwa [hstart] at hmem
    cases steps_of_step hi with
    | endSession sid => exact accepted_sessionEnd h e he
    | @endWoken pid sid charge attempt slot note hp hslot hnote =>
        obtain ⟨slot', hslot', hle⟩ := h.covered _ _ hp
        obtain rfl : slot = slot' := Option.some.inj (hslot.symm.trans hslot')
        rw [List.mem_singleton.mp he]
        exact (h.sessions sid slot hslot).accepts hnote hle
    | sweep => exact accepted_sweepFrom h.arrive e he
    | sweepReturned hp hslot hnote hland =>
        rcases List.mem_append.mp he with he | he
        · rcases List.mem_cons.mp he with rfl | he
          · trivial
          · rcases (handled_sweepSettled : Handled _ none _ _).kinds e he with hplain | hmem
            · cases hplain.symm.trans hstart
            · cases (List.mem_singleton.mp hmem).symm.trans hstart
        · exact accepted_sweepFrom (solvent_sweepSettled h.land) e he
    | _ => simp [Action.kinds] at hkinds
  · exact accepted_of_kind hstart

end Accepted

section Runs

variable {disk : Disk} {now : ℕ} {nextPid : Pid} {chain : EscrowNote → NoteStatus} {st : State}
  {tr : List Event}

/-- **Charges never exceed the hold.** From a first start, through any steps,
restarts and failed writes: each session's charges fit its hold, and each
`settle_session` call carries a charge that the binary and the note script
accept for the session's own escrow note. -/
theorem charges_within_hold (hdisk : disk.sessions = none)
    (h : Trace (lts step AnyStep) (boot disk now nextPid chain) tr st) :
    (∀ sid s, st.sessions.obj? sid = some s → s.totalCharge ≤ s.budget ∧
      s.params.noteB64.amount = s.budget ∧
        ∀ note, s.escrowNoteB64 = some note → note = s.params.noteB64) ∧
      ∀ e ∈ tr, e.Accepted := by
  obtain ⟨hsolvent, haccepted⟩ := h.invariant
    (I := fun st tr => Solvent st ∧ ∀ e ∈ tr, e.Accepted)
    ⟨solvent_boot (by simp [hdisk]), by simp⟩ fun st tr es st' ⟨hs, he⟩ ⟨i, _, hi⟩ => by
      refine ⟨solvent_step hs hi, fun e hmem => ?_⟩
      rcases List.mem_append.mp hmem with hmem | hmem
      · exact he e hmem
      · exact accepted_step hs hi e hmem
  refine ⟨fun sid s hs => ?_, haccepted⟩
  obtain ⟨slot, hslot, rfl⟩ := obj?_eq_some hs
  have hsound := hsolvent.sessions sid slot hslot
  exact ⟨hsound.charges, hsound.amount, hsound.escrow⟩

end Runs

theorem charges_within_hold_demo : ∃ (tr : List Event) (st : State),
    tr.countP (Event.startsSettling 0) = 1 ∧
    (∀ sid s, st.sessions.obj? sid = some s → s.totalCharge ≤ s.budget ∧
      s.params.noteB64.amount = s.budget ∧
        ∀ note, s.escrowNoteB64 = some note → note = s.params.noteB64) ∧
      ∀ e ∈ tr, e.Accepted :=
  have h := trace_exec step (fun _ _ => True) demoBoot (written (openSession ++
    [.chat ⟨0, [0x68, 0x69], none⟩, .answered 2 (.ok demoAnswer), .restart, .endSession 0]))
    (by decide) (by decide)
  ⟨_, _, by decide, charges_within_hold rfl h⟩

end Bartok.Bridge
