import Bartok.Bridge.FailedChat
import Bartok.Bridge.Requests

/-!
# The gate of paid inference

Three handlers stand in front of a paid reply. `/api/session/start` sizes the hold and
has the escrow note built, `/api/session/escrow` arms the session once that very note is
confirmed on chain, and `/api/chat` lets a message of an allowed tier through. What they
checked is long past when the reply goes out, so the marks of a run keep it: each session
and each waiting handler is traced to the marks it rests on.
-/

namespace Bartok.Bridge

open Foundation Miden Json State

/-! ## What the gate checks -/

/-- The whole number `n` is at most this number. -/
def JsNumber.AtLeast (n : ℕ) : JsNumber → Prop
  | .nan => False
  | .infinity negative => negative = false
  | .finite numer scale => (n : ℤ) ≤ numer / 2 ^ scale

/-- A hold that its tier allows and the reported balance covers. -/
def HoldAllowed (tier : String) (balance : JsNumber) (budget : ℕ) : Prop :=
  balance.AtLeast budget ∧
    ∃ t, tierEntry tier = .own t ∧ minHoldBartok t ≤ budget ∧ budget ≤ holdBartok t

/-- A message of the basic tier, or of the genius tier for a wallet with an account. -/
def TierAllowed (tier : String) (account : Bool) : Prop :=
  tierEntry tier = .own .basic ∨ tierEntry tier = .own .genius ∧ account = true

/-- What a session is bound to. -/
structure Terms where
  buyerId : WalletId
  tier : String
  params : EscrowParams
  budget : ℕ
  escrowNoteB64 : Option EscrowNote
deriving DecidableEq

def Session.terms (s : Session) : Terms := ⟨s.buyerId, s.tier, s.params, s.budget, s.escrowNoteB64⟩

/-- The terms of the session with this id, in the map or captured from it. -/
def State.terms (st : State) (sid : SessionId) : Option Terms :=
  (st.sessions.obj? sid).map Session.terms

/-- The terms in the snapshot. -/
def State.savedTerms (st : State) (sid : SessionId) : Option Terms :=
  st.disk.sessions.bind fun m => (m.obj? sid).map Session.terms

/-! ## Marks -/

inductive GateMark
  /-- `build_escrow` is run for a tier, a reported balance and a budget. -/
  | build (pid : Pid) (tier : String) (balance : Option JsNumber) (budget : Option ℕ)
  /-- What it printed became a session. -/
  | opened (pid : Pid) (sid : SessionId) (params : EscrowParams)
  /-- `verify_escrow` is run on a note. -/
  | verify (pid : Pid) (note : EscrowNote)
  /-- It reported the note committed. -/
  | committed (pid : Pid)
  /-- A reply went out: its session and the tier of its message, and whether the wallet
  has an account. -/
  | reply (sid : SessionId) (terms : Option Terms) (tier : Option String) (account : Bool)
deriving DecidableEq

/-- The tier of the message whose answer a handler awaits. -/
def State.msgTier (st : State) (pid : Pid) : Option String :=
  match st.procs pid with
  | some (.runAnswer _ _ tier _) => some tier
  | _ => none

/-- The mark of an event that is a successful reply. -/
def replyMark (st : State) : Event → Option GateMark
  | .done pid (.reply sid _ _ _) =>
      some (.reply sid (st.terms sid) (st.msgTier pid)
        ((st.terms sid).any fun t => st.hasAccount t.buyerId))
  | _ => none

/-- The marks of what a step starts, opens or confirms. -/
def gateMarks (rt : Runtime) (st : State) (i : Served) (st' : State) : List GateMark :=
  match i.arrival with
  | .post p =>
      match st'.procs st.nextPid with
      | some (.buildEscrow _ tier budget) =>
          [.build st.nextPid tier ((parseBody (readBody p.chunks)).bind (balanceOf rt)) budget]
      | some (.verifyEscrow sid) =>
          ((st.terms sid).map fun t => GateMark.verify st.nextPid t.params.noteB64).toList
      | _ => []
  | .other (.escrowBuilt pid sid (some params)) => [.opened pid sid params]
  | .other (.escrowVerified pid true) => [.committed pid]
  | _ => []

/-- The step function, with the marks of the gate in the place of the events. -/
def gateStep (rt : Runtime) (st : State) (i : Served) : Option (State × List GateMark) :=
  (serve rt st i).map fun r => (r.1, gateMarks rt st i r.1 ++ r.2.filterMap (replyMark st))

/-- Any step, restarts included, with any writes. -/
def AnyServed (_ : State) (_ : Served) : Prop := True

/-- Any step of clients that name account ids, and no members of `Object.prototype`. -/
def ServedByAccounts (rt : Runtime) (_ : State) (i : Served) : Prop :=
  ∀ w ∈ i.arrival.wallet rt, w ∉ objectPrototypeKeys

/-! ## What is traced to the marks -/

/-- The session was opened on an escrow that was built for its budget, which is a hold
that is allowed for its tier and balance. -/
def Held (tr : List GateMark) (sid : SessionId) (t : Terms) : Prop :=
  ∃ pid balance, .build pid t.tier (some balance) (some t.budget) ∈ tr ∧
    .opened pid sid t.params ∈ tr ∧ HoldAllowed t.tier balance t.budget

/-- `verify_escrow` confirmed the note that was built for the session. -/
def Verified (tr : List GateMark) (t : Terms) : Prop :=
  ∃ pid, .verify pid t.params.noteB64 ∈ tr ∧ .committed pid ∈ tr

/-- The session is not armed, or armed with its own note after it was confirmed. -/
def ArmedByNote (tr : List GateMark) (t : Terms) : Prop :=
  t.escrowNoteB64 = none ∨ t.escrowNoteB64 = some t.params.noteB64 ∧ Verified tr t

/-- What the handlers at the gate rest on while they wait. -/
def Proc.Traced (st : State) (tr : List GateMark) (pid : Pid) : Proc → Prop
  | .buildEscrow _ tier budget => ∃ balance, .build pid tier balance budget ∈ tr ∧
      ∀ b ∈ budget, ∃ x ∈ balance, HoldAllowed tier x b
  | .verifyEscrow sid => ∃ t, st.terms sid = some t ∧ .verify pid t.params.noteB64 ∈ tr
  | .runAnswer sid _ tier _ => ∃ t, st.terms sid = some t ∧ t.escrowNoteB64 ≠ none ∧
      TierAllowed tier (st.hasAccount t.buyerId)
  | _ => True

structure Gated (st : State) (tr : List GateMark) : Prop where
  sessions : ∀ sid t, st.terms sid = some t → Held tr sid t ∧ ArmedByNote tr t
  saved : ∀ sid t, st.savedTerms sid = some t → Held tr sid t ∧ ArmedByNote tr t
  procs : ∀ pid p, st.procs pid = some p → p.Traced st tr pid

/-! ## Handlers away from the gate -/

/-- The handlers at the gate. -/
def Proc.gating : Proc → Bool
  | .buildEscrow _ _ _ | .verifyEscrow _ | .runAnswer _ _ _ _ => true
  | _ => false

/-- On the way from `st` to `st'` sessions keep their terms, the snapshot is old or taken
of them, and no handler comes to wait at the gate. -/
structure Keeps (st st' : State) : Prop where
  terms : ∀ sid, st'.terms sid = st.terms sid
  saved : ∀ sid t, st'.savedTerms sid = some t → st.savedTerms sid = some t ∨ st.terms sid = some t
  procs : ∀ q p, st'.procs q = some p → p.gating = true → st.procs q = some p

def KeepsTerms (f : Session → Session) : Prop := ∀ s, (f s).terms = s.terms

theorem keepsTerms_release : KeepsTerms release := fun _ => rfl

theorem keepsTerms_markSettled : KeepsTerms markSettled := fun _ => rfl

theorem keepsTerms_markSettling : KeepsTerms markSettling := fun _ => rfl

theorem keepsTerms_beginSettle {now : ℕ} : KeepsTerms (beginSettle now) := fun _ => rfl

theorem keepsTerms_openHistory : KeepsTerms openHistory := fun _ => rfl

theorem keepsTerms_pushCharge {a : Answer} {now : ℕ} : KeepsTerms (pushCharge a now) :=
  fun _ => rfl

theorem keepsTerms_pushTurns {prompt : JsString} {a : Answer} : KeepsTerms (pushTurns prompt a) :=
  fun _ => rfl

section Operations

variable {st st' st₁ : State} {sid : SessionId} {pid : Pid} {p : Proc} {w : Writes} {u : WalletId}
  {file : Option NoteFile} {note : EscrowNote} {run : SettleRun} {ok : Bool} {f : Session → Session}

theorem terms_modify {g : Terms → Terms} (hf : ∀ s, (f s).terms = g s.terms) (sid' : SessionId) :
    (st.modify sid f).terms sid' = if sid' = sid then (st.terms sid).map g else st.terms sid' := by
  simp only [State.terms, State.modify, SlotMap.obj?, SlotMap.slot?_modify]
  split
  · cases st.sessions.slot? sid with
    | none => rfl
    | some slot => exact congrArg some (hf slot.val)
  · rfl

theorem terms_insert {s : Session} (hnew : st.sessions.slot? sid = none) (sid' : SessionId) :
    (st.insert sid s).terms sid' = if sid' = sid then some s.terms else st.terms sid' := by
  simp only [State.terms, State.insert, SlotMap.obj?, SlotMap.slot?_push hnew]
  split <;> rfl

theorem terms_of_get? {s : Session} (h : st.sessions.get? sid = some s) :
    st.terms sid = some s.terms := by
  obtain ⟨slot, hslot, -, rfl⟩ := SlotMap.get?_eq_some.mp h
  rw [State.terms, SlotMap.obj?, hslot]
  rfl

/-- A process that starts knows the sessions of its snapshot. -/
theorem savedTerms_of_boot {now : ℕ} {nextPid : Pid} {chain : EscrowNote → NoteStatus} {t : Terms}
    (h : (boot st.disk now nextPid chain).terms sid = some t) : st.savedTerms sid = some t := by
  simp only [State.terms, boot, restoreSessions] at h
  rw [State.savedTerms]
  split at h
  · simp [SlotMap.obj?, SlotMap.slot?, SlotMap.empty] at h
  · next m hm =>
      rw [hm, Option.bind_some]
      simp only [SlotMap.obj?, SlotMap.slot?_filterSlots, Option.map_map, Option.map_eq_some_iff,
        Option.filter_eq_some_iff] at h
      obtain ⟨slot, ⟨hslot, -⟩, rfl⟩ := h
      simp [SlotMap.obj?, hslot]

namespace Keeps

theorem refl : Keeps st st := ⟨fun _ => rfl, fun _ _ h => .inl h, fun _ _ h _ => h⟩

theorem trans (h : Keeps st st') (h' : Keeps st' st₁) : Keeps st st₁ where
  terms sid := (h'.terms sid).trans (h.terms sid)
  saved sid t ht := by
    rcases h'.saved sid t ht with hsaved | hterms
    · exact h.saved sid t hsaved
    · exact .inr (h.terms sid ▸ hterms)
  procs q p hp hg := h.procs q p (h'.procs q p hp hg) hg

theorem congr (h : Keeps st st') (hsessions : st₁.sessions = st'.sessions)
    (hdisk : st₁.disk.sessions = st'.disk.sessions) (hprocs : st₁.procs = st'.procs) :
    Keeps st st₁ where
  terms sid := by
    rw [State.terms, hsessions]
    exact h.terms sid
  saved sid t ht := by
    rw [State.savedTerms, hdisk] at ht
    exact h.saved sid t ht
  procs q p hp hg := h.procs q p (hprocs ▸ hp) hg

theorem arrive (h : Keeps st st') : Keeps st st'.arrive := h.congr rfl rfl rfl

theorem setBusy (h : Keeps st st') : Keeps st (st'.setBusy ok) := h.congr rfl rfl rfl

theorem setStats (h : Keeps st st') {x : SellerStats} : Keeps st (st'.setStats x) :=
  h.congr rfl rfl rfl

theorem setUser (h : Keeps st st') {x : User} : Keeps st (st'.setUser u x) := h.congr rfl rfl rfl

theorem spawn (h : Keeps st st') (hp : p.gating = false) : Keeps st (st'.spawn pid p) := by
  refine ⟨h.terms, h.saved, fun q p' hq hg => ?_⟩
  rcases procs_spawn hq with ⟨-, rfl⟩ | hq
  · rw [hp] at hg
    cases hg
  · exact h.procs q p' hq hg

theorem finish (h : Keeps st st') : Keeps st (st'.finish pid) :=
  ⟨h.terms, h.saved, fun q p hq hg => h.procs q p (procs_finish hq).2 hg⟩

theorem modify (h : Keeps st st') (hf : KeepsTerms f) : Keeps st (st'.modify sid f) := by
  refine ⟨fun sid' => ?_, h.saved, h.procs⟩
  rw [terms_modify (g := id) hf, Option.map_id_fun, id_eq, ← h.terms]
  split
  · next heq => rw [heq]
  · rfl

theorem evict (h : Keeps st st') : Keeps st (st'.evict sid) := by
  refine ⟨fun sid' => (?_ : _ = st'.terms sid').trans (h.terms sid'), h.saved, h.procs⟩
  simp only [State.terms, State.evict, SlotMap.obj?, SlotMap.slot?_delete]
  split
  · next heq =>
      rw [heq]
      cases st'.sessions.slot? sid <;> rfl
  · rfl

theorem persistSessions (h : Keeps st st') : Keeps st (st'.persistSessions ok) := by
  unfold State.persistSessions
  split
  · refine ⟨h.terms, fun sid t ht => .inr ?_, h.procs⟩
    rw [← h.terms]
    simp only [State.savedTerms, Option.bind_some, SlotMap.obj?, SlotMap.slot?_compact,
      Option.map_map, Option.map_eq_some_iff, Option.filter_eq_some_iff] at ht
    obtain ⟨slot, ⟨hslot, -⟩, rfl⟩ := ht
    simp [State.terms, SlotMap.obj?, hslot]
  · exact h

theorem closeSession (h : Keeps st st') : Keeps st (st'.closeSession sid w) :=
  (h.modify keepsTerms_markSettled).evict.persistSessions

theorem releaseCurrent (h : Keeps st st') : Keeps st (st'.releaseCurrent sid) := by
  unfold State.releaseCurrent
  split
  · exact h.modify keepsTerms_release
  · exact h

theorem land (h : Keeps st st') : Keeps st (st'.land note run) := by
  unfold State.land
  split
  · exact h.congr rfl rfl rfl
  · exact h

theorem captureClaimed (h : Keeps st st') : Keeps st (st'.captureClaimed u).1 := by
  unfold State.captureClaimed
  split
  · exact h
  · exact h.congr rfl rfl rfl

theorem saveUsers (h : Keeps st st') (hsave : st'.saveUsers ok = some st₁) : Keeps st st₁ := by
  obtain rfl := saveUsers_eq_some hsave
  exact h.congr rfl rfl rfl

theorem recordRefund (h : Keeps st st') (hrec : st'.recordRefund u file ok = some st₁) :
    Keeps st st₁ := by
  obtain ⟨-, _, rfl⟩ := recordRefund_eq_some hrec
  exact h.congr rfl rfl rfl

theorem startJoao (h : Keeps st st') : Keeps st (st'.startJoao file).1 := by
  unfold State.startJoao
  split
  · exact h
  · exact h.arrive.spawn rfl

end Keeps

end Operations

section Handlers

variable {st : State} {sid : SessionId} {pid : Pid} {w : Writes} {u : WalletId} {s : Session}
  {charge attempt cursor spent : ℕ} {prompt : JsString} {tier : String} {run : SettleRun}
  {note : EscrowNote}

theorem keeps_chatAnswered (res : Except String Answer) :
    Keeps st (st.chatAnswered pid sid prompt tier spent res w).1 := by
  have hfreed : Keeps st ((st.finish pid).setBusy false) := Keeps.refl.finish.setBusy
  unfold chatAnswered
  dsimp only
  split
  · exact hfreed
  · exact hfreed
  · next a s _ =>
      have hcharged : Keeps st ((((((st.finish pid).setBusy false).modify sid
          (pushCharge a st.now)).persistSessions w.sessions).modify sid
            (pushTurns prompt a)).addSpend s.buyerId a.charge) :=
        ((hfreed.modify keepsTerms_pushCharge).persistSessions.modify
          keepsTerms_pushTurns).setUser
      split
      · exact hfreed
      · split
        · exact hfreed
        · unfold deliver
          dsimp only
          split
          · exact hcharged
          · next hsave => exact (hcharged.saveUsers hsave).setStats

theorem keeps_sessionEnd : Keeps st (st.sessionEnd sid).1 := by
  unfold sessionEnd
  dsimp only
  split
  · exact Keeps.refl.arrive
  · split
    · exact Keeps.refl.arrive
    · split
      · exact Keeps.refl.arrive
      · split
        · exact Keeps.refl.arrive
        · exact (Keeps.refl.arrive.modify keepsTerms_beginSettle).spawn rfl

theorem keeps_endReturned :
    Keeps st (st.endReturned pid sid s charge attempt run w).1 := by
  have hreleased : Keeps st ((st.modify sid release).finish pid) :=
    (Keeps.refl.modify keepsTerms_release).finish
  unfold endReturned
  dsimp only
  split
  · split
    · exact hreleased
    · next hrec =>
        exact ((Keeps.refl.recordRefund hrec).setStats.closeSession.modify
          keepsTerms_release).finish.startJoao
  · exact (Keeps.refl.closeSession.modify keepsTerms_release).finish
  · split
    · exact Keeps.refl.spawn rfl
    · exact hreleased
  · exact hreleased

theorem keeps_sweepFrom {st₀ : State} (h : Keeps st₀ st) :
    Keeps st₀ (st.sweepFrom pid cursor).1 := by
  unfold sweepFrom
  split
  · exact h.finish
  · split
    · exact h.finish
    · exact (h.modify keepsTerms_markSettling).spawn rfl

theorem keeps_sweepSettled : Keeps st (st.sweepSettled sid s run w).1 := by
  unfold sweepSettled
  split
  · split
    · exact Keeps.refl.releaseCurrent
    · next hrec => exact (Keeps.refl.recordRefund hrec).closeSession.releaseCurrent.startJoao
  · exact Keeps.refl.closeSession.releaseCurrent
  · exact Keeps.refl.releaseCurrent

theorem keeps_redeem (c : String) : Keeps st (st.redeem u c).1 := by
  unfold State.redeem
  dsimp only
  split
  · exact Keeps.refl.arrive
  · split
    · exact Keeps.refl.arrive
    · split
      · exact Keeps.refl.arrive.setUser
      · split
        · exact Keeps.refl.arrive.setUser
        · exact Keeps.refl.arrive.setUser.captureClaimed.spawn rfl

theorem keeps_funded {c : Code} {n : ℕ} (ok : Bool) : Keeps st (st.funded pid u c n ok w).1 := by
  have hclaimed : Keeps st ((st.finish pid).claim u c n) := Keeps.refl.finish.congr rfl rfl rfl
  unfold State.funded
  dsimp only
  split
  · split
    · exact hclaimed
    · next hsave => exact hclaimed.saveUsers hsave
  · exact Keeps.refl.finish

theorem keeps_register (req : RegisterRequest) : Keeps st (st.register req w).1 := by
  unfold State.register
  dsimp only
  split
  · exact Keeps.refl.arrive
  · split
    · exact Keeps.refl.arrive
    · split
      · exact Keeps.refl.arrive.setUser
      · next hsave => exact Keeps.refl.arrive.setUser.saveUsers hsave

theorem keeps_login (password hash : String) : Keeps st (st.login u password hash).1 := by
  unfold State.login
  dsimp only
  split
  · exact Keeps.refl.arrive
  · split
    · exact Keeps.refl.arrive
    · split <;> exact Keeps.refl.arrive

theorem keeps_spawnThrows {message : String} {r : State × List Event}
    (h : st.spawnThrows pid message = some r) : Keeps st r.1 := by
  unfold spawnThrows at h
  split at h
  · exact Option.some.inj h ▸ Keeps.refl.finish
  · exact Option.some.inj h ▸ Keeps.refl.finish
  · exact Option.some.inj h ▸ Keeps.refl.finish
  · exact Option.some.inj h ▸ (Keeps.refl.modify keepsTerms_release).finish
  · exact Option.some.inj h ▸ keeps_sweepFrom Keeps.refl.releaseCurrent
  · exact Option.some.inj h ▸ Keeps.refl.finish
  · cases h

/-- The actions that open or arm a session, that let a handler wait at the gate, or that
start the process again. -/
def Action.gates : Action → Bool
  | .start _ | .escrow _ | .escrowBuilt _ _ (some _) | .escrowVerified _ true | .chat _
  | .restart => true
  | _ => false

theorem keeps_step {i : Input} {r : State × List Event} (hact : i.act.gates = false)
    (hi : step st i = some r) : Keeps st r.1 := by
  obtain ⟨act, w⟩ := i
  cases steps_of_step hi with
  | tick ms => exact Keeps.refl.congr rfl rfl rfl
  | fundNote hchain => exact Keeps.refl.congr rfl rfl rfl
  | consumeNote hchain => exact Keeps.refl.congr rfl rfl rfl
  | connect => exact Keeps.refl
  | escrowFailed hp => exact Keeps.refl.finish
  | escrowVerified committed hp =>
      cases committed with
      | false => exact Keeps.refl.finish
      | true => cases hact
  | answered res hp => exact keeps_chatAnswered res
  | endSession sid => exact keeps_sessionEnd
  | endReturned hp hslot hnote hland => exact Keeps.refl.land.trans keeps_endReturned
  | endWoken hp hslot hnote => exact Keeps.refl.spawn rfl
  | sweep => exact keeps_sweepFrom Keeps.refl.arrive
  | sweepReturned hp hslot hnote hland =>
      exact Keeps.refl.land.trans (keeps_sweepFrom keeps_sweepSettled)
  | joaoReturned hp => exact Keeps.refl.finish
  | redeem u c => exact keeps_redeem c
  | funded ok hp => exact keeps_funded ok
  | register req => exact keeps_register req
  | login u password hash => exact keeps_login password hash
  | _ => cases hact

end Handlers

/-! ## Accounts stay -/

def AccountsKept (st st' : State) : Prop := ∀ u, st.hasAccount u = true → st'.hasAccount u = true

section Accounts

variable {rt : Runtime} {st : State} {r : State × List Event}

theorem accountsKept_step {i : Input} (hone : OneProcess st i) (hi : step st i = some r) :
    AccountsKept st r.1 := by
  intro u hu
  obtain ⟨account, haccount⟩ := Option.isSome_iff_exists.mp hu
  exact Option.isSome_iff_exists.mpr ⟨account, (records_step hone hi).account haccount⟩

theorem accountsKept_store {st' : State} (h : st'.userStore = st.userStore) :
    AccountsKept st st' := by
  intro u hu
  rwa [State.hasAccount, ← State.account, account_eq h]

theorem userStore_spawnThrows {pid : Pid} {message : String}
    (h : st.spawnThrows pid message = some r) : r.1.userStore = st.userStore := by
  unfold spawnThrows at h
  split at h
  · exact Option.some.inj h ▸ rfl
  · exact Option.some.inj h ▸ rfl
  · exact Option.some.inj h ▸ rfl
  · exact Option.some.inj h ▸ rfl
  · exact Option.some.inj h ▸ congrArg Aside.store (aside_sweepFrom.trans aside_releaseCurrent)
  · exact Option.some.inj h ▸ rfl
  · cases h

end Accounts

/-! ## One step -/

section Gated

variable {rt : Runtime} {st st' : State} {tr ms : List GateMark} {sid : SessionId} {pid : Pid}
  {p : Proc} {t : Terms} {w : Writes} {r : State × List Event}

theorem Held.mono (h : Held tr sid t) : Held (tr ++ ms) sid t := by
  obtain ⟨pid, balance, hbuild, hopened, hallowed⟩ := h
  exact ⟨pid, balance, List.mem_append_left _ hbuild, List.mem_append_left _ hopened, hallowed⟩

theorem ArmedByNote.mono (h : ArmedByNote tr t) : ArmedByNote (tr ++ ms) t := by
  apply h.imp_right
  rintro ⟨hnote, pid, hverify, hcommitted⟩
  exact ⟨hnote, pid, List.mem_append_left _ hverify, List.mem_append_left _ hcommitted⟩

theorem Proc.Traced.mono (h : p.Traced st tr pid) : p.Traced st (tr ++ ms) pid := by
  cases p with
  | buildEscrow u tier budget =>
      obtain ⟨balance, hbuild, hallowed⟩ := h
      exact ⟨balance, List.mem_append_left _ hbuild, hallowed⟩
  | verifyEscrow sid =>
      obtain ⟨t, ht, hverify⟩ := h
      exact ⟨t, ht, List.mem_append_left _ hverify⟩
  | _ => exact h

theorem Gated.mono (h : Gated st tr) : Gated st (tr ++ ms) where
  sessions sid t ht := (h.sessions sid t ht).imp Held.mono ArmedByNote.mono
  saved sid t ht := (h.saved sid t ht).imp Held.mono ArmedByNote.mono
  procs pid p hp := (h.procs pid p hp).mono

/-- A waiting handler goes by the note, the escrow and the account of its session. -/
theorem Proc.Traced.keep (h : p.Traced st tr pid) (hacc : AccountsKept st st')
    (hterms : ∀ sid t, st.terms sid = some t → ∃ t', st'.terms sid = some t' ∧
      t'.buyerId = t.buyerId ∧ t'.params = t.params ∧
        (t.escrowNoteB64 ≠ none → t'.escrowNoteB64 ≠ none)) : p.Traced st' tr pid := by
  cases p with
  | verifyEscrow sid =>
      obtain ⟨t, ht, hverify⟩ := h
      obtain ⟨t', ht', -, hparams, -⟩ := hterms sid t ht
      exact ⟨t', ht', hparams ▸ hverify⟩
  | runAnswer sid prompt tier spent =>
      obtain ⟨t, ht, harmed, htier⟩ := h
      obtain ⟨t', ht', hbuyer, -, hnote⟩ := hterms sid t ht
      refine ⟨t', ht', hnote harmed, htier.imp_right fun ⟨hgenius, haccount⟩ => ⟨hgenius, ?_⟩⟩
      rw [hbuyer]
      exact hacc _ haccount
  | _ => exact h

theorem Gated.keep (h : Gated st tr) (hk : Keeps st st') (hacc : AccountsKept st st') :
    Gated st' tr where
  sessions sid t ht := h.sessions sid t (hk.terms sid ▸ ht)
  saved sid t ht := (hk.saved sid t ht).elim (h.saved sid t) (h.sessions sid t)
  procs q p hp := by
    by_cases hg : p.gating = true
    · refine (h.procs q p (hk.procs q p hp hg)).keep hacc fun sid t ht => ⟨t, ?_, rfl, rfl, id⟩
      rw [hk.terms, ht]
    · cases p with
      | buildEscrow => exact absurd rfl hg
      | verifyEscrow => exact absurd rfl hg
      | runAnswer => exact absurd rfl hg
      | _ => trivial

theorem Gated.spawn (h : Gated st tr) (hp : p.Traced st tr pid) : Gated (st.spawn pid p) tr where
  sessions := h.sessions
  saved := h.saved
  procs q p' hq := by
    rcases procs_spawn hq with ⟨rfl, rfl⟩ | hq
    · exact hp
    · exact h.procs q p' hq

theorem Gated.arrive (h : Gated st tr) : Gated st.arrive tr := h.keep Keeps.refl.arrive fun _ => id

/-! ### Opening -/

theorem atLeast_sessionBudget {t : Tier} {balance : JsNumber}
    (h : belowMinHold t balance.units = false) :
    balance.AtLeast (sessionBudget t balance.units) := by
  have hfloor : 0 < minHoldBartok t := by cases t <;> decide
  cases balance with
  | nan =>
      simp only [JsNumber.units, belowMinHold, decide_eq_false_iff_not] at h
      exact absurd hfloor h
  | infinity negative =>
      cases negative with
      | false => rfl
      | true =>
          simp only [JsNumber.units, belowMinHold, decide_eq_false_iff_not] at h
          exact absurd hfloor h
  | finite numer scale =>
      simp only [JsNumber.units, belowMinHold, decide_eq_false_iff_not] at h
      simp only [JsNumber.AtLeast, JsNumber.units, sessionBudget]
      omega

/-- A hold is sized within its tier and its balance, or `build_escrow` has no budget. -/
theorem sessionStart_cases (st : State) (req : StartRequest) :
    (st.sessionStart req).1 = st.arrive ∨ ∃ budget,
      (st.sessionStart req).1 =
        st.arrive.spawn st.nextPid (.buildEscrow req.buyerId req.tier budget) ∧
      ∀ b ∈ budget, HoldAllowed req.tier req.balance b := by
  unfold sessionStart
  dsimp only
  split
  · exact .inl rfl
  · split
    · exact .inl rfl
    · split
      · exact .inl rfl
      · split
        · next tier htier =>
            split
            · exact .inl rfl
            · next hmin =>
                have hmin : belowMinHold tier req.balance.units = false := by simpa using hmin
                refine .inr ⟨_, rfl, ?_⟩
                rintro b ⟨⟩
                exact ⟨atLeast_sessionBudget hmin, tier, htier, sessionBudget_bounds hmin⟩
        · exact .inr ⟨none, rfl, nofun⟩

theorem gated_sessionStart (h : Gated st tr) (req : StartRequest)
    (hmark : ∀ budget, (st.sessionStart req).1.procs st.nextPid =
      some (.buildEscrow req.buyerId req.tier budget) →
        .build st.nextPid req.tier (some req.balance) budget ∈ tr) :
    Gated (st.sessionStart req).1 tr := by
  rcases sessionStart_cases st req with heq | ⟨budget, heq, hallowed⟩
  · rw [heq]
    exact h.arrive
  · rw [heq] at hmark ⊢
    refine h.arrive.spawn ⟨some req.balance, hmark budget (Function.update_self _ _ _), ?_⟩
    exact fun b hb => ⟨req.balance, rfl, hallowed b hb⟩

theorem gated_escrowBuilt (h : Gated st tr) {buyerId : WalletId} {tier : String}
    {params : EscrowParams}
    (hp : st.procs pid = some (.buildEscrow buyerId tier (some params.noteB64.amount)))
    (hnew : st.sessions.slot? sid = none) (hmark : .opened pid sid params ∈ tr) :
    Gated (st.escrowBuilt pid buyerId tier sid (some (params.noteB64.amount, params)) w).1 tr := by
  obtain ⟨balance, hbuild, hallowed⟩ := h.procs pid _ hp
  obtain ⟨x, rfl, hx⟩ := hallowed _ rfl
  have hfinish : Gated (st.finish pid) tr := h.keep Keeps.refl.finish fun _ => id
  have hinsert : Gated ((st.finish pid).insert sid
      (newSession buyerId tier params.noteB64.amount params st.now)) tr := by
    have hnew' : (st.finish pid).sessions.slot? sid = none := hnew
    have hterms := terms_insert hnew'
      (s := newSession buyerId tier params.noteB64.amount params st.now)
    refine ⟨?_, hfinish.saved, ?_⟩
    · intro sid' t ht
      rw [hterms] at ht
      split at ht
      · next heq =>
          obtain rfl := Option.some.inj ht
          exact ⟨⟨pid, x, hbuild, heq ▸ hmark, hx⟩, .inl rfl⟩
      · exact hfinish.sessions sid' t ht
    · intro q p hq
      refine (hfinish.procs q p hq).keep (fun _ => id) fun sid' t ht => ⟨t, ?_, rfl, rfl, id⟩
      rw [hterms, if_neg, ht]
      rintro rfl
      have hnone : (st.finish pid).terms sid' = none := by
        simp [State.terms, SlotMap.obj?, State.finish, hnew]
      cases hnone.symm.trans ht
  exact hinsert.keep Keeps.refl.persistSessions (accountsKept_store userStore_persistSessions)

/-! ### Arming -/

theorem gated_sessionEscrow (h : Gated st tr)
    (hmark : ∀ t, (st.sessionEscrow sid).1.procs st.nextPid = some (.verifyEscrow sid) →
      st.terms sid = some t → .verify st.nextPid t.params.noteB64 ∈ tr) :
    Gated (st.sessionEscrow sid).1 tr := by
  unfold sessionEscrow at hmark ⊢
  dsimp only at hmark ⊢
  split
  · exact h.arrive
  · next s hget =>
      have hterms : st.terms sid = some s.terms := terms_of_get? hget
      refine h.arrive.spawn ⟨s.terms, hterms, hmark s.terms ?_ hterms⟩
      simp_all [State.spawn]

theorem gated_escrowVerified (h : Gated st tr) (hp : st.procs pid = some (.verifyEscrow sid))
    (hmark : .committed pid ∈ tr) : Gated (st.escrowVerified pid sid true w).1 tr := by
  obtain ⟨t, ht, hverify⟩ := h.procs pid _ hp
  have hfinish : Gated (st.finish pid) tr := h.keep Keeps.refl.finish fun _ => id
  have harm : Gated ((st.finish pid).modify sid (arm st.now)) tr := by
    have hterms : ∀ sid', ((st.finish pid).modify sid (arm st.now)).terms sid' =
        if sid' = sid then
          (st.terms sid).map fun t => { t with escrowNoteB64 := some t.params.noteB64 }
        else st.terms sid' := terms_modify fun _ => rfl
    refine ⟨?_, hfinish.saved, ?_⟩
    · intro sid' t' ht'
      rw [hterms] at ht'
      split at ht'
      · next heq =>
          obtain ⟨t₀, ht₀, rfl⟩ := Option.map_eq_some_iff.mp ht'
          obtain rfl : t = t₀ := Option.some.inj (ht.symm.trans ht₀)
          exact ⟨heq ▸ (h.sessions sid t ht).1, .inr ⟨rfl, pid, hverify, hmark⟩⟩
      · exact hfinish.sessions sid' t' ht'
    · intro q p hq
      refine (hfinish.procs q p hq).keep (fun _ => id) fun sid' t' ht' => ?_
      rw [hterms]
      split
      · next heq =>
          subst heq
          exact ⟨_, congrArg (Option.map _) ht', rfl, rfl, fun _ => nofun⟩
      · exact ⟨t', ht', rfl, rfl, id⟩
  exact harm.keep Keeps.refl.persistSessions (accountsKept_store userStore_persistSessions)

/-! ### Serving -/

/-- A message that is let through is of a tier that its wallet may use. -/
theorem gated_chat (h : Gated st tr) (req : ChatRequest) : Gated (st.chat req).1 tr := by
  unfold State.chat
  dsimp only
  split
  · exact h.arrive
  · next s hgate =>
      obtain ⟨hget, harmed, -, -, -, haccount, -, -⟩ := chatGate_ok hgate
      split
      · next tier htier =>
          have hallowed : TierAllowed (req.msgTier s) (st.hasAccount s.buyerId) := by
            cases tier with
            | basic => exact .inl htier
            | genius =>
                refine .inr ⟨htier, haccount ?_⟩
                rw [htier]
                rfl
          have hspawn : Gated (st.arrive.spawn st.nextPid
              (.runAnswer req.sessionId req.prompt (req.msgTier s) s.totalCharge)) tr :=
            h.arrive.spawn ⟨s.terms, terms_of_get? hget, harmed, hallowed⟩
          exact hspawn.keep (Keeps.refl.setBusy.modify keepsTerms_openHistory) fun _ => id
      · exact h.arrive

theorem gated_restart (h : Gated st tr) :
    Gated (boot st.disk st.now st.nextPid st.chain) tr :=
  ⟨fun sid t ht => h.saved sid t (savedTerms_of_boot ht), h.saved, nofun⟩

end Gated

/-! ## Runs -/

/-- A reply is to a message of an allowed tier, in a session whose hold was sized and
whose own escrow note was confirmed before. -/
def GateMark.Allowed (pre : List GateMark) : GateMark → Prop
  | .reply sid terms tier account => ∃ t name, terms = some t ∧ tier = some name ∧
      Held pre sid t ∧ t.escrowNoteB64 = some t.params.noteB64 ∧ Verified pre t ∧
        TierAllowed name account
  | _ => True

section Runs

variable {rt : Runtime} {st : State} {tr : List GateMark} {w : Writes} {i : Served}
  {r : State × List Event} {e : Event}

/-- A step away from the gate. -/
theorem Gated.pass (h : Gated st tr) {i : Input} (hact : i.act.gates = false)
    (hi : step st i = some r) : Gated r.1 tr := by
  have hone : OneProcess st i := by
    rw [oneProcess_iff]
    intro heq
    rw [heq] at hact
    cases hact
  exact h.keep (keeps_step hact hi) (accountsKept_step hone hi)

theorem gated_post (h : Gated st tr) (p : Post) :
    Gated (st.post rt p w).1 (tr ++ gateMarks rt st ⟨.post p, w⟩ (st.post rt p w).1) := by
  have hcases : Refused st (st.post rt p w) ∨ ∃ act w' r, act.endpoint = some p.endpoint ∧
      step st ⟨act, w'⟩ = some r ∧ (st.post rt p w).1 = r.1 ∧ (st.post rt p w).2 ⊆ r.2 ∧
        ∀ req, act = .start req →
          (parseBody (readBody p.chunks)).bind (balanceOf rt) = some req.balance :=
    dispatch_cases p _ _
  have hmono : ∀ st', Gated st (tr ++ gateMarks rt st ⟨.post p, w⟩ st') := fun _ => h.mono
  rcases hcases with ⟨hst, -⟩ | ⟨act, w', r, hend, hstep, hst, -, hbalance⟩
  · rw [hst]
    exact (hmono _).arrive
  · rw [hst]
    have hmono : Gated st (tr ++ gateMarks rt st ⟨.post p, w⟩ r.1) := hmono _
    cases act with
    | start req =>
        obtain rfl := Option.some.inj hstep
        refine gated_sessionStart hmono req fun budget hp => List.mem_append_right _ ?_
        simp [gateMarks, hp, hbalance req rfl]
    | escrow sid =>
        obtain rfl := Option.some.inj hstep
        refine gated_sessionEscrow hmono fun t hp ht => List.mem_append_right _ ?_
        simp [gateMarks, hp, ht]
    | chat req =>
        obtain rfl := Option.some.inj hstep
        exact gated_chat hmono req
    | endSession sid => exact hmono.pass rfl hstep
    | redeem u c => exact hmono.pass rfl hstep
    | register req => exact hmono.pass rfl hstep
    | login u password hash => exact hmono.pass rfl hstep
    | _ => cases hend

theorem gated_step (h : Gated st tr) (hi : serve rt st i = some r) :
    Gated r.1 (tr ++ gateMarks rt st i r.1) := by
  obtain ⟨arrival, w⟩ := i
  cases arrival with
  | post p =>
      obtain rfl := Option.some.inj hi
      exact gated_post h p
  | spawnThrows pid message =>
      exact h.mono.keep (keeps_spawnThrows hi) (accountsKept_store (userStore_spawnThrows hi))
  | other act =>
      obtain ⟨hend, hi⟩ := Option.ite_none_right_eq_some.mp hi
      cases steps_of_step hi with
      | start req => cases hend
      | escrow sid => cases hend
      | chat req => cases hend
      | escrowBuilt hp hnew =>
          exact gated_escrowBuilt h.mono hp hnew
            (List.mem_append_right _ (List.mem_singleton_self _))
      | escrowVerified committed hp =>
          cases committed with
          | false => exact h.mono.pass rfl hi
          | true =>
              exact gated_escrowVerified h.mono hp
                (List.mem_append_right _ (List.mem_singleton_self _))
      | restart => exact gated_restart h.mono
      | _ => exact h.mono.pass rfl hi

theorem kind_spawnThrows {pid : Pid} {message : String} (h : st.spawnThrows pid message = some r) :
    ∀ e ∈ r.2, e.kind = .plain ∨ e.kind = .settleStart := by
  unfold spawnThrows at h
  split at h
  · obtain rfl := Option.some.inj h
    exact fun e he => absurd he List.not_mem_nil
  · obtain rfl := Option.some.inj h
    exact fun e he => absurd he List.not_mem_nil
  · obtain rfl := Option.some.inj h
    exact fun e he => absurd he List.not_mem_nil
  · obtain rfl := Option.some.inj h
    exact fun e he => .inl (List.mem_singleton.mp he ▸ rfl)
  · next sid charge cursor hp =>
      obtain rfl := Option.some.inj h
      intro e he
      have hhandled : Handled (st.releaseCurrent sid) (some pid) [.settleStart]
          ((st.releaseCurrent sid).sweepFrom pid cursor) := handled_sweepFrom Frame.refl (.inr rfl)
      exact (hhandled.kinds e he).imp_right List.mem_singleton.mp
  · obtain rfl := Option.some.inj h
    exact fun e he => absurd he List.not_mem_nil
  · cases h

/-- Requests as clients send them bring no replies of their own. -/
theorem reply_of_serve (hi : serve rt st i = some r) (he : e ∈ r.2) (hreply : e.isReply = true) :
    ∃ pid sid prompt tier spent a total remaining,
      st.procs pid = some (.runAnswer sid prompt tier spent) ∧
        e = .done pid (.reply sid a total remaining) := by
  have hstep : ∀ {act : Action} {w : Writes} {r : State × List Event},
      step st ⟨act, w⟩ = some r → e ∈ r.2 →
        ∃ pid sid prompt tier spent a total remaining,
          st.procs pid = some (.runAnswer sid prompt tier spent) ∧
            e = .done pid (.reply sid a total remaining) := by
    intro act w r hi he
    obtain ⟨pid, sid, prompt, tier, spent, a, -, hp, hmem⟩ := reply_of_step hi he hreply
    obtain ⟨slot, -, -, -, heq⟩ := reply_delivered hmem hreply
    exact ⟨pid, sid, prompt, tier, spent, a, _, _, hp, heq⟩
  obtain ⟨arrival, w⟩ := i
  cases arrival with
  | post p =>
      obtain rfl := Option.some.inj hi
      have htyped : Refused st (st.post rt p w) ∨ Typed p.endpoint st (st.post rt p w) :=
        dispatch_typed p _ _
      rcases htyped with ⟨-, hes⟩ | ⟨act, w', r, -, hact, -, hsub⟩
      · rcases hes with hes | ⟨status, message, hes⟩
        · rw [hes] at he
          cases he
        · rw [hes, List.mem_singleton] at he
          rw [he] at hreply
          cases hreply
      · exact hstep hact (hsub he)
  | spawnThrows pid message =>
      have hkind := kind_of_isReply hreply
      rcases kind_spawnThrows hi e he with hplain | hstart
      · cases hkind.symm.trans hplain
      · cases hkind.symm.trans hstart
  | other act => exact hstep (Option.ite_none_right_eq_some.mp hi).2 he

theorem allowed_marks (h : Gated st tr) (hi : serve rt st i = some r) :
    ∀ m ∈ gateMarks rt st i r.1 ++ r.2.filterMap (replyMark st), ∀ pre,
      m.Allowed (tr ++ pre) := by
  intro m hm pre
  rcases List.mem_append.mp hm with hm | hm
  · unfold gateMarks at hm
    split at hm
    · split at hm
      · rw [List.mem_singleton.mp hm]
        trivial
      · obtain ⟨t, -, rfl⟩ := Option.map_eq_some_iff.mp (Option.mem_toList.mp hm)
        trivial
      · cases hm
    · rw [List.mem_singleton.mp hm]
      trivial
    · rw [List.mem_singleton.mp hm]
      trivial
    · cases hm
  · obtain ⟨e, he, hmark⟩ := List.mem_filterMap.mp hm
    unfold replyMark at hmark
    split at hmark
    · obtain ⟨pid, sid, prompt, tier, spent, a, total, remaining, hp, heq⟩ :=
        reply_of_serve hi he rfl
      obtain ⟨rfl, hres⟩ := Event.done.inj heq
      obtain ⟨rfl, -, -, -⟩ := Response.reply.inj hres
      obtain ⟨t, ht, harmed, htier⟩ := h.procs _ _ hp
      obtain ⟨hheld, hnote⟩ := h.sessions _ t ht
      obtain rfl := Option.some.inj hmark
      rcases hnote with hnone | ⟨hnote, hverified⟩
      · exact absurd hnone harmed
      · have hverified : Verified (tr ++ pre) t := by
          obtain ⟨pid, hverify, hcommitted⟩ := hverified
          exact ⟨pid, List.mem_append_left _ hverify, List.mem_append_left _ hcommitted⟩
        refine ⟨t, tier, ht, ?_, hheld.mono, hnote, hverified, ?_⟩
        · simp [State.msgTier, hp]
        · simpa [ht] using htier
    · cases hmark

variable {disk : Disk} {now : ℕ} {nextPid : Pid} {chain : EscrowNote → NoteStatus}

/-- **Paid inference stands behind a confirmed hold.** From a first start, through any
requests of wallets with an account id, answers and restarts: each session was opened on an escrow built for its budget,
a hold that its tier allows and the reported balance covers; it is armed only with the
note of that escrow, and only after `verify_escrow` confirmed that note; and each reply
goes out in an armed session, to a message of a tier that its wallet may use. -/
theorem gated (hdisk : disk.sessions = none)
    (h : Trace (lts (gateStep rt) (ServedByAccounts rt)) (boot disk now nextPid chain) tr st) :
    (∀ sid s, st.sessions.obj? sid = some s →
        Held tr sid s.terms ∧ ArmedByNote tr s.terms) ∧
      Before (fun pre m => m.Allowed pre) tr := by
  have hboot : Gated (boot disk now nextPid chain) [] := by
    refine ⟨?_, ?_, nofun⟩
    · intro sid t ht
      simp [State.terms, boot, restoreSessions, hdisk, SlotMap.obj?, SlotMap.slot?,
        SlotMap.empty] at ht
    · intro sid t ht
      simp [State.savedTerms, boot, hdisk] at ht
  obtain ⟨hgated, hbefore⟩ := h.invariant
    (I := fun st tr => Gated st tr ∧ Before (fun pre m => m.Allowed pre) tr)
    ⟨hboot, before_nil⟩ fun st tr ms st' hinv hstep => by
      obtain ⟨hg, hb⟩ := hinv
      obtain ⟨i, -, hi⟩ := hstep
      obtain ⟨r, hr, heq⟩ := Option.map_eq_some_iff.mp hi
      obtain ⟨rfl, rfl⟩ := Prod.mk.inj heq
      rw [before_append, ← List.append_assoc]
      exact ⟨(gated_step hg hr).mono, hb, before_of_forall (allowed_marks hg hr)⟩
  refine ⟨fun sid s hs => hgated.sessions sid s.terms ?_, hbefore⟩
  rw [State.terms, hs]
  rfl

end Runs

/-! ## A served message -/

/-- A balance in the body is worth 60000 units, and `s` is the id of session 0. -/
def gateRuntime : Runtime where
  number _ := .finite 60000 0
  numText _ := utf16 "0"
  stack := 1000
  stringifies _ := true
  stringifiesUsers _ := true
  session us := if us = utf16 "s" then some 0 else none
  scrypt _ _ := ""
  syntaxError _ := ""

/-- A request whose body is one chunk. -/
def jsonPost (endpoint : Endpoint) (members : List (Utf16 × Json)) : Post :=
  ⟨endpoint, true, [Text.encodeUtf8 (print compact 0 (.obj members))], ""⟩

/-- The terms of the session that the run opens. -/
def demoTerms (escrowNoteB64 : Option EscrowNote) : Terms :=
  ⟨nameText (utf16 "0xb0b"), "basic", demoParams, 50000, escrowNoteB64⟩

def startPost : Post := jsonPost .start
  [(utf16 "buyerId", .str (utf16 "0xb0b")), (utf16 "balance", .str (utf16 "60000"))]

def escrowPost : Post := jsonPost .escrow [(utf16 "sessionId", .str (utf16 "s"))]

def chatPost : Post := jsonPost .chat
  [(utf16 "sessionId", .str (utf16 "s")), (utf16 "prompt", .str (utf16 "hi"))]

/-! The states of the run. -/

def startedState : State :=
  (demoBoot.sessionStart ⟨nameText (utf16 "0xb0b"), "basic", .finite 60000 0⟩).1

def openedState : State :=
  (startedState.escrowBuilt 0 (nameText (utf16 "0xb0b")) "basic" 0
    (some (50000, demoParams)) .ok).1

def askedState : State := (openedState.sessionEscrow 0).1

def armedState : State := (askedState.escrowVerified 1 0 true .ok).1

def chattingState : State := (armedState.chat ⟨0, utf16 "hi", none⟩).1

def servedState : State :=
  (chattingState.chatAnswered 2 0 (utf16 "hi") "basic" 0 (.ok demoAnswer) .ok).1

/-- A session is opened and armed, and a message is answered in it. -/
theorem gated_demo : ∃ (tr : List GateMark) (st : State),
    .reply 0 (some (demoTerms (some demoNote))) (some "basic") false ∈ tr ∧
    (∀ sid s, st.sessions.obj? sid = some s →
        Held tr sid s.terms ∧ ArmedByNote tr s.terms) ∧
      Before (fun pre m => m.Allowed pre) tr := by
  have hstart : gateStep gateRuntime demoBoot ⟨.post startPost, .ok⟩ =
      some (startedState, [.build 0 "basic" (some (.finite 60000 0)) (some 50000)]) := by
    simp only [gateStep, serve, post, gateMarks, startPost, jsonPost, parseBody_print]
    rfl
  have hopen : gateStep gateRuntime startedState ⟨.other (.escrowBuilt 0 0 (some demoParams)), .ok⟩ =
      some (openedState, [.opened 0 0 demoParams]) := rfl
  have hask : gateStep gateRuntime openedState ⟨.post escrowPost, .ok⟩ =
      some (askedState, [.verify 1 demoNote]) := by
    simp only [gateStep, serve, post, gateMarks, escrowPost, jsonPost, parseBody_print]
    rfl
  have harm : gateStep gateRuntime askedState ⟨.other (.escrowVerified 1 true), .ok⟩ =
      some (armedState, [.committed 1]) := rfl
  have hchat : gateStep gateRuntime armedState ⟨.post chatPost, .ok⟩ = some (chattingState, []) := by
    simp only [gateStep, serve, post, gateMarks, chatPost, jsonPost, parseBody_print]
    rfl
  have hanswer : gateStep gateRuntime chattingState ⟨.other (.answered 2 (.ok demoAnswer)), .ok⟩ =
      some (servedState,
        [.reply 0 (some (demoTerms (some demoNote))) (some "basic") false]) := rfl
  have hother : ∀ st act, ServedByAccounts gateRuntime st ⟨.other act, .ok⟩ := by
    intro st act w hw
    cases hw
  have hbuyer : ServedByAccounts gateRuntime demoBoot ⟨.post startPost, .ok⟩ := by
    simp only [ServedByAccounts, Arrival.wallet, startPost, jsonPost, parseBody_print]
    decide
  have hescrow : ServedByAccounts gateRuntime openedState ⟨.post escrowPost, .ok⟩ := by
    simp only [ServedByAccounts, Arrival.wallet, escrowPost, jsonPost, parseBody_print]
    decide
  have hmessage : ServedByAccounts gateRuntime armedState ⟨.post chatPost, .ok⟩ := by
    simp only [ServedByAccounts, Arrival.wallet, chatPost, jsonPost, parseBody_print]
    decide
  have htrace := (((((Trace.single
    (T := lts (gateStep gateRuntime) (ServedByAccounts gateRuntime))
    ⟨_, hbuyer, hstart⟩).tail ⟨_, hother _ _, hopen⟩).tail ⟨_, hescrow, hask⟩).tail
      ⟨_, hother _ _, harm⟩).tail ⟨_, hmessage, hchat⟩).tail ⟨_, hother _ _, hanswer⟩
  exact ⟨_, _, by simp, gated rfl htrace⟩

end Bartok.Bridge
