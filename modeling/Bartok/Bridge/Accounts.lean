import Bartok.Bridge.Credits
import Bartok.Bridge.Refunds
import Mathlib.Algebra.BigOperators.Group.List.Basic

/-!
# The user records

Four handlers write to `users`: a delivered reply adds to the spend of its buyer,
a redeem request creates a missing record and, after its mint, attaches the claimed
codes, and a registration replaces the whole record. All of them look the record up
when they write, so a handler that was suspended writes into what the record has
become. `State.userStore` keeps of the bridge what they write to.
-/

namespace Bartok.Bridge

open Foundation Miden State

/-- The `users` object with the maps it refers to, and `users.json`. -/
structure UserStore where
  users : WalletId → Option User
  maps : WalletId → List (List Code)
  saved : Option (WalletId → Option SavedUser)

namespace UserStore

variable (s : UserStore)

/-- The records by value. -/
def records (w : WalletId) : Option SavedUser :=
  (s.users w).map fun u =>
    ⟨u.account, u.spent, u.codes.map fun r => ((s.maps w)[r]?).getD [], u.redeemed⟩

/-- `saveUsers`, whether or not it throws. -/
def save (ok : Bool) : UserStore := if ok then { s with saved := some s.records } else s

end UserStore

/-- What most handlers leave alone: the records, and the lock of the chat. -/
structure Aside where
  store : UserStore
  busy : Bool

namespace State

variable (st : State)

def userStore : UserStore := ⟨st.users, st.claimedMaps, st.disk.users⟩

def aside : Aside := ⟨st.userStore, st.busy⟩

/-- The credentials of a wallet. -/
def account (w : WalletId) : Option Account := (st.users w).bind User.account

end State

/-! ## Operations on the state -/

section Operations

variable {st st' : State} {pid : Pid} {sid : SessionId} {f : Session → Session} {w : WalletId}
  {wr : Writes} {ok : Bool} {file : Option NoteFile} {note : EscrowNote} {run : SettleRun}

theorem aside_persistSessions : (st.persistSessions ok).aside = st.aside := by
  unfold persistSessions
  split <;> rfl

theorem aside_closeSession : (st.closeSession sid wr).aside = st.aside :=
  aside_persistSessions

theorem aside_releaseCurrent : (st.releaseCurrent sid).aside = st.aside := by
  unfold releaseCurrent
  split <;> rfl

theorem aside_land : (st.land note run).aside = st.aside := by
  unfold State.land
  split <;> rfl

theorem aside_startJoao : (st.startJoao file).1.aside = st.aside := by
  unfold startJoao
  split <;> rfl

theorem aside_recordRefund (h : st.recordRefund w file ok = some st') :
    st'.aside = st.aside := by
  obtain ⟨-, _, rfl⟩ := recordRefund_eq_some h
  rfl

theorem aside_setStats {x : SellerStats} : (st.setStats x).aside = st.aside := rfl

theorem userStore_spawn {p : Proc} : (st.spawn pid p).userStore = st.userStore := rfl

theorem userStore_modify : (st.modify sid f).userStore = st.userStore := rfl

theorem userStore_setStats {x : SellerStats} : (st.setStats x).userStore = st.userStore := rfl

theorem userStore_persistSessions : (st.persistSessions ok).userStore = st.userStore :=
  congrArg Aside.store aside_persistSessions

theorem userStore_saveUsers (h : st.saveUsers ok = some st') :
    ok = true ∧ st'.userStore = st.userStore.save ok := by
  have hok : ok = true := by
    unfold saveUsers at h
    split at h
    · assumption
    · cases h
  obtain rfl := saveUsers_eq_some h
  exact ⟨hok, by rw [hok]; rfl⟩

theorem saveUsers_eq_none (h : st.saveUsers ok = none) : ok = false := by
  unfold saveUsers at h
  split at h
  · cases h
  · next hok => exact Bool.eq_false_iff.mpr hok

end Operations

/-! ## Handlers that leave the records alone -/

section Handlers

variable {st : State} {pid : Pid} {sid : SessionId} {s : Session} {u : WalletId} {tier : String}
  {w : Writes} {charge attempt cursor : ℕ} {run : SettleRun}

theorem aside_sessionStart (req : StartRequest) :
    (st.sessionStart req).1.aside = st.aside := by
  unfold sessionStart
  dsimp only
  split
  · rfl
  · split
    · rfl
    · split
      · rfl
      · split
        · split <;> rfl
        · rfl

theorem aside_escrowBuilt {built : Option (ℕ × EscrowParams)} :
    (st.escrowBuilt pid u tier sid built w).1.aside = st.aside := by
  cases built with
  | none => rfl
  | some b => exact aside_persistSessions

theorem aside_sessionEscrow : (st.sessionEscrow sid).1.aside = st.aside := by
  unfold sessionEscrow
  dsimp only
  split <;> rfl

theorem aside_escrowVerified (committed : Bool) :
    (st.escrowVerified pid sid committed w).1.aside = st.aside := by
  unfold escrowVerified
  dsimp only
  split
  · exact aside_persistSessions
  · rfl

theorem aside_sessionEnd : (st.sessionEnd sid).1.aside = st.aside := by
  unfold sessionEnd
  dsimp only
  split
  · rfl
  · split
    · rfl
    · split
      · rfl
      · split <;> rfl

theorem aside_endReturned :
    (st.endReturned pid sid s charge attempt run w).1.aside = st.aside := by
  unfold endReturned
  dsimp only
  split
  · split
    · rfl
    · next hrec =>
        rw [aside_startJoao]
        exact aside_closeSession.trans (aside_setStats.trans (aside_recordRefund hrec))
  · exact aside_closeSession
  · split <;> rfl
  · rfl

theorem aside_sweepFrom : (st.sweepFrom pid cursor).1.aside = st.aside := by
  unfold sweepFrom
  split
  · rfl
  · split <;> rfl

theorem aside_sweepSettled : (st.sweepSettled sid s run w).1.aside = st.aside := by
  unfold sweepSettled
  split
  · split
    · exact aside_releaseCurrent
    · next hrec =>
        rw [aside_startJoao, aside_releaseCurrent, aside_closeSession,
          aside_recordRefund hrec]
  · exact aside_releaseCurrent.trans aside_closeSession
  · exact aside_releaseCurrent

theorem aside_login (password hash : String) :
    (st.login u password hash).1.aside = st.aside := by
  unfold State.login
  dsimp only
  split
  · rfl
  · split
    · rfl
    · split <;> rfl

theorem userStore_chat (req : ChatRequest) : (st.chat req).1.userStore = st.userStore := by
  unfold State.chat
  dsimp only
  split
  · rfl
  · split <;> rfl

/-- The actions whose handlers write to the records, or to the lock. -/
def Action.writesAside : Action → Bool
  | .chat _ => true
  | .answered _ _ => true
  | .redeem _ _ => true
  | .funded _ _ => true
  | .register _ => true
  | _ => false

theorem aside_step {i : Input} {r : State × List Event} (hone : OneProcess st i)
    (hi : step st i = some r) (hact : i.act.writesAside = false) : r.1.aside = st.aside := by
  obtain ⟨act, w⟩ := i
  cases steps_of_step hi with
  | tick | fundNote | consumeNote | connect => rfl
  | start req => exact aside_sessionStart req
  | escrowFailed hp => exact aside_escrowBuilt
  | escrowBuilt hp hnew => exact aside_escrowBuilt
  | escrow sid => exact aside_sessionEscrow
  | escrowVerified committed hp => exact aside_escrowVerified committed
  | endSession sid => exact aside_sessionEnd
  | endReturned hp hslot hnote hland => exact aside_endReturned.trans aside_land
  | endWoken hp hslot hnote => rfl
  | sweep => exact aside_sweepFrom
  | sweepReturned hp hslot hnote hland =>
      exact aside_sweepFrom.trans (aside_sweepSettled.trans aside_land)
  | joaoReturned hp => rfl
  | login u password hash => exact aside_login password hash
  | chat | answered | redeem | funded | register => cases hact
  | restart => exact hone.elim

/-- The actions whose handlers write to the records. -/
def Action.writesUsers : Action → Bool
  | .chat _ => false
  | act => act.writesAside

/-- **Only four handlers write to the records.** -/
theorem userStore_step {i : Input} {r : State × List Event} (hone : OneProcess st i)
    (hi : step st i = some r) (hact : i.act.writesUsers = false) :
    r.1.userStore = st.userStore := by
  cases haside : i.act.writesAside with
  | false => exact congrArg Aside.store (aside_step hone hi haside)
  | true =>
      obtain ⟨act, w⟩ := i
      cases steps_of_step hi with
      | chat req => exact userStore_chat req
      | _ => cases hact.symm.trans haside

end Handlers

/-! ## Handlers that write to the records -/

section Writers

variable {st : State} {pid : Pid} {sid : SessionId} {s : Session} {w u : WalletId}
  {tier : String} {prompt : JsString} {spent : ℕ} {code : Code} {claimed : ℕ} {wr : Writes}

/-- A chat is not charged and gets no reply, or its charge is recorded and, when
it can be saved, its reply is sent. -/
theorem chatAnswered_records (res : Except String Answer) :
    ((st.chatAnswered pid sid prompt tier spent res wr).1.userStore = st.userStore ∧
      ∀ e ∈ (st.chatAnswered pid sid prompt tier spent res wr).2, e.isReply = false) ∨
    ∃ a s total remaining, res = .ok a ∧ st.sessions.obj? sid = some s ∧
      (st.chatAnswered pid sid prompt tier spent res wr).1.userStore =
        (st.addSpend s.buyerId a.charge).userStore.save wr.users ∧
      (wr.users = true → (st.chatAnswered pid sid prompt tier spent res wr).2 =
        [.seller (.jobDone tier a.model a.tokens a.charge),
          .done pid (.reply sid a total remaining)]) := by
  unfold chatAnswered
  dsimp only
  split
  · exact .inl ⟨rfl, by simp [Event.isReply]⟩
  · exact .inl ⟨rfl, by simp⟩
  · next a s hs =>
      split
      · exact .inl ⟨rfl, by simp [Event.isReply]⟩
      · split
        · exact .inl ⟨rfl, by simp [Event.isReply]⟩
        · refine .inr ⟨a, s, spent + a.charge, s.budget - (spent + a.charge), rfl, hs, ?_⟩
          have hcharged : ∀ st₀ : State, st₀.userStore = st.userStore →
              (st₀.addSpend s.buyerId a.charge).userStore =
                (st.addSpend s.buyerId a.charge).userStore := by
            intro st₀ hst₀
            obtain ⟨husers, hmaps, hsaved⟩ := UserStore.mk.inj hst₀
            simp only [userStore, addSpend, setUser, userOr, spentBy, husers, hmaps, hsaved]
          unfold deliver
          dsimp only
          split
          · next hsave =>
              have hfails : wr.users = false := saveUsers_eq_none hsave
              refine ⟨?_, fun h => ?_⟩
              · rw [hfails, hcharged _ (by rw [userStore_modify, userStore_persistSessions]; rfl)]
                rfl
              · rw [hfails] at h
                cases h
          · next hsave =>
              refine ⟨?_, fun _ => rfl⟩
              rw [userStore_setStats, (userStore_saveUsers hsave).2,
                hcharged _ (by rw [userStore_modify, userStore_persistSessions]; rfl)]

/-- A redeem request writes nothing, or makes sure that the wallet has a record,
to which it may add a fresh map of claimed codes. -/
theorem redeem_records (st : State) (w : WalletId) (c : String) :
    (st.redeem w c).1.userStore = st.userStore ∨
      (st.redeem w c).1.userStore = (st.setUser w (st.userOr w)).userStore ∨
      (st.redeem w c).1.userStore =
        ((st.setUser w (st.userOr w)).captureClaimed w).1.userStore := by
  unfold State.redeem
  dsimp only
  split
  · exact .inl rfl
  · split
    · exact .inl rfl
    · split
      · exact .inr (.inl rfl)
      · split
        · exact .inr (.inl rfl)
        · refine .inr (.inr ?_)
          rw [userStore_spawn]
          unfold captureClaimed
          split
          · next hcodes =>
              have hcodes : ((st.setUser w (st.userOr w)).userOr w).codes = some _ := hcodes
              rw [hcodes]
              rfl
          · next hcodes =>
              have hcodes : ((st.setUser w (st.userOr w)).userOr w).codes = none := hcodes
              rw [hcodes]
              rfl

/-- A mint that failed leaves the records alone. -/
theorem funded_records (ok : Bool) :
    (st.funded pid w code claimed ok wr).1.userStore =
      if ok then (st.claim w code claimed).userStore.save wr.users else st.userStore := by
  unfold State.funded
  dsimp only
  split
  · split
    · next hsave =>
        rw [saveUsers_eq_none hsave]
        rfl
    · next hsave =>
        rw [(userStore_saveUsers hsave).2]
        rfl
  · rfl

/-- A registration writes nothing, or gives a wallet without credentials its own. -/
theorem register_records (st : State) (req : RegisterRequest) (wr : Writes) :
    ((st.register req wr).1.userStore = st.userStore ∧
      ∀ pid name, .done pid (.loggedIn name) ∉ (st.register req wr).2) ∨
    ∃ account : Account, account.salt = req.salt ∧ account.hash = req.hash ∧
      st.account req.buyerId = none ∧
      (st.register req wr).1.userStore = (st.setUser req.buyerId
        { st.userOr req.buyerId with account := some account }).userStore.save wr.users ∧
      ∀ pid name, .done pid (.loggedIn name) ∈ (st.register req wr).2 → name = account.name := by
  unfold State.register
  dsimp only
  split
  · exact .inl ⟨rfl, by simp⟩
  · split
    · exact .inl ⟨rfl, by simp⟩
    · next hnew =>
        have hnew : st.account req.buyerId = none := by
          simpa [hasAccount, State.account, arrive] using hnew
        refine .inr ⟨⟨nameOr req.name, req.salt, req.hash⟩, rfl, rfl, hnew, ?_⟩
        split
        · next hsave =>
            refine ⟨?_, by simp⟩
            rw [saveUsers_eq_none hsave]
            rfl
        · next hsave =>
            refine ⟨?_, by simp⟩
            rw [(userStore_saveUsers hsave).2]
            rfl

end Writers

/-! ## What a write to a record keeps -/

section Records

variable {st : State} {w u : WalletId} {x : User} {n : ℕ} {ok : Bool} {code : Code} {claimed : ℕ}

theorem account_eq {st st' : State} (h : st'.userStore = st.userStore) :
    st'.account w = st.account w := by
  rw [State.account, (UserStore.mk.inj h).1]
  rfl

theorem spentBy_eq {st st' : State} (h : st'.userStore = st.userStore) :
    st'.spentBy w = st.spentBy w := by
  rw [State.spentBy, (UserStore.mk.inj h).1]
  rfl

theorem users_save {s : UserStore} : (s.save ok).users = s.users := by
  unfold UserStore.save
  split <;> rfl

theorem maps_save {s : UserStore} : (s.save ok).maps = s.maps := by
  unfold UserStore.save
  split <;> rfl

theorem account_save {st' : State} (h : st'.userStore = st.userStore.save ok) :
    st'.account w = st.account w := by
  have husers : st'.users = st.users := (congrArg UserStore.users h).trans users_save
  rw [State.account, husers]
  rfl

theorem spentBy_save {st' : State} (h : st'.userStore = st.userStore.save ok) :
    st'.spentBy w = st.spentBy w := by
  have husers : st'.users = st.users := (congrArg UserStore.users h).trans users_save
  rw [State.spentBy, husers]
  rfl

theorem account_setUser : (st.setUser u x).account w = if w = u then x.account else st.account w := by
  by_cases hw : w = u
  · subst hw
    simp [State.account, setUser]
  · simp [State.account, setUser, hw]

theorem spentBy_setUser : (st.setUser u x).spentBy w = if w = u then x.spent else st.spentBy w := by
  by_cases hw : w = u
  · subst hw
    simp [spentBy, setUser]
  · simp [spentBy, setUser, hw]

theorem account_userOr : (st.userOr w).account = st.account w := by
  unfold userOr State.account
  cases st.users w <;> rfl

theorem spent_userOr : (st.userOr w).spent = st.spentBy w := by
  unfold userOr spentBy
  cases st.users w <;> rfl

theorem account_addSpend : (st.addSpend u n).account w = st.account w := by
  rw [addSpend, account_setUser]
  split
  · next hw => rw [hw, account_userOr]
  · rfl

theorem spentBy_addSpend :
    (st.addSpend u n).spentBy w = st.spentBy w + if w = u then n else 0 := by
  rw [addSpend, spentBy_setUser]
  split
  · next hw => rw [hw]
  · rfl

theorem account_captureClaimed : (st.captureClaimed u).1.account w = st.account w := by
  unfold captureClaimed
  split <;> rfl

theorem spentBy_captureClaimed : (st.captureClaimed u).1.spentBy w = st.spentBy w := by
  unfold captureClaimed
  split <;> rfl

theorem account_claim : (st.claim u code claimed).account w = st.account w := by
  rw [State.claim, account_setUser]
  split
  · next hw =>
      rw [hw]
      exact account_userOr
  · rfl

theorem spentBy_claim : (st.claim u code claimed).spentBy w = st.spentBy w := by
  rw [State.claim, spentBy_setUser]
  split
  · next hw =>
      rw [hw]
      exact spent_userOr
  · rfl

/-! Records of other wallets, by value. -/

theorem savedUsers_eq {st' : State} (husers : st'.users w = st.users w)
    (hmaps : st'.claimedMaps w = st.claimedMaps w) : st'.savedUsers w = st.savedUsers w := by
  unfold savedUsers
  rw [husers]
  apply Option.map_congr
  intro x _
  have hmap : st'.claimedMap w = st.claimedMap w := funext fun r => by
    rw [claimedMap, claimedMap, hmaps]
  rw [hmap]

theorem savedUsers_setUser (hw : w ≠ u) : (st.setUser u x).savedUsers w = st.savedUsers w :=
  savedUsers_eq (Function.update_of_ne hw _ _) rfl

theorem savedUsers_captureClaimed (hw : w ≠ u) :
    (st.captureClaimed u).1.savedUsers w = st.savedUsers w := by
  unfold captureClaimed
  split
  · rfl
  · exact savedUsers_eq rfl (Function.update_of_ne hw _ _)

theorem savedUsers_claim (hw : w ≠ u) :
    (st.claim u code claimed).savedUsers w = st.savedUsers w :=
  savedUsers_eq (Function.update_of_ne hw _ _) (Function.update_of_ne hw _ _)

theorem savedUsers_of_store {st' : State} (husers : st'.users = st.users)
    (hmaps : st'.claimedMaps = st.claimedMaps) : st'.savedUsers w = st.savedUsers w :=
  savedUsers_eq (congrFun husers w) (congrFun hmaps w)

end Records

/-! ## What a step can do to the records -/

/-- The wallet to whose record an action may write. -/
def State.recordOf (st : State) : Action → Option WalletId
  | .answered pid _ =>
      match st.procs pid with
      | some (.runAnswer sid _ _ _) => (st.sessions.obj? sid).map Session.buyerId
      | _ => none
  | .redeem w _ => some w
  | .funded pid _ =>
      match st.procs pid with
      | some (.fundBuyer w _ _) => some w
      | _ => none
  | .register req => some req.buyerId
  | _ => none

inductive RecordsStep (st : State) (ok : Bool) (r : State × List Event) : Option WalletId → Prop
  | keep {owner} (hstore : r.1.userStore = st.userStore)
      (hquiet : ∀ e ∈ r.2, e.isReply = false) : RecordsStep st ok r owner
  | reply {a s sid pid tier total remaining} (hs : st.sessions.obj? sid = some s)
      (hstore : r.1.userStore = (st.addSpend s.buyerId a.charge).userStore.save ok)
      (hreply : ok = true → r.2 = [.seller (.jobDone tier a.model a.tokens a.charge),
        .done pid (.reply sid a total remaining)]) : RecordsStep st ok r (some s.buyerId)
  | touch {w} (hstore : r.1.userStore = (st.setUser w (st.userOr w)).userStore)
      (hquiet : ∀ e ∈ r.2, e.isReply = false) : RecordsStep st ok r (some w)
  | capture {w}
      (hstore : r.1.userStore = ((st.setUser w (st.userOr w)).captureClaimed w).1.userStore)
      (hquiet : ∀ e ∈ r.2, e.isReply = false) : RecordsStep st ok r (some w)
  | claim {w code claimed} (hstore : r.1.userStore = (st.claim w code claimed).userStore.save ok)
      (hquiet : ∀ e ∈ r.2, e.isReply = false) : RecordsStep st ok r (some w)
  | register {w} {account : Account} (hnew : st.account w = none)
      (hstore : r.1.userStore = (st.setUser w
        { st.userOr w with account := some account }).userStore.save ok)
      (hquiet : ∀ e ∈ r.2, e.isReply = false) : RecordsStep st ok r (some w)

theorem records_step {st : State} {i : Input} {r : State × List Event} (hone : OneProcess st i)
    (hi : step st i = some r) : RecordsStep st i.writes.users r (st.recordOf i.act) := by
  have hquiet : (∀ pid res, i.act ≠ .answered pid res) → ∀ e ∈ r.2, e.isReply = false := by
    intro hact e he
    by_contra hreply
    obtain ⟨pid, sid, prompt, tier, spent, a, hanswered, -⟩ :=
      reply_of_step hi he (by simpa using hreply)
    exact hact _ _ hanswered
  by_cases hact : i.act.writesUsers = false
  · refine .keep (userStore_step hone hi hact) (hquiet fun pid res h => ?_)
    rw [h] at hact
    cases hact
  · obtain ⟨act, w⟩ := i
    cases steps_of_step hi with
    | @answered pid _ _ _ _ res hp =>
        rcases chatAnswered_records res with ⟨hstore, hquiet⟩ |
          ⟨a, s, total, remaining, -, hs, hstore, hreply⟩
        · exact .keep hstore hquiet
        · have howner : st.recordOf (.answered pid res) = some s.buyerId := by
            simp only [State.recordOf, hp, hs, Option.map_some]
          rw [howner]
          exact .reply hs hstore hreply
    | redeem u c =>
        have hquiet := hquiet (by simp)
        rcases redeem_records st u c with hstore | hstore | hstore
        · exact .keep hstore hquiet
        · exact .touch hstore hquiet
        · exact .capture hstore hquiet
    | @funded pid u _ _ ok hp =>
        have hquiet := hquiet (by simp)
        have howner : st.recordOf (.funded pid ok) = some u := by simp only [State.recordOf, hp]
        rw [howner]
        cases ok with
        | true => exact .claim (funded_records true) hquiet
        | false => exact .keep (funded_records false) hquiet
    | register req =>
        have hquiet := hquiet (by simp)
        rcases register_records st req w with ⟨hstore, -⟩ | ⟨account, -, -, hnew, hstore, -⟩
        · exact .keep hstore hquiet
        · exact .register hnew hstore hquiet
    | _ => exact absurd rfl hact

section Steps

variable {st : State} {ok : Bool} {r : State × List Event} {owner : Option WalletId} {w : WalletId}

/-- Credentials are written once. -/
theorem RecordsStep.account (h : RecordsStep st ok r owner) {account : Account}
    (haccount : st.account w = some account) : r.1.account w = some account := by
  rw [← haccount]
  cases h with
  | keep hstore => exact account_eq hstore
  | reply hs hstore => exact (account_save hstore).trans account_addSpend
  | touch hstore =>
      rw [account_eq hstore, account_setUser]
      split
      · next hw => rw [hw, account_userOr]
      · rfl
  | capture hstore =>
      rw [account_eq hstore, account_captureClaimed, account_setUser]
      split
      · next hw => rw [hw, account_userOr]
      · rfl
  | claim hstore => exact (account_save hstore).trans account_claim
  | @register u account' hnew hstore =>
      rw [account_save hstore, account_setUser, if_neg]
      rintro rfl
      rw [hnew] at haccount
      cases haccount

/-- No other record changes. -/
theorem RecordsStep.others (h : RecordsStep st ok r owner) (hw : owner ≠ some w) :
    r.1.savedUsers w = st.savedUsers w := by
  have hstore : ∀ {st' : State}, r.1.userStore = st'.userStore →
      r.1.savedUsers w = st'.savedUsers w :=
    fun h => savedUsers_of_store (UserStore.mk.inj h).1 (UserStore.mk.inj h).2.1
  have hsaved : ∀ {st' : State}, r.1.userStore = st'.userStore.save ok →
      r.1.savedUsers w = st'.savedUsers w := fun h =>
    savedUsers_of_store ((congrArg UserStore.users h).trans users_save)
      ((congrArg UserStore.maps h).trans maps_save)
  have hne : ∀ {u}, owner = some u → w ≠ u := by
    rintro u rfl rfl
    exact hw rfl
  cases h with
  | keep h => exact hstore h
  | reply hs h => exact (hsaved h).trans (savedUsers_setUser (hne rfl))
  | touch h => exact (hstore h).trans (savedUsers_setUser (hne rfl))
  | capture h =>
      exact (hstore h).trans
        ((savedUsers_captureClaimed (hne rfl)).trans (savedUsers_setUser (hne rfl)))
  | claim h => exact (hsaved h).trans (savedUsers_claim (hne rfl))
  | register _ h => exact (hsaved h).trans (savedUsers_setUser (hne rfl))

/-- `users.json` is as it was, or holds the records there are now. -/
theorem RecordsStep.disk (h : RecordsStep st ok r owner) :
    r.1.disk.users = st.disk.users ∨ r.1.disk.users = some r.1.savedUsers := by
  have hstore : ∀ {st' : State}, r.1.userStore = st'.userStore →
      st'.disk.users = st.disk.users → r.1.disk.users = st.disk.users :=
    fun h hdisk => (UserStore.mk.inj h).2.2.trans hdisk
  have hsaved : ∀ {st' : State}, r.1.userStore = st'.userStore.save ok →
      st'.disk.users = st.disk.users →
      r.1.disk.users = st.disk.users ∨ r.1.disk.users = some r.1.savedUsers := by
    intro st' h hdisk
    cases ok with
    | false => exact .inl ((UserStore.mk.inj h).2.2.trans hdisk)
    | true =>
        obtain ⟨husers, hmaps, hdisk'⟩ := UserStore.mk.inj h
        refine .inr (hdisk'.trans (congrArg some (funext fun w => ?_)))
        exact (savedUsers_eq (congrFun husers w) (congrFun hmaps w)).symm
  cases h with
  | keep h => exact .inl (hstore h rfl)
  | reply hs h => exact hsaved h rfl
  | touch h => exact .inl (hstore h rfl)
  | capture h =>
      refine .inl (hstore h ?_)
      unfold captureClaimed
      split <;> rfl
  | claim h => exact hsaved h rfl
  | register _ h => exact hsaved h rfl

end Steps

/-! ## Spend -/

/-- The charge of a reply on a session of the wallet. -/
def Event.spends (st : State) (w : WalletId) : Event → ℕ
  | .done _ (.reply sid a _ _) =>
      if (st.sessions.obj? sid).map Session.buyerId = some w then a.charge else 0
  | _ => 0

/-- The charges of all the replies the wallet has been sent. -/
def repliedTo (st : State) (w : WalletId) (tr : List Event) : ℕ :=
  (tr.map (Event.spends st w)).sum

section Spend

variable {st : State} {ok : Bool} {r : State × List Event} {owner : Option WalletId} {w : WalletId}
  {tr es : List Event}

theorem repliedTo_append : repliedTo st w (tr ++ es) = repliedTo st w tr + repliedTo st w es := by
  simp [repliedTo]

theorem repliedTo_quiet (h : ∀ e ∈ es, e.isReply = false) : repliedTo st w es = 0 := by
  apply List.sum_eq_zero
  intro n hn
  obtain ⟨e, he, rfl⟩ := List.mem_map.mp hn
  have hquiet := h e he
  unfold Event.spends
  split
  · cases hquiet
  · rfl

/-- What a step adds to the spend of a wallet, with its session's buyer read
before the step. -/
theorem RecordsStep.spend (h : RecordsStep st ok r owner) (hok : ok = true) :
    r.1.spentBy w = st.spentBy w + repliedTo st w r.2 := by
  cases h with
  | keep hstore hquiet => rw [spentBy_eq hstore, repliedTo_quiet hquiet, Nat.add_zero]
  | @reply a s sid pid tier total remaining hs hstore hreply =>
      rw [spentBy_save hstore, spentBy_addSpend, hreply hok]
      simp [repliedTo, Event.spends, hs, eq_comm]
  | touch hstore hquiet =>
      rw [spentBy_eq hstore, repliedTo_quiet hquiet, spentBy_setUser, Nat.add_zero]
      split
      · next hw => rw [hw, spent_userOr]
      · rfl
  | capture hstore hquiet =>
      rw [spentBy_eq hstore, repliedTo_quiet hquiet, spentBy_captureClaimed, spentBy_setUser,
        Nat.add_zero]
      split
      · next hw => rw [hw, spent_userOr]
      · rfl
  | claim hstore hquiet =>
      rw [spentBy_save hstore, repliedTo_quiet hquiet, spentBy_claim, Nat.add_zero]
  | register hnew hstore hquiet =>
      rw [spentBy_save hstore, repliedTo_quiet hquiet, spentBy_setUser, Nat.add_zero]
      split
      · next hw =>
          rw [hw]
          exact spent_userOr
      · rfl

/-- A session keeps its buyer. -/
theorem buyer_step {sid : SessionId} {i : Input} (hf : st.Fresh) (hone : OneProcess st i)
    (hi : step st i = some r) (hw : (st.sessions.obj? sid).map Session.buyerId = some w) :
    (r.1.sessions.obj? sid).map Session.buyerId = some w := by
  obtain ⟨s, hs, hbuyer⟩ := Option.map_eq_some_iff.mp hw
  obtain ⟨slot, hslot, rfl⟩ := obj?_eq_some hs
  have hrun := (step_sees sid hf hone hi).2
  have hkept : ∃ slot', (r.1.view sid).slot = some slot' ∧ slot'.val.buyerId = w := by
    refine hrun.stateInvariant
      (I := fun v : SessionView => ∃ slot', v.slot = some slot' ∧ slot'.val.buyerId = w)
      ⟨slot, hslot, hbuyer⟩ ?_
    rintro v es v' ⟨slot', hslot', hbuyer'⟩ hstep
    obtain ⟨slot'', hslot'', -, hkeep, -⟩ := hstep.keepsNote hslot'
    exact ⟨slot'', hslot'', hkeep.trans hbuyer'⟩
  obtain ⟨slot', hslot', hbuyer'⟩ := hkept
  have hslot' : r.1.sessions.slot? sid = some slot' := hslot'
  simp [SlotMap.obj?, hslot', hbuyer']

end Spend

/-! ## Runs -/

/-- The steps of one process in which `users.json` can be written. -/
def UsersWritten (st : State) (i : Input) : Prop := OneProcess st i ∧ i.writes.users = true

instance (st : State) (i : Input) : Decidable (UsersWritten st i) :=
  inferInstanceAs (Decidable (_ ∧ _))

/-- From `st` to `st'` no credentials change, and each wallet's spend grows by the
charges of the replies sent to it. -/
structure RecordsKept (st : State) (tr : List Event) (st' : State) : Prop where
  credentials : ∀ w account, st.account w = some account → st'.account w = some account
  spend : ∀ w, st'.spentBy w = st.spentBy w + repliedTo st' w tr

section Runs

variable {st st' : State} {tr : List Event} {w : WalletId}

/-- A reply goes to a session the bridge knows, and so do the replies so far. -/
def SessionsKnown (st : State) (tr : List Event) : Prop :=
  ∀ pid sid a total remaining, Event.done pid (.reply sid a total remaining) ∈ tr →
    (st.sessions.obj? sid).isSome = true

theorem buyer_kept {sid : SessionId} {i : Input} {r : State × List Event} (hf : st.Fresh)
    (hone : OneProcess st i) (hi : step st i = some r)
    (hsome : (st.sessions.obj? sid).isSome = true) :
    (r.1.sessions.obj? sid).map Session.buyerId = (st.sessions.obj? sid).map Session.buyerId := by
  obtain ⟨s, hs⟩ := Option.isSome_iff_exists.mp hsome
  have hbuyer : (st.sessions.obj? sid).map Session.buyerId = some s.buyerId := by
    rw [hs, Option.map_some]
  rw [hbuyer]
  exact buyer_step hf hone hi hbuyer

/-- What the replies so far have cost a wallet does not change any more. -/
theorem repliedTo_step {i : Input} {r : State × List Event} (hf : st.Fresh)
    (hone : OneProcess st i) (hi : step st i = some r) (hknown : SessionsKnown st tr) :
    repliedTo r.1 w tr = repliedTo st w tr := by
  refine congrArg List.sum (List.map_congr_left fun e he => ?_)
  unfold Event.spends
  split
  · next pid sid a total remaining =>
      rw [buyer_kept hf hone hi (hknown _ _ _ _ _ he)]
  · rfl

theorem SessionsKnown.step {i : Input} {r : State × List Event} (hknown : SessionsKnown st tr)
    (hf : st.Fresh) (hone : OneProcess st i) (hi : step st i = some r) : SessionsKnown r.1 tr := by
  intro pid sid a total remaining he
  have hsome := hknown _ _ _ _ _ he
  have hbuyer := buyer_kept hf hone hi hsome
  rw [← Option.isSome_map (f := Session.buyerId)] at hsome ⊢
  rw [hbuyer]
  exact hsome

theorem sessionsKnown_new {i : Input} {r : State × List Event} (hi : step st i = some r) :
    SessionsKnown st r.2 := by
  intro pid sid a total remaining he
  obtain ⟨pid', sid', prompt, tier, spent, a', -, -, he'⟩ := reply_of_step hi he rfl
  obtain ⟨slot, hslot, -, -, heq⟩ := reply_delivered he' rfl
  cases heq
  simp [SlotMap.obj?, hslot]

/-- Every run keeps the records. -/
theorem records_kept (hf : st.Fresh) (h : Trace (lts step UsersWritten) st tr st') :
    RecordsKept st tr st' := by
  have hrun := h.invariant
    (I := fun s tr => s.Fresh ∧ SessionsKnown s tr ∧ RecordsKept st tr s)
    ⟨hf, by simp [SessionsKnown], fun w account h => h, fun w => rfl⟩ ?_
  · exact hrun.2.2
  · rintro s tr es s' ⟨hf, hknown, hcred, hspend⟩ ⟨i, ⟨hone, hok⟩, hi⟩
    have hstep := records_step hone hi
    have hnew : SessionsKnown s es := sessionsKnown_new hi
    refine ⟨(step_sees 0 hf hone hi).1, ?_, fun w account h => hstep.account (hcred w account h),
      fun w => ?_⟩
    · intro pid sid a total remaining he
      rcases List.mem_append.mp he with he | he
      · exact hknown.step hf hone hi _ _ _ _ _ he
      · exact hnew.step hf hone hi _ _ _ _ _ he
    · have hold : repliedTo s' w tr = repliedTo s w tr := repliedTo_step hf hone hi hknown
      have hes : repliedTo s' w es = repliedTo s w es := repliedTo_step hf hone hi hnew
      rw [hstep.spend hok, hspend w, repliedTo_append, hold, hes, Nat.add_assoc]

variable {disk : Disk} {now : ℕ} {nextPid : Pid} {chain : EscrowNote → NoteStatus}

theorem trace_fresh (h : Trace (lts step UsersWritten) (boot disk now nextPid chain) tr st) :
    st.Fresh := by
  apply h.stateInvariant (fresh_boot _ _ _ _)
  rintro s es s' hf ⟨i, ⟨hone, -⟩, hi⟩
  exact (step_sees 0 hf hone hi).1

/-- What a registration that is answered has written. -/
theorem registered {req : RegisterRequest} {wr : Writes} {pid : Pid} {name : Json}
    (he : .done pid (.loggedIn name) ∈ (st.register req wr).2) :
    (st.register req wr).1.account req.buyerId = some ⟨name, req.salt, req.hash⟩ ∧
      (st.register req wr).1.spentBy req.buyerId = st.spentBy req.buyerId := by
  rcases register_records st req wr with ⟨-, hnone⟩ |
    ⟨account, hsalt, hhash, -, hstore, hname⟩
  · exact absurd he (hnone pid name)
  · rw [account_save hstore, spentBy_save hstore, account_setUser, spentBy_setUser, if_pos rfl,
      if_pos rfl]
    refine ⟨?_, spent_userOr⟩
    rw [hname pid name he, ← hsalt, ← hhash]

/-- **Credentials are write-once and records are isolated.** From every reachable
state, whatever handlers are suspended in it: credentials stay and spend grows by
replies alone; so it does from a registration on; and a step that is not on a
wallet leaves its record as it is. -/
theorem accounts_isolated
    (h : Trace (lts step UsersWritten) (boot disk now nextPid chain) tr st) :
    (∀ tr' st', Trace (lts step UsersWritten) st tr' st' → RecordsKept st tr' st') ∧
      (∀ req wr st₁ es pid name, step st ⟨.register req, wr⟩ = some (st₁, es) →
        .done pid (.loggedIn name) ∈ es → ∀ tr' st', Trace (lts step UsersWritten) st₁ tr' st' →
          st'.account req.buyerId = some ⟨name, req.salt, req.hash⟩ ∧
            st'.spentBy req.buyerId =
              st.spentBy req.buyerId + repliedTo st' req.buyerId tr') ∧
      ∀ i r w, UsersWritten st i → step st i = some r → st.recordOf i.act ≠ some w →
        r.1.savedUsers w = st.savedUsers w := by
  have hf := trace_fresh h
  refine ⟨fun tr' st' h' => records_kept hf h', ?_, fun i r w hok hi hw =>
    (records_step hok.1 hi).others hw⟩
  intro req wr st₁ es pid name hi he tr' st' h'
  have hone : OneProcess st ⟨.register req, wr⟩ := trivial
  have hkept := records_kept (step_sees 0 hf hone hi).1 h'
  have heq : st.register req wr = (st₁, es) := Option.some.inj hi
  obtain ⟨haccount, hspent⟩ := registered (by rw [heq]; exact he)
  rw [heq] at haccount hspent
  refine ⟨hkept.credentials _ _ haccount, ?_⟩
  rw [hkept.spend, hspent]

end Runs

/-! A wallet registers while it waits for a mint and for a reply. -/

def suspendedHandlers : List Action :=
  openSession ++ [.chat ⟨0, [0x68, 0x69], none⟩, .redeem "0xb0b" "ilovebartok"]

def bob : Json := .str [0x42, 0x6F, 0x62]

def registerAndResume : List Action :=
  [.register ⟨"0xb0b", some bob, "secret", "5a17", "c0de"⟩, .funded 3 true,
    .answered 2 (.ok demoAnswer)]

theorem accounts_isolated_demo : ∃ (st : State) (tr' : List Event) (st' : State),
    st.spentBy "0xb0b" = 0 ∧ repliedTo st' "0xb0b" tr' = 42 ∧ st'.spentBy "0xb0b" = 42 ∧
      st'.account "0xb0b" = some ⟨bob, "5a17", "c0de"⟩ ∧ RecordsKept st tr' st' :=
  have h := trace_exec step UsersWritten demoBoot (written suspendedHandlers) (by decide) (by decide)
  have h' := trace_exec step UsersWritten _ (written registerAndResume) (by decide) (by decide)
  ⟨_, _, _, by decide, by decide, by decide, by decide, (accounts_isolated h).1 _ _ h'⟩

end Bartok.Bridge
