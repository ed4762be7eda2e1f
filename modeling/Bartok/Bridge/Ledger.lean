import Bartok.Bridge.Accounts
import Bartok.Bridge.Dashboard
import Bartok.Bridge.Snapshot
import Bartok.Foundation.SlotSum

/-!
# Three books

A reply is booked three times: as a charge of its session, as spend of the wallet that
opened the session, and as earnings of the seller. The sessions are snapshot to one file
and the spend is saved to another, and a restart reads them back without the earnings.
Here is how the three stay together over whole runs, and what a restart can lose.
-/

namespace Bartok.Bridge

open Foundation Miden State

/-- What a session has been charged, when its buyer is one of these. -/
def Session.chargeOf (p : WalletId → Bool) (s : Session) : ℕ :=
  if p s.buyerId then s.totalCharge else 0

/-- The charges of all the sessions of these wallets, closed or not. -/
def State.booked (st : State) (p : WalletId → Bool) : ℕ := st.sessions.total (Session.chargeOf p)

/-- The same for the sessions on disk. -/
def Disk.booked (disk : Disk) (p : WalletId → Bool) : ℕ :=
  (disk.sessions.map fun m => m.total (Session.chargeOf p)).getD 0

/-- The spend that `users.json` holds. -/
def Disk.spentBy (disk : Disk) (w : WalletId) : ℕ :=
  ((disk.users.bind fun users => users w).map SavedUser.spent).getD 0

/-- A write that leaves the charges alone. -/
def KeepsCharges (f : Session → Session) : Prop :=
  ∀ s, (f s).buyerId = s.buyerId ∧ (f s).charges = s.charges

section Operations

variable {st st' : State} {sid : SessionId} {pid : Pid} {w : Writes} {u : WalletId} {ok : Bool}
  {s : Session} {file : Option NoteFile} {run : SettleRun} {note : EscrowNote}
  {charge attempt cursor : ℕ} {f : Session → Session} {p : WalletId → Bool}

/-! ## Writes that book nothing -/

theorem booked_modify (hf : KeepsCharges f) : (st.modify sid f).booked p = st.booked p := by
  apply SlotMap.total_modify_of_eq
  intro s
  obtain ⟨hbuyer, hcharges⟩ := hf s
  rw [Session.chargeOf, Session.chargeOf, Session.totalCharge, Session.totalCharge, hbuyer,
    hcharges]

theorem booked_evict : (st.evict sid).booked p = st.booked p := SlotMap.total_delete

theorem booked_persistSessions : (st.persistSessions ok).booked p = st.booked p :=
  congrArg (SlotMap.total · _) sessions_persistSessions

theorem booked_closeSession : (st.closeSession sid w).booked p = st.booked p :=
  booked_persistSessions.trans
    (booked_evict.trans (booked_modify (f := markSettled) fun _ => ⟨rfl, rfl⟩))

theorem booked_releaseCurrent : (st.releaseCurrent sid).booked p = st.booked p := by
  unfold releaseCurrent
  split
  · exact booked_modify (f := release) fun _ => ⟨rfl, rfl⟩
  · rfl

theorem booked_startJoao : (st.startJoao file).1.booked p = st.booked p := by
  unfold startJoao
  split <;> rfl

theorem booked_recordRefund (h : st.recordRefund u file ok = some st') :
    st'.booked p = st.booked p := by
  obtain ⟨-, _, rfl⟩ := recordRefund_eq_some h
  rfl

theorem booked_land : (st.land note run).booked p = st.booked p := by
  unfold State.land
  split <;> rfl

theorem booked_sessionEnd : (st.sessionEnd sid).1.booked p = st.booked p := by
  unfold sessionEnd
  dsimp only
  repeat' split
  case isFalse.isFalse => exact booked_modify (f := beginSettle st.now) fun _ => ⟨rfl, rfl⟩
  all_goals rfl

theorem booked_endReturned :
    (st.endReturned pid sid s charge attempt run w).1.booked p = st.booked p := by
  have hrelease : ∀ st : State, ((st.modify sid release).finish pid).booked p = st.booked p :=
    fun _ => booked_modify fun _ => ⟨rfl, rfl⟩
  unfold endReturned
  dsimp only
  split
  · split
    · exact hrelease st
    · next hrec =>
        have hkept := booked_recordRefund (p := p) hrec
        rw [booked_startJoao, hrelease, booked_closeSession]
        exact hkept
  · rw [hrelease, booked_closeSession]
  · split
    · rfl
    · exact hrelease st
  · exact hrelease st

theorem booked_sweepFrom : (st.sweepFrom pid cursor).1.booked p = st.booked p := by
  unfold sweepFrom
  split
  · rfl
  · split
    · rfl
    · exact booked_modify (f := markSettling) fun _ => ⟨rfl, rfl⟩

theorem booked_sweepSettled : (st.sweepSettled sid s run w).1.booked p = st.booked p := by
  unfold sweepSettled
  split
  · split
    · exact booked_releaseCurrent
    · next hrec =>
        rw [booked_startJoao, booked_releaseCurrent, booked_closeSession, booked_recordRefund hrec]
  · rw [booked_releaseCurrent, booked_closeSession]
  · exact booked_releaseCurrent

end Operations

/-! ## What a step books -/

/-- A step books nothing, or one charge in all three books. When `users.json` cannot be
written, the seller's book is left out. -/
inductive Posting (st : State) (ok : Bool) (r : State × List Event) : Prop
  | nothing (hsessions : ∀ p, r.1.booked p = st.booked p)
      (hspent : ∀ w, r.1.spentBy w = st.spentBy w)
      (hearned : r.1.sellerStats.earned = st.sellerStats.earned)
  | charge (buyerId : WalletId) (charge : ℕ)
      (hsessions : ∀ p, r.1.booked p = st.booked p + if p buyerId then charge else 0)
      (hspent : ∀ w, r.1.spentBy w = st.spentBy w + if w = buyerId then charge else 0)
      (hearned : r.1.sellerStats.earned = st.sellerStats.earned + if ok then charge else 0)

section Postings

variable {st : State} {r : State × List Event} {sid : SessionId} {pid : Pid} {prompt : JsString}
  {tier : String} {spent : ℕ} {w : Writes} {p : WalletId → Bool} {a : Answer} {s : Session}

theorem booked_deliver (hs : st.sessions.obj? sid = some s) :
    (st.deliver pid sid s prompt tier spent a w).1.booked p =
      st.booked p + if p s.buyerId then a.charge else 0 := by
  obtain ⟨slot, hslot, rfl⟩ := obj?_eq_some hs
  have hcharge : (st.modify sid (pushCharge a st.now)).booked p =
      st.booked p + if p slot.val.buyerId then a.charge else 0 := by
    apply SlotMap.total_modify hslot
    cases hp : p slot.val.buyerId <;>
      simp [Session.chargeOf, pushCharge, Session.totalCharge, hp]
  have hturns : ((st.modify sid (pushCharge a st.now)).modify sid (pushTurns prompt a)).booked p =
      (st.modify sid (pushCharge a st.now)).booked p :=
    booked_modify fun _ => ⟨rfl, rfl⟩
  rw [State.booked, sessions_deliver]
  exact hturns.trans hcharge

theorem posting_deliver (hs : st.sessions.obj? sid = some s) :
    Posting st w.users (st.deliver pid sid s prompt tier spent a w) := by
  have hstore : (((st.modify sid (pushCharge a st.now)).persistSessions w.sessions).modify sid
      (pushTurns prompt a)).userStore = st.userStore := userStore_persistSessions
  have hstats : (((st.modify sid (pushCharge a st.now)).persistSessions w.sessions).modify sid
      (pushTurns prompt a)).sellerStats = st.sellerStats := sellerStats_persistSessions
  have hspent : ∀ u, ((((st.modify sid (pushCharge a st.now)).persistSessions w.sessions).modify
      sid (pushTurns prompt a)).addSpend s.buyerId a.charge).spentBy u =
        st.spentBy u + if u = s.buyerId then a.charge else 0 := by
    intro u
    rw [spentBy_addSpend, spentBy_eq hstore]
  refine .charge s.buyerId a.charge (fun p => booked_deliver hs) ?_ ?_
  · intro u
    unfold deliver
    dsimp only
    split
    · exact hspent u
    · next hsave =>
        rw [← hspent u]
        exact spentBy_save (userStore_saveUsers hsave).2
  · unfold deliver
    dsimp only
    split
    · next hsave =>
        rw [saveUsers_eq_none hsave, if_neg (by simp)]
        exact congrArg SellerStats.earned hstats
    · next hsave =>
        rw [(userStore_saveUsers hsave).1, if_pos rfl]
        show SellerStats.earned _ + _ = _
        rw [sellerStats_saveUsers hsave]
        exact congrArg (SellerStats.earned · + a.charge) hstats

/-- A reply that is not delivered is not booked. -/
theorem posting_chatAnswered (res : Except String Answer) :
    Posting st w.users (st.chatAnswered pid sid prompt tier spent res w) := by
  unfold chatAnswered
  dsimp only
  split
  · exact .nothing (fun _ => rfl) (fun _ => rfl) rfl
  · exact .nothing (fun _ => rfl) (fun _ => rfl) rfl
  · next a s hs =>
      split
      · exact .nothing (fun _ => rfl) (fun _ => rfl) rfl
      · split
        · exact .nothing (fun _ => rfl) (fun _ => rfl) rfl
        · cases (posting_deliver hs : Posting ((st.finish pid).setBusy false) w.users
            (((st.finish pid).setBusy false).deliver pid sid s prompt tier spent a w)) with
          | nothing hsessions hspent hearned => exact .nothing hsessions hspent hearned
          | charge buyerId charge hsessions hspent hearned =>
              exact .charge buyerId charge hsessions hspent hearned

theorem stats_sweepReturned {charge cursor : ℕ} {run : SettleRun} :
    (st.sweepReturned pid sid s charge cursor run w).1.sellerStats = st.sellerStats :=
  announced_sweepFrom.1.trans announced_sweepSettled.1

theorem earned_endReturned {charge attempt : ℕ} {run : SettleRun} :
    (st.endReturned pid sid s charge attempt run w).1.sellerStats.earned =
      st.sellerStats.earned := by
  unfold endReturned
  dsimp only
  split
  · split
    · rfl
    · next hrec =>
        rw [sellerStats_startJoao]
        show (State.closeSession _ sid w).sellerStats.earned = _
        rw [sellerStats_closeSession, ← sellerStats_recordRefund hrec]
        rfl
  · exact congrArg SellerStats.earned sellerStats_closeSession
  · split <;> rfl
  · rfl

/-- Only an answered message earns. -/
theorem earned_step {act : Action} (hact : ∀ pid res, act ≠ .answered pid res)
    (hone : act ≠ .restart) (hi : step st ⟨act, w⟩ = some r) :
    r.1.sellerStats.earned = st.sellerStats.earned := by
  cases steps_of_step hi with
  | answered res hp => exact absurd rfl (hact _ _)
  | restart => exact absurd rfl hone
  | tick | fundNote | consumeNote | connect | endWoken | joaoReturned | escrowFailed => rfl
  | start req =>
      unfold sessionStart
      dsimp only
      repeat' split
      all_goals rfl
  | escrowBuilt hp hnew => exact congrArg SellerStats.earned sellerStats_persistSessions
  | escrow sid =>
      unfold sessionEscrow
      dsimp only
      split <;> rfl
  | escrowVerified committed hp =>
      cases committed with
      | false => rfl
      | true => exact congrArg SellerStats.earned sellerStats_persistSessions
  | chat req =>
      unfold State.chat
      dsimp only
      repeat' split
      all_goals rfl
  | endSession sid =>
      unfold sessionEnd
      dsimp only
      repeat' split
      all_goals rfl
  | endReturned hp hslot hnote hland =>
      exact earned_endReturned.trans (congrArg SellerStats.earned sellerStats_land)
  | sweep => exact congrArg SellerStats.earned announced_sweepFrom.1
  | sweepReturned hp hslot hnote hland =>
      exact congrArg SellerStats.earned (stats_sweepReturned.trans sellerStats_land)
  | redeem u c =>
      unfold State.redeem captureClaimed
      dsimp only
      repeat' split
      all_goals rfl
  | funded ok hp =>
      unfold State.funded
      dsimp only
      split
      · split
        · rfl
        · next hsave =>
            have hstats := sellerStats_saveUsers hsave
            exact congrArg SellerStats.earned hstats
      · rfl
  | register req =>
      unfold State.register
      dsimp only
      split
      · rfl
      · split
        · rfl
        · split
          · rfl
          · next hsave =>
              have hstats := sellerStats_saveUsers hsave
              exact congrArg SellerStats.earned hstats
  | login u password hash =>
      unfold State.login
      dsimp only
      repeat' split
      all_goals rfl

/-- Only an answered message is spend. -/
theorem spentBy_step {act : Action} (hact : ∀ pid res, act ≠ .answered pid res)
    (hone : act ≠ .restart) (hi : step st ⟨act, w⟩ = some r) (u : WalletId) :
    r.1.spentBy u = st.spentBy u := by
  have htouch : ∀ x, (st.setUser x (st.userOr x)).spentBy u = st.spentBy u := by
    intro x
    rw [spentBy_setUser]
    split
    · next hu => rw [hu, spent_userOr]
    · rfl
  by_cases hwrites : act.writesUsers = false
  · exact spentBy_eq (userStore_step (oneProcess_iff.mpr hone) hi hwrites)
  · cases steps_of_step hi with
    | answered res hp => exact absurd rfl (hact _ _)
    | redeem x c =>
        rcases redeem_records st x c with hstore | hstore | hstore
        · exact spentBy_eq hstore
        · exact (spentBy_eq hstore).trans (htouch x)
        · exact (spentBy_eq hstore).trans (spentBy_captureClaimed.trans (htouch x))
    | funded ok hp =>
        cases ok with
        | true => exact (spentBy_save (funded_records true)).trans spentBy_claim
        | false => exact spentBy_eq (funded_records false)
    | register req =>
        rcases register_records st req w with ⟨hstore, -⟩ | ⟨account, -, -, hnew, hstore, -⟩
        · exact spentBy_eq hstore
        · rw [spentBy_save hstore, spentBy_setUser]
          split
          · next hu =>
              rw [hu]
              exact spent_userOr
          · rfl
    | _ => exact absurd rfl hwrites

/-- Only an answered message is charged. -/
theorem booked_step {act : Action} (hact : ∀ pid res, act ≠ .answered pid res)
    (hone : act ≠ .restart) (hi : step st ⟨act, w⟩ = some r) (p : WalletId → Bool) :
    r.1.booked p = st.booked p := by
  by_cases hwrites : act.writesSessions = false
  · exact congrArg (SlotMap.total · _) (congrArg Prod.snd (sessions_step hi hwrites))
  · cases steps_of_step hi with
    | answered res hp => exact absurd rfl (hact _ _)
    | restart => exact absurd rfl hone
    | escrowBuilt hp hnew =>
        refine booked_persistSessions.trans ((SlotMap.total_push hnew).trans ?_)
        simp [Session.chargeOf, newSession, Session.totalCharge]
        rfl
    | escrowVerified committed hp =>
        cases committed with
        | false => rfl
        | true => exact booked_persistSessions.trans (booked_modify fun _ => ⟨rfl, rfl⟩)
    | chat req =>
        unfold State.chat
        dsimp only
        split
        · rfl
        · split
          · exact booked_modify (f := openHistory) fun _ => ⟨rfl, rfl⟩
          · rfl
    | endSession sid => exact booked_sessionEnd
    | endReturned hp hslot hnote hland => exact booked_endReturned.trans booked_land
    | sweep => exact booked_sweepFrom
    | sweepReturned hp hslot hnote hland =>
        exact booked_sweepFrom.trans (booked_sweepSettled.trans booked_land)
    | _ => exact absurd rfl hwrites

theorem posting_step {i : Input} (hone : OneProcess st i) (hi : step st i = some r) :
    Posting st i.writes.users r := by
  obtain ⟨act, w⟩ := i
  by_cases hact : ∀ pid res, act ≠ .answered pid res
  · have hone := oneProcess_iff.mp hone
    exact .nothing (booked_step hact hone hi) (spentBy_step hact hone hi)
      (earned_step hact hone hi)
  · cases steps_of_step hi with
    | answered res hp => exact posting_chatAnswered res
    | _ => exact absurd (fun _ _ => by simp) hact

end Postings

/-! ## What the files hold -/

section Files

variable {st st' st₁ : State} {r : State × List Event} {sid : SessionId} {pid : Pid}
  {prompt : JsString} {tier : String} {spent : ℕ} {w : Writes} {b : Bool} {u : WalletId}
  {disk : Disk} {now : ℕ} {nextPid : Pid} {chain : EscrowNote → NoteStatus}

theorem snapshot_of_disk
    (hd : st'.disk.sessions = if b then some st₁.sessions.compact else st.disk.sessions)
    (hbooked : ∀ p, st₁.booked p = st'.booked p) :
    st'.disk.sessions = st.disk.sessions ∨ ∀ p, st'.disk.booked p ≤ st'.booked p := by
  cases b with
  | false => exact .inl hd
  | true =>
      right
      intro p
      rw [← hbooked p, Disk.booked, hd]
      exact SlotMap.total_compact_le

theorem snapshot_chatAnswered_booked (res : Except String Answer) :
    (st.chatAnswered pid sid prompt tier spent res w).1.disk.sessions = st.disk.sessions ∨
      ∀ p, (st.chatAnswered pid sid prompt tier spent res w).1.disk.booked p ≤
        (st.chatAnswered pid sid prompt tier spent res w).1.booked p := by
  unfold chatAnswered
  dsimp only
  split
  · exact .inl rfl
  · exact .inl rfl
  · next a s hs =>
      split
      · exact .inl rfl
      · split
        · exact .inl rfl
        · refine @snapshot_of_disk ((st.finish pid).setBusy false) _ _ _ disk_deliver fun p => ?_
          rw [State.booked, State.booked, sessions_deliver]
          exact (booked_modify (f := pushTurns prompt a) fun _ => ⟨rfl, rfl⟩).symm

/-- A snapshot holds no more charges than there are. -/
theorem snapshot_booked {i : Input} (hone : OneProcess st i) (hi : step st i = some r) :
    r.1.disk.sessions = st.disk.sessions ∨ ∀ p, r.1.disk.booked p ≤ r.1.booked p := by
  obtain ⟨act, w⟩ := i
  by_cases hwrites : act.writesSessions = false
  · exact .inl (congrArg Prod.fst (sessions_step hi hwrites))
  · cases steps_of_step hi with
    | restart => exact hone.elim
    | answered res hp => exact snapshot_chatAnswered_booked res
    | escrowBuilt hp hnew =>
        exact snapshot_of_disk disk_persistSessions fun _ => booked_persistSessions.symm
    | escrowVerified committed hp =>
        cases committed with
        | false => exact .inl rfl
        | true => exact snapshot_of_disk disk_persistSessions fun _ => booked_persistSessions.symm
    | chat req =>
        unfold State.chat
        dsimp only
        repeat' split
        all_goals exact .inl rfl
    | endSession sid =>
        unfold sessionEnd
        dsimp only
        repeat' split
        all_goals exact .inl rfl
    | endReturned hp hslot hnote hland =>
        refine snapshot_of_disk (disk_endReturned.trans (by rw [disk_land])) fun p => ?_
        rw [booked_endReturned]
        exact booked_evict.trans (booked_modify fun _ => ⟨rfl, rfl⟩)
    | sweep => exact .inl (congrArg Disk.sessions disk_sweepFrom)
    | sweepReturned hp hslot hnote hland =>
        refine snapshot_of_disk (((congrArg Disk.sessions disk_sweepFrom).trans
          disk_sweepSettled).trans (by rw [disk_land])) fun p => ?_
        refine (booked_evict.trans (booked_modify (f := markSettled) fun _ => ⟨rfl, rfl⟩)).trans ?_
        exact (booked_sweepFrom.trans booked_sweepSettled).symm
    | _ => exact absurd rfl hwrites

theorem spentBy_saved (hstore : st'.userStore = st.userStore.save true) :
    st'.disk.spentBy u = st'.spentBy u := by
  rw [spentBy_save hstore]
  obtain ⟨-, -, hsaved⟩ := UserStore.mk.inj hstore
  rw [Disk.spentBy, hsaved]
  show (((st.userStore.records) u).map SavedUser.spent).getD 0 = _
  unfold UserStore.records State.spentBy
  rw [Option.map_map]
  rfl

/-- `users.json` keeps up with the spend as long as it can be written. -/
theorem saved_step {i : Input} (hone : OneProcess st i) (hi : step st i = some r)
    (hok : i.writes.users = true) (h : ∀ u, st.disk.spentBy u = st.spentBy u) (u : WalletId) :
    r.1.disk.spentBy u = r.1.spentBy u := by
  have hkeep : ∀ {st' : State}, r.1.userStore = st'.userStore → st'.disk.users = st.disk.users →
      st'.spentBy u = st.spentBy u → r.1.disk.spentBy u = r.1.spentBy u := by
    intro st' hstore hdisk hspent
    have husers : r.1.disk.users = st.disk.users := (UserStore.mk.inj hstore).2.2.trans hdisk
    rw [spentBy_eq hstore, hspent, ← h u, Disk.spentBy, husers]
    rfl
  have htouch : ∀ x, (st.setUser x (st.userOr x)).spentBy u = st.spentBy u := by
    intro x
    rw [spentBy_setUser]
    split
    · next hu => rw [hu, spent_userOr]
    · rfl
  have hrecords := records_step hone hi
  rw [hok] at hrecords
  generalize st.recordOf i.act = owner at hrecords
  cases hrecords with
  | keep hstore => exact hkeep hstore rfl rfl
  | touch hstore => exact hkeep hstore rfl (htouch _)
  | capture hstore =>
      refine hkeep hstore ?_ (spentBy_captureClaimed.trans (htouch _))
      unfold captureClaimed
      split <;> rfl
  | reply hs hstore => exact spentBy_saved hstore
  | claim hstore => exact spentBy_saved hstore
  | register hnew hstore => exact spentBy_saved hstore

theorem booked_boot {p : WalletId → Bool} :
    (boot disk now nextPid chain).booked p ≤ disk.booked p := by
  show (restoreSessions disk).total _ ≤ _
  unfold restoreSessions Disk.booked
  split
  · exact Nat.zero_le _
  · next m hm =>
      rw [hm]
      exact SlotMap.total_filterSlots_le

theorem spentBy_boot : (boot disk now nextPid chain).spentBy u = disk.spentBy u := by
  show ((((disk.users.getD fun _ => none) u).map restoreUser).map User.spent).getD 0 = _
  rw [Disk.spentBy, Option.map_map]
  cases disk.users <;> rfl

end Files

/-! ## Runs -/

section Runs

variable {st₀ st : State} {tr : List Event} {disk : Disk} {now : ℕ} {nextPid : Pid}
  {chain : EscrowNote → NoteStatus} {w : WalletId}

/-- The sessions of one wallet. -/
def only (w : WalletId) : WalletId → Bool := fun buyerId => decide (w = buyerId)

def everyone : WalletId → Bool := fun _ => true

/-- What a step adds to the spend of a wallet, it adds to its sessions. -/
theorem Posting.spent {st : State} {ok : Bool} {r : State × List Event} (h : Posting st ok r)
    (w : WalletId) : r.1.spentBy w + st.booked (only w) = st.spentBy w + r.1.booked (only w) := by
  cases h with
  | nothing hsessions hspent _ => rw [hsessions, hspent]
  | charge buyerId charge hsessions hspent _ =>
      rw [hsessions, hspent, only]
      simp only [decide_eq_true_eq]
      omega

/-- And to the seller's earnings, if it can be saved. -/
theorem Posting.earned {st : State} {ok : Bool} {r : State × List Event} (h : Posting st ok r) :
    r.1.sellerStats.earned + st.booked everyone ≤
        st.sellerStats.earned + r.1.booked everyone ∧
      (ok = true → r.1.sellerStats.earned + st.booked everyone =
        st.sellerStats.earned + r.1.booked everyone) := by
  cases h with
  | nothing hsessions _ hearned =>
      rw [hsessions, hearned]
      exact ⟨le_rfl, fun _ => rfl⟩
  | charge buyerId charge hsessions _ hearned =>
      rw [hsessions, hearned, everyone, if_pos rfl]
      cases ok with
      | true =>
          rw [if_pos rfl]
          constructor <;> omega
      | false =>
          constructor
          · rw [if_neg (by simp)]
            omega
          · nofun

/-- **The books agree.** Over any run of one process, whatever could be written to disk, the
spend of a wallet grows by what its sessions are charged; the seller's earnings grow by no
more than all sessions are charged, and by exactly that when `users.json` could be written. -/
theorem books_agree (h : Trace (lts step OneProcess) st₀ tr st) :
    (∀ w, st.spentBy w + st₀.booked (only w) = st₀.spentBy w + st.booked (only w)) ∧
      st.sellerStats.earned + st₀.booked everyone ≤ st₀.sellerStats.earned + st.booked everyone ∧
      (Trace (lts step UsersWritten) st₀ tr st → st.sellerStats.earned + st₀.booked everyone =
        st₀.sellerStats.earned + st.booked everyone) := by
  refine ⟨fun w => ?_, ?_, fun hwritten => ?_⟩
  · refine h.stateInvariant (I := fun st => st.spentBy w + st₀.booked (only w) =
      st₀.spentBy w + st.booked (only w)) rfl ?_
    rintro s es s' hs ⟨i, hone, hi⟩
    have hstep := (posting_step hone hi).spent w
    dsimp only at hstep
    omega
  · refine h.stateInvariant (I := fun st => st.sellerStats.earned + st₀.booked everyone ≤
      st₀.sellerStats.earned + st.booked everyone) le_rfl ?_
    rintro s es s' hs ⟨i, hone, hi⟩
    have hstep := (posting_step hone hi).earned.1
    dsimp only at hstep
    omega
  · refine hwritten.stateInvariant (I := fun st => st.sellerStats.earned + st₀.booked everyone =
      st₀.sellerStats.earned + st.booked everyone) rfl ?_
    rintro s es s' hs ⟨i, ⟨hone, hok⟩, hi⟩
    have hstep := (posting_step hone hi).earned.2 hok
    dsimp only at hstep
    omega

theorem books_agree_demo : ∃ st : State, st.spentBy "0xb0b" = 42 ∧
    42 + demoBoot.booked (only "0xb0b") =
      demoBoot.spentBy "0xb0b" + st.booked (only "0xb0b") := by
  have h := trace_exec step OneProcess demoBoot (written oneReply) (by decide) (by decide)
  have hspent : ((exec step demoBoot (written oneReply)).get (by decide)).1.spentBy "0xb0b" = 42 := by
    decide
  exact ⟨_, hspent, hspent ▸ (books_agree h).1 "0xb0b"⟩

/-- The steps in which `users.json` can be written, restarts among them. -/
def UsersSaved (_ : State) (i : Input) : Prop := i.writes.users = true

instance (st : State) (i : Input) : Decidable (UsersSaved st i) :=
  inferInstanceAs (Decidable (_ = _))

/-- No wallet has been charged more than it has spent, in memory or on disk. -/
structure InOrder (st : State) : Prop where
  memory : ∀ w, st.booked (only w) ≤ st.spentBy w
  snapshot : ∀ w, st.disk.booked (only w) ≤ st.spentBy w
  saved : ∀ w, st.disk.spentBy w = st.spentBy w

theorem inOrder_boot (h : ∀ w, disk.booked (only w) ≤ disk.spentBy w) :
    InOrder (boot disk now nextPid chain) where
  memory w := by
    rw [spentBy_boot]
    exact booked_boot.trans (h w)
  snapshot w := by
    rw [spentBy_boot]
    exact h w
  saved _ := spentBy_boot.symm

theorem inOrder_step {i : Input} {r : State × List Event} (h : InOrder st) (hok : UsersSaved st i)
    (hi : step st i = some r) : InOrder r.1 := by
  by_cases hone : i.act = .restart
  · obtain ⟨act, wr⟩ := i
    obtain rfl : act = .restart := hone
    obtain rfl := Option.some.inj hi
    apply inOrder_boot
    intro w
    rw [h.saved]
    exact h.snapshot w
  · have hone : OneProcess st i := oneProcess_iff.mpr hone
    have hposted := fun w => (posting_step hone hi).spent w
    have hgrows : ∀ w, st.spentBy w ≤ r.1.spentBy w := by
      intro w
      cases posting_step hone hi with
      | nothing _ hspent _ => exact (hspent w).ge
      | charge _ _ _ hspent _ => exact (hspent w).ge.trans' (Nat.le_add_right _ _)
    have hmemory : ∀ w, r.1.booked (only w) ≤ r.1.spentBy w := by
      intro w
      have hold := h.memory w
      have hnew := hposted w
      omega
    refine ⟨hmemory, fun w => ?_, saved_step hone hi hok h.saved⟩
    rcases snapshot_booked hone hi with hsame | hsnapshot
    · rw [Disk.booked, hsame]
      exact (h.snapshot w).trans (hgrows w)
    · exact (hsnapshot _).trans (hmemory w)

/-- **Spend covers the charges, over restarts.** Started on files that are in order, and as
long as `users.json` can be written, whether or not the snapshots can: at every moment and
after any number of restarts no wallet's sessions have been charged more than the wallet
has spent, and the files are in order again for the next process. -/
theorem spend_covers_charges (hdisk : ∀ w, disk.booked (only w) ≤ disk.spentBy w)
    (h : Trace (lts step UsersSaved) (boot disk now nextPid chain) tr st) (w : WalletId) :
    st.booked (only w) ≤ st.spentBy w ∧ st.disk.booked (only w) ≤ st.disk.spentBy w := by
  have hrun : InOrder st := h.stateInvariant (I := InOrder) (inOrder_boot hdisk)
    fun _ _ _ hs ⟨_, hok, hi⟩ => inOrder_step hs hok hi
  refine ⟨hrun.memory w, ?_⟩
  rw [hrun.saved]
  exact hrun.snapshot w

theorem spend_covers_charges_demo : ∃ st : State, st.booked (only "0xb0b") = 42 ∧
    st.booked (only "0xb0b") ≤ st.spentBy "0xb0b" := by
  have h := trace_exec step UsersSaved demoBoot (written (oneReply ++ [.restart])) (by decide)
    (by decide)
  have hcovers := spend_covers_charges (by exact fun _ => le_rfl) h "0xb0b"
  exact ⟨_, by decide, hcovers.1⟩

end Runs

end Bartok.Bridge
