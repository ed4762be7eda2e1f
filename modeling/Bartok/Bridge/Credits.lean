import Bartok.Bridge.Settlement

/-!
# Discount codes and their mints

`/api/credits/redeem` checks that a code is not claimed, waits for the mint, and
then writes the claim into the map it captured, which becomes the wallet's map.
`State.wallet` keeps of the bridge what concerns one wallet, and `WalletStep`
what can happen to it while no mint starts next to a rival: another mint of the
same code, or any mint of a wallet that has no map yet.
-/

namespace Bartok.Bridge

open Foundation Miden State

/-- The mint a handler of the wallet waits for: its code and its captured map. -/
def Proc.mint (w : WalletId) : Proc → Option (Code × ℕ)
  | .fundBuyer u code claimed => if u = w then some (code, claimed) else none
  | _ => none

structure WalletView where
  codes : Option ℕ
  redeemed : Bool
  maps : List (List Code)
  mints : Pid → Option (Code × ℕ)

def State.wallet (w : WalletId) (st : State) : WalletView where
  codes := (st.userOr w).codes
  redeemed := (st.userOr w).redeemed
  maps := st.claimedMaps w
  mints pid := (st.procs pid).bind (Proc.mint w)

def Event.minted (w : WalletId) : Event → Bool
  | .fundEnd _ u _ _ => u = w
  | _ => false

namespace WalletView

variable (v : WalletView)

def claimed : List Code :=
  match v.codes with
  | some r => (v.maps[r]?).getD []
  | none => if v.redeemed then [.shared] else []

def mint (pid : Pid) (m : Option (Code × ℕ)) : WalletView :=
  { v with mints := Function.update v.mints pid m }

/-- A request keeps the wallet's map, or makes a fresh one. -/
def capture : WalletView × ℕ :=
  match v.codes with
  | some r => (v, r)
  | none => ({ v with maps := v.maps ++ [v.claimed] }, v.maps.length)

def claim (code : Code) (r : ℕ) : WalletView :=
  { v with codes := some r, redeemed := false, maps := v.maps.modify r fun codes => code :: codes }

/-- No mint in flight rivals a new one of `code`. -/
def Unrivalled (code : Code) : Prop :=
  ∀ pid code' r, v.mints pid = some (code', r) → code' ≠ code ∧ v.codes.isSome = true

end WalletView

inductive WalletStep (w : WalletId) : Lts WalletView Event
  | start {v code} (pid : Pid) (hpid : v.mints pid = none) (hnew : code ∉ v.claimed)
      (hsole : v.Unrivalled code) :
      WalletStep w v [] (v.capture.1.mint pid (some (code, v.capture.2)))
  | grant {v code r} (pid : Pid) (hpid : v.mints pid = some (code, r)) :
      WalletStep w v [.fundEnd pid w code true] ((v.claim code r).mint pid none)
  | refuse {v code r} (pid : Pid) (hpid : v.mints pid = some (code, r)) :
      WalletStep w v [.fundEnd pid w code false] (v.mint pid none)

/-! ## How the handlers' building blocks change a wallet -/

section View

variable {st st' : State} {w u : WalletId} {pid : Pid} {p : Proc} {v : WalletView}
  {sid : SessionId} {wr : Writes} {ok : Bool} {file : Option NoteFile}

theorem WalletView.mint_eq {m : Option (Code × ℕ)} (hm : v.mints pid = m) : v.mint pid m = v := by
  simp [WalletView.mint, ← hm]

theorem wallet_spawn :
    (st.spawn pid p).wallet w = (st.wallet w).mint pid (p.mint w) := by
  simp only [State.wallet, spawn, WalletView.mint, WalletView.mk.injEq]
  refine ⟨rfl, rfl, trivial, ?_⟩
  funext q
  by_cases hq : q = pid
  · subst hq
    simp
  · simp [hq]

theorem wallet_finish : (st.finish pid).wallet w = (st.wallet w).mint pid none := by
  simp only [State.wallet, finish, WalletView.mint, WalletView.mk.injEq]
  refine ⟨rfl, rfl, trivial, ?_⟩
  funext q
  by_cases hq : q = pid
  · subst hq
    simp
  · simp [hq]

theorem wallet_modify {f : Session → Session} :
    (st.modify sid f).wallet w = st.wallet w := rfl

theorem wallet_setBusy {b : Bool} : (st.setBusy b).wallet w = st.wallet w := rfl

theorem wallet_setStats {x : SellerStats} : (st.setStats x).wallet w = st.wallet w := rfl

theorem wallet_persistSessions : (st.persistSessions ok).wallet w = st.wallet w := by
  unfold persistSessions
  split <;> rfl

theorem wallet_closeSession : (st.closeSession sid wr).wallet w = st.wallet w :=
  wallet_persistSessions

theorem wallet_releaseCurrent : (st.releaseCurrent sid).wallet w = st.wallet w := by
  unfold releaseCurrent
  split <;> rfl

theorem wallet_land {note : EscrowNote} {run : SettleRun} :
    (st.land note run).wallet w = st.wallet w := by
  unfold State.land
  split <;> rfl

theorem wallet_saveUsers (h : st.saveUsers ok = some st') :
    st'.wallet w = st.wallet w := by
  obtain rfl := saveUsers_eq_some h
  rfl

theorem wallet_recordRefund (h : st.recordRefund u file ok = some st') :
    st'.wallet w = st.wallet w := by
  obtain ⟨-, _, rfl⟩ := recordRefund_eq_some h
  rfl

/-- A record that keeps the wallet's claims. -/
theorem wallet_setUser {x : User} (hcodes : x.codes = (st.userOr u).codes)
    (hredeemed : x.redeemed = (st.userOr u).redeemed) :
    (st.setUser u x).wallet w = st.wallet w := by
  by_cases hu : w = u
  · subst hu
    simp [State.wallet, State.setUser, State.userOr] at hcodes hredeemed ⊢
    exact ⟨hcodes, hredeemed⟩
  · simp [State.wallet, State.setUser, State.userOr, hu]

theorem wallet_addSpend {n : ℕ} : (st.addSpend u n).wallet w = st.wallet w :=
  wallet_setUser rfl rfl

theorem wallet_captureClaimed_ne (hu : w ≠ u) : (st.captureClaimed u).1.wallet w = st.wallet w := by
  unfold captureClaimed
  split
  · rfl
  · simp [State.wallet, State.userOr, hu]

theorem readClaimed_eq : st.readClaimed w = (st.wallet w).claimed := by
  unfold readClaimed WalletView.claimed
  rfl

theorem wallet_captureClaimed (st : State) (w : WalletId) :
    (st.captureClaimed w).1.wallet w = (st.wallet w).capture.1 ∧
      (st.captureClaimed w).2 = (st.wallet w).capture.2 := by
  have hcodes : (st.wallet w).codes = (st.userOr w).codes := rfl
  unfold captureClaimed WalletView.capture
  rw [hcodes, ← readClaimed_eq]
  cases hc : (st.userOr w).codes with
  | some r => exact ⟨rfl, rfl⟩
  | none => exact ⟨by simpa [State.wallet, State.userOr] using hc, rfl⟩

theorem wallet_claim_ne {code : Code} {r : ℕ} (hu : w ≠ u) :
    (st.claim u code r).wallet w = st.wallet w := by
  simp [State.wallet, State.userOr, State.claim, State.setUser, hu]

theorem wallet_claim {code : Code} {r : ℕ} :
    (st.claim w code r).wallet w = (st.wallet w).claim code r := by
  simp [State.wallet, State.userOr, State.claim, State.setUser, WalletView.claim]

/-- A new handler that mints nothing for the wallet is not seen. -/
theorem wallet_spawnNext (hf : st.Fresh) (hp : p.mint w = none) :
    (st.arrive.spawn st.nextPid p).wallet w = st.wallet w := by
  rw [wallet_spawn, hp]
  exact WalletView.mint_eq (by simp [State.wallet, arrive, hf st.nextPid le_rfl])

/-- Nor is such a handler when it ends or goes on to another wait. -/
theorem wallet_mint_none (hp : st.procs pid = some p) (hmint : p.mint w = none) :
    (st.wallet w).mint pid none = st.wallet w :=
  WalletView.mint_eq (by simp [State.wallet, hp, hmint])

theorem wallet_startJoao (hf : st.Fresh) : (st.startJoao file).1.wallet w = st.wallet w := by
  unfold startJoao
  split
  · rfl
  · exact wallet_spawnNext hf rfl

end View

/-! ## One lemma per handler -/

/-- Nothing happens to the wallet. -/
def Still (w : WalletId) (st : State) (r : State × List Event) : Prop :=
  r.1.wallet w = st.wallet w ∧ ∀ e ∈ r.2, e.minted w = false

section Handlers

variable {st : State} {w u : WalletId} {pid : Pid} {sid : SessionId} {wr : Writes} {s : Session}
  {charge attempt cursor spent : ℕ} {run : SettleRun} {p : Proc} {r : State × List Event}

theorem still_sessionStart (hf : st.Fresh) (req : StartRequest) :
    Still w st (st.sessionStart req) := by
  unfold sessionStart
  dsimp only
  split
  · exact ⟨rfl, by simp [Event.minted]⟩
  · split
    · exact ⟨rfl, by simp [Event.minted]⟩
    · split
      · exact ⟨rfl, by simp [Event.minted]⟩
      · split
        · split
          · exact ⟨rfl, by simp [Event.minted]⟩
          · exact ⟨wallet_spawnNext hf rfl, by simp⟩
        · exact ⟨wallet_spawnNext hf rfl, by simp⟩

theorem still_escrowBuilt (hp : (st.wallet w).mint pid none = st.wallet w) {buyerId : WalletId}
    {tier : String} {built : Option (ℕ × EscrowParams)} :
    Still w st (st.escrowBuilt pid buyerId tier sid built wr) := by
  cases built with
  | none => exact ⟨wallet_finish.trans hp, by simp [escrowBuilt, Event.minted]⟩
  | some b =>
      exact ⟨wallet_persistSessions.trans (wallet_finish.trans hp),
        by simp [escrowBuilt, Event.minted]⟩

theorem still_sessionEscrow (hf : st.Fresh) : Still w st (st.sessionEscrow sid) := by
  unfold sessionEscrow
  dsimp only
  split
  · exact ⟨rfl, by simp [Event.minted]⟩
  · exact ⟨wallet_spawnNext hf rfl, by simp⟩

theorem still_escrowVerified (hp : (st.wallet w).mint pid none = st.wallet w) (committed : Bool) :
    Still w st (st.escrowVerified pid sid committed wr) := by
  unfold escrowVerified
  dsimp only
  split
  · exact ⟨wallet_persistSessions.trans (wallet_modify.trans (wallet_finish.trans hp)),
      by simp [Event.minted]⟩
  · exact ⟨wallet_finish.trans hp, by simp [Event.minted]⟩

theorem still_chat (hf : st.Fresh) (req : ChatRequest) : Still w st (st.chat req) := by
  unfold State.chat
  dsimp only
  split
  · exact ⟨rfl, by simp [Event.minted]⟩
  · split
    · exact ⟨wallet_modify.trans (wallet_setBusy.trans (wallet_spawnNext hf rfl)),
        by simp [Event.minted]⟩
    · exact ⟨rfl, by simp [Event.minted]⟩

theorem still_deliver (st : State) {prompt : JsString} {tier : String} {a : Answer} :
    Still w st (st.deliver pid sid s prompt tier spent a wr) := by
  have hspent : ∀ n, ((((st.modify sid (pushCharge a st.now)).persistSessions wr.sessions).modify
      sid (pushTurns prompt a)).addSpend s.buyerId n).wallet w = st.wallet w := fun n => by
    rw [wallet_addSpend, wallet_modify, wallet_persistSessions, wallet_modify]
  unfold deliver
  dsimp only
  split
  · exact ⟨hspent _, by simp [Event.minted]⟩
  · next hsave =>
      exact ⟨wallet_setStats.trans ((wallet_saveUsers hsave).trans (hspent _)),
        by simp [Event.minted]⟩

theorem still_chatAnswered (hp : (st.wallet w).mint pid none = st.wallet w) {prompt : JsString}
    {tier : String} (res : Except String Answer) :
    Still w st (st.chatAnswered pid sid prompt tier spent res wr) := by
  have hfinish : ((st.finish pid).setBusy false).wallet w = st.wallet w :=
    wallet_finish.trans hp
  unfold chatAnswered
  dsimp only
  split
  · exact ⟨hfinish, by simp [Event.minted]⟩
  · exact ⟨hfinish, by simp⟩
  · split
    · exact ⟨hfinish, by simp [Event.minted]⟩
    · split
      · exact ⟨hfinish, by simp [Event.minted]⟩
      · obtain ⟨hwallet, hes⟩ := still_deliver (w := w) ((st.finish pid).setBusy false)
        exact ⟨hwallet.trans hfinish, hes⟩

theorem still_sessionEnd (hf : st.Fresh) : Still w st (st.sessionEnd sid) := by
  unfold sessionEnd
  dsimp only
  split
  · exact ⟨rfl, by simp [Event.minted]⟩
  · split
    · exact ⟨rfl, by simp [Event.minted]⟩
    · split
      · exact ⟨rfl, by simp [Event.minted]⟩
      · split
        · exact ⟨rfl, by simp [Event.minted]⟩
        · exact ⟨wallet_spawnNext hf.modify rfl, by simp [Event.minted]⟩

theorem minted_of_kind {e : Event} (h : e.kind ≠ .mint) : e.minted w = false := by
  cases e with
  | fundEnd pid u code ok => exact absurd rfl h
  | _ => rfl

theorem Still.of_handled {mine : Option Pid} {kinds : List EventKind} (h : Handled st mine kinds r)
    (hkinds : .mint ∉ kinds) (hwallet : r.1.wallet w = st.wallet w) : Still w st r := by
  refine ⟨hwallet, fun e he => minted_of_kind fun hmint => ?_⟩
  rcases h.kinds e he with hplain | hmem
  · cases hplain.symm.trans hmint
  · exact hkinds (hmint ▸ hmem)

theorem still_endReturned (hf : st.Fresh) (hp : (st.wallet w).mint pid none = st.wallet w) :
    Still w st (st.endReturned pid sid s charge attempt run wr) := by
  refine .of_handled handled_endReturned (by decide) ?_
  unfold endReturned
  dsimp only
  split
  · split
    · exact wallet_finish.trans hp
    · next st₁ hrec =>
        have hf₁ : (((st₁.setStats { st₁.sellerStats with
            settled := st₁.sellerStats.settled + 1 }).closeSession sid wr).modify sid
              release).finish pid |>.Fresh :=
          (hf.recordRefund hrec).setStats.closeSession.modify.finish
        rw [wallet_startJoao hf₁, wallet_finish, wallet_modify, wallet_closeSession,
          wallet_setStats, wallet_recordRefund hrec, hp]
  · rw [wallet_finish, wallet_modify, wallet_closeSession, hp]
  · split
    · exact wallet_spawn.trans hp
    · exact wallet_finish.trans hp
  · exact wallet_finish.trans hp

theorem still_sweepFrom (hp : (st.wallet w).mint pid none = st.wallet w) :
    Still w st (st.sweepFrom pid cursor) := by
  refine .of_handled (handled_sweepFrom .refl (.inr rfl)) (by decide) ?_
  unfold sweepFrom
  split
  · exact wallet_finish.trans hp
  · split
    · exact wallet_finish.trans hp
    · exact wallet_spawn.trans hp

theorem still_sweepSettled (hf : st.Fresh) : Still w st (st.sweepSettled sid s run wr) := by
  refine .of_handled (handled_sweepSettled : Handled _ none _ _) (by decide) ?_
  unfold sweepSettled
  split
  · split
    · exact wallet_releaseCurrent
    · next st₁ hrec =>
        have hfree : ((st₁.closeSession sid wr).releaseCurrent sid).Fresh :=
          (hf.recordRefund hrec).closeSession.releaseCurrent
        rw [wallet_startJoao hfree, wallet_releaseCurrent, wallet_closeSession,
          wallet_recordRefund hrec]
  · exact wallet_releaseCurrent.trans wallet_closeSession
  · exact wallet_releaseCurrent

theorem still_sweepReturned (hf : st.Fresh) (hp : (st.wallet w).mint pid none = st.wallet w) :
    Still w st (st.sweepReturned pid sid s charge cursor run wr) := by
  obtain ⟨hsettled, hes⟩ : Still w st (st.sweepSettled sid s run wr) := still_sweepSettled hf
  obtain ⟨hrest, hes'⟩ : Still w (st.sweepSettled sid s run wr).1
      ((st.sweepSettled sid s run wr).1.sweepFrom pid cursor) :=
    still_sweepFrom (by rw [hsettled, hp])
  refine ⟨hrest.trans hsettled, fun e he => ?_⟩
  simp only [sweepReturned, List.cons_append, List.mem_cons, List.mem_append] at he
  rcases he with rfl | he | he
  · rfl
  · exact hes e he
  · exact hes' e he

/-- A request for the code starts a mint: the code is not claimed yet and, if it is a
numbered one, it is the next of the ladder. -/
def State.Admits (st : State) (w : WalletId) (code : Code) : Prop :=
  w ≠ "" ∧ code ∉ st.readClaimed w ∧
    (code ≠ .shared → (expectedCode (st.readClaimed w)).map Code.numbered = some code)

instance (st : State) (w : WalletId) (code : Code) : Decidable (st.Admits w code) :=
  inferInstanceAs (Decidable (_ ∧ _ ∧ (_ → _)))

/-- What a redeem request does to the wallets: nothing when it is refused. -/
theorem redeem_cases (u : WalletId) (c : String) :
    ((st.redeem u c).1.wallet w = st.wallet w ∧ ∀ e ∈ (st.redeem u c).2, e.kind = .plain) ∨
      ∃ code, parseCode c = some code ∧ st.Admits u code ∧
        st.redeem u c =
          ((((st.arrive.setUser u (st.userOr u)).captureClaimed u).1.spawn st.nextPid
              (.fundBuyer u code ((st.arrive.setUser u (st.userOr u)).captureClaimed u).2)),
            [.fundStart st.nextPid u code]) := by
  have hset : (st.arrive.setUser u (st.userOr u)).wallet w = st.wallet w := wallet_setUser rfl rfl
  have hread : (st.arrive.setUser u (st.arrive.userOr u)).readClaimed u = st.readClaimed u := by
    rw [readClaimed_eq, readClaimed_eq]
    exact congrArg WalletView.claimed (wallet_setUser rfl rfl)
  unfold State.redeem
  dsimp only
  split
  · exact .inl ⟨rfl, by simp [Event.kind]⟩
  · next hw =>
      split
      · exact .inl ⟨rfl, by simp [Event.kind]⟩
      · next code hcode =>
          rw [hread]
          split
          · exact .inl ⟨hset, by simp [Event.kind]⟩
          · next hnew =>
              split
              · exact .inl ⟨hset, by simp [Event.kind]⟩
              · next hwrong =>
                  have horder : code ≠ .shared →
                      (expectedCode (st.readClaimed u)).map Code.numbered = some code :=
                    fun hne => by simpa [hne] using hwrong
                  exact .inr ⟨code, hcode, ⟨hw, hnew, horder⟩, rfl⟩

theorem still_register (req : RegisterRequest) : Still w st (st.register req wr) := by
  unfold State.register
  dsimp only
  split
  · exact ⟨rfl, by simp [Event.minted]⟩
  · split
    · exact ⟨rfl, by simp [Event.minted]⟩
    · have hset : ∀ x : Option Account, (st.arrive.setUser req.buyerId
          { st.arrive.userOr req.buyerId with account := x }).wallet w = st.wallet w :=
        fun x => wallet_setUser rfl rfl
      split
      · exact ⟨hset _, by simp⟩
      · next hsave => exact ⟨(wallet_saveUsers hsave).trans (hset _), by simp [Event.minted]⟩

theorem still_login (password hash : String) : Still w st (st.login u password hash) := by
  unfold State.login
  dsimp only
  split
  · exact ⟨rfl, by simp [Event.minted]⟩
  · split
    · exact ⟨rfl, by simp [Event.minted]⟩
    · split <;> exact ⟨rfl, by simp [Event.minted]⟩

theorem Still.ofLand {note : EscrowNote} {run : SettleRun} (h : Still w (st.land note run) r) :
    Still w st r := ⟨h.1.trans wallet_land, h.2⟩

/-- The actions that concern a mint. -/
def Action.mints : Action → Bool
  | .redeem _ _ => true
  | .funded _ _ => true
  | _ => false

/-- **Nothing else happens to the wallets.** -/
theorem still_step {i : Input} (hf : st.Fresh) (hone : OneProcess st i) (hi : step st i = some r)
    (hact : i.act.mints = false) : Still w st r := by
  obtain ⟨act, wr⟩ := i
  cases steps_of_step hi with
  | restart => exact hone.elim
  | tick | fundNote | consumeNote => exact ⟨rfl, by simp⟩
  | connect => exact ⟨rfl, by simp [Event.minted]⟩
  | start req => exact still_sessionStart hf req
  | escrowFailed hp => exact still_escrowBuilt (wallet_mint_none hp rfl)
  | escrowBuilt hp _ => exact still_escrowBuilt (wallet_mint_none hp rfl)
  | escrow sid => exact still_sessionEscrow hf
  | escrowVerified committed hp => exact still_escrowVerified (wallet_mint_none hp rfl) committed
  | chat req => exact still_chat hf req
  | answered res hp => exact still_chatAnswered (wallet_mint_none hp rfl) res
  | endSession sid => exact still_sessionEnd hf
  | endReturned hp _ _ _ =>
      exact (still_endReturned hf.land
        (wallet_mint_none ((congrFun procs_land _).trans hp) rfl)).ofLand
  | endWoken hp _ _ =>
      exact ⟨wallet_spawn.trans (wallet_mint_none hp rfl), by simp [State.endWoken, Event.minted]⟩
  | sweep =>
      have hnone : (st.arrive.wallet w).mint st.nextPid none = st.arrive.wallet w :=
        WalletView.mint_eq (by simp [State.wallet, arrive, hf st.nextPid le_rfl])
      have hsweep : Still w st.arrive (st.arrive.sweepFrom st.nextPid 0) := still_sweepFrom hnone
      exact hsweep
  | sweepReturned hp _ _ _ =>
      exact (still_sweepReturned hf.land
        (wallet_mint_none ((congrFun procs_land _).trans hp) rfl)).ofLand
  | joaoReturned hp => exact ⟨wallet_finish.trans (wallet_mint_none hp rfl), by simp⟩
  | register req => exact still_register req
  | login u password hash => exact still_login password hash
  | redeem | funded => cases hact

end Handlers

/-! ## Runs without rivals -/

/-- The wallet and the code of a redeem request. -/
def Action.redeems : Action → Option (WalletId × Code)
  | .redeem w c => (parseCode c).map fun code => (w, code)
  | _ => none

/-- A request that starts a mint finds no mint in flight for the same wallet and
code, and no mint at all for a wallet without a map of claimed codes. -/
def SoleMint (st : State) (i : Input) : Prop :=
  ∀ x ∈ i.act.redeems, st.Admits x.1 x.2 → ∀ pid < st.nextPid,
    ∀ m ∈ (st.procs pid).bind (Proc.mint x.1), m.1 ≠ x.2 ∧ (st.userOr x.1).codes.isSome = true

instance (st : State) (i : Input) : Decidable (SoleMint st i) :=
  inferInstanceAs (Decidable (∀ x ∈ _, _ → ∀ pid < _, ∀ m ∈ _, _))

/-- The steps of one process, with wallets that are account ids. -/
def ProcessSteps (st : State) (i : Input) : Prop := OneProcess st i ∧ ByAccounts st i

instance (st : State) (i : Input) : Decidable (ProcessSteps st i) :=
  inferInstanceAs (Decidable (_ ∧ _))

/-- Those of them in which no mint has a rival. -/
def SoleMints (st : State) (i : Input) : Prop := ProcessSteps st i ∧ SoleMint st i

instance (st : State) (i : Input) : Decidable (SoleMints st i) :=
  inferInstanceAs (Decidable (_ ∧ _))

section Simulation

variable {st : State} {w : WalletId} {r : State × List Event}

theorem Still.trace (h : Still w st r) :
    Trace (WalletStep w) (st.wallet w) (r.2.filter (Event.minted w)) (r.1.wallet w) := by
  have hnil : r.2.filter (Event.minted w) = [] := by
    rw [List.filter_eq_nil_iff]
    intro e he
    simp [h.2 e he]
  rw [h.1, hnil]
  exact .refl

theorem unrivalled_of_sole {u : WalletId} {c : String} {code : Code} {wr : Writes} (hf : st.Fresh)
    (hsole : SoleMint st ⟨.redeem u c, wr⟩) (hcode : parseCode c = some code)
    (hadmits : st.Admits u code) : (st.wallet u).Unrivalled code := by
  intro pid code' r hpid
  have hlt : pid < st.nextPid := by
    by_contra hle
    simp [State.wallet, hf pid (Nat.le_of_not_lt hle)] at hpid
  exact hsole (u, code) (by simp [Action.redeems, hcode]) hadmits pid hlt (code', r) hpid

/-- A request that is admitted starts a mint of its own wallet. -/
theorem wallet_started (hf : st.Fresh) (u : WalletId) (code : Code) :
    (((st.arrive.setUser u (st.userOr u)).captureClaimed u).1.spawn st.nextPid
        (.fundBuyer u code ((st.arrive.setUser u (st.userOr u)).captureClaimed u).2)).wallet w =
      if w = u then (st.wallet w).capture.1.mint st.nextPid (some (code, (st.wallet w).capture.2))
      else st.wallet w := by
  have hset : (st.arrive.setUser u (st.userOr u)).wallet w = st.wallet w := wallet_setUser rfl rfl
  split
  · next hu =>
      subst hu
      obtain ⟨hcapture, href⟩ := wallet_captureClaimed (st.arrive.setUser w (st.userOr w)) w
      rw [wallet_spawn, hcapture, href, hset]
      simp [Proc.mint]
  · next hu =>
      rw [wallet_spawn, wallet_captureClaimed_ne hu, hset]
      exact WalletView.mint_eq (by simp [State.wallet, hf st.nextPid le_rfl, Proc.mint, Ne.symm hu])

/-- A mint that has returned is claimed if it succeeded, and over. -/
theorem wallet_returned {u : WalletId} {pid : Pid} {code : Code} {claimed : ℕ}
    (hp : st.procs pid = some (.fundBuyer u code claimed)) (ok : Bool) (wr : Writes) :
    (st.funded pid u code claimed ok wr).1.wallet w =
      if w = u then (if ok then (st.wallet w).claim code claimed else st.wallet w).mint pid none
      else st.wallet w := by
  have hfinish : ((st.finish pid).claim u code claimed).wallet w =
      if w = u then ((st.wallet w).claim code claimed).mint pid none else st.wallet w := by
    split
    · next hu =>
        subst hu
        rw [wallet_claim, wallet_finish]
        rfl
    · next hu =>
        rw [wallet_claim_ne hu, wallet_finish]
        exact wallet_mint_none hp (by simp [Proc.mint, Ne.symm hu])
  unfold State.funded
  dsimp only
  cases ok with
  | true =>
      rw [if_pos rfl]
      split
      · exact hfinish
      · next hsave => exact (wallet_saveUsers hsave).trans hfinish
  | false =>
      show (st.finish pid).wallet w =
        if w = u then (st.wallet w).mint pid none else st.wallet w
      rw [wallet_finish]
      split
      · rfl
      · next hu => exact wallet_mint_none hp (by simp [Proc.mint, Ne.symm hu])

/-- It is reported first. -/
theorem funded_events (st : State) (pid : Pid) (u : WalletId) (code : Code) (claimed : ℕ)
    (ok : Bool) (wr : Writes) :
    ∃ rest, (st.funded pid u code claimed ok wr).2 = .fundEnd pid u code ok :: rest ∧
      ∀ e ∈ rest, e.kind = .plain := by
  unfold State.funded
  dsimp only
  cases ok with
  | true =>
      rw [if_pos rfl]
      split
      · exact ⟨[], rfl, by simp⟩
      · exact ⟨_, rfl, by simp [Event.kind]⟩
  | false => exact ⟨_, rfl, by simp [Event.kind]⟩

theorem wallet_redeem (hf : st.Fresh) {u : WalletId} {c : String} {wr : Writes}
    (hsole : SoleMint st ⟨.redeem u c, wr⟩) :
    Trace (WalletStep w) (st.wallet w) ((st.redeem u c).2.filter (Event.minted w))
      ((st.redeem u c).1.wallet w) := by
  rcases redeem_cases (w := w) u c with hstill | ⟨code, hcode, hadmits, heq⟩
  · exact Still.trace ⟨hstill.1, fun e he => minted_of_kind (by simp [hstill.2 e he])⟩
  · have hwallet := wallet_started (w := w) hf u code
    rw [heq]
    by_cases hu : w = u
    · subst hu
      rw [if_pos rfl] at hwallet
      have hnone : (st.wallet w).mints st.nextPid = none := by
        simp [State.wallet, hf st.nextPid le_rfl]
      have hstart := WalletStep.start (w := w) st.nextPid hnone (readClaimed_eq ▸ hadmits.2.1)
        (unrivalled_of_sole hf hsole hcode hadmits)
      rw [hwallet]
      simpa [Event.minted] using Trace.single hstart
    · exact Still.trace ⟨hwallet.trans (if_neg hu), by simp [Event.minted]⟩

theorem wallet_funded {u : WalletId} {pid : Pid} {code : Code} {claimed : ℕ} {wr : Writes}
    (hp : st.procs pid = some (.fundBuyer u code claimed)) (ok : Bool) :
    Trace (WalletStep w) (st.wallet w) ((st.funded pid u code claimed ok wr).2.filter
      (Event.minted w)) ((st.funded pid u code claimed ok wr).1.wallet w) := by
  obtain ⟨rest, hevents, hplain⟩ := funded_events st pid u code claimed ok wr
  have hrest : ∀ e ∈ rest, e.minted w = false := fun e he =>
    minted_of_kind (by simp [hplain e he])
  have hwallet := wallet_returned (w := w) hp ok wr
  rw [hevents]
  by_cases hu : w = u
  · subst hu
    rw [if_pos rfl] at hwallet
    have hself : (st.wallet w).mints pid = some (code, claimed) := by
      simp [State.wallet, hp, Proc.mint]
    have hfilter : (Event.fundEnd pid w code ok :: rest).filter (Event.minted w) =
        [.fundEnd pid w code ok] := by
      rw [List.filter_cons_of_pos (by simp [Event.minted]), List.filter_eq_nil_iff.mpr]
      intro e he
      simp [hrest e he]
    rw [hfilter, hwallet]
    cases ok with
    | true => exact Trace.single (WalletStep.grant pid hself)
    | false => exact Trace.single (WalletStep.refuse pid hself)
  · have hstill : Still w st ((st.funded pid u code claimed ok wr).1,
        .fundEnd pid u code ok :: rest) := by
      refine ⟨hwallet.trans (if_neg hu), fun e he => ?_⟩
      rcases List.mem_cons.mp he with rfl | he
      · simp [Event.minted, Ne.symm hu]
      · exact hrest e he
    exact hstill.trace

/-- **The bridge refines the wallet.** -/
theorem step_wallet {i : Input} (hf : st.Fresh) (hok : SoleMints st i) (hi : step st i = some r) :
    r.1.Fresh ∧ Trace (WalletStep w) (st.wallet w) (r.2.filter (Event.minted w))
      (r.1.wallet w) := by
  obtain ⟨⟨hone, -⟩, hsole⟩ := hok
  refine ⟨(step_sees 0 hf hone hi).1, ?_⟩
  cases hact : i.act.mints with
  | false => exact (still_step hf hone hi hact).trace
  | true =>
      obtain ⟨act, wr⟩ := i
      cases steps_of_step hi with
      | redeem u c => exact wallet_redeem hf hsole
      | funded ok hp => exact wallet_funded hp ok
      | _ => cases hact

end Simulation

/-! ## The wallet's books -/

/-- A mint of the code for the wallet that succeeded. -/
def Event.grants (w : WalletId) (code : Code) : Event → Bool
  | .fundEnd _ u c ok => u = w && c = code && ok
  | _ => false

/-- All the mints in flight write to the map the wallet has or will have, which
does not have their codes yet, and each code that was granted is in it. -/
structure Books (w : WalletId) (v : WalletView) (tr : List Event) : Prop where
  valid : ∀ r, v.codes = some r → r < v.maps.length
  captured : ∀ pid code r, v.mints pid = some (code, r) →
    r < v.maps.length ∧ code ∉ (v.maps[r]?).getD [] ∧ ∀ r', v.codes = some r' → r' = r
  alone : v.codes = none → ∀ pid pid' m m', v.mints pid = some m → v.mints pid' = some m' →
    pid = pid'
  distinct : ∀ pid pid' code r r', v.mints pid = some (code, r) → v.mints pid' = some (code, r') →
    pid = pid'
  granted : ∀ code, 0 < tr.countP (Event.grants w code) →
    ∃ r, v.codes = some r ∧ code ∈ (v.maps[r]?).getD []
  once : ∀ code, tr.countP (Event.grants w code) ≤ 1

section Books

variable {w : WalletId} {v v' : WalletView} {tr es : List Event} {pid : Pid} {code : Code} {r : ℕ}

theorem mints_mint {q : Pid} {m : Option (Code × ℕ)} :
    (v.mint pid m).mints q = if q = pid then m else v.mints q := by
  simp [WalletView.mint, Function.update_apply]

theorem mints_none {q : Pid} {m : Code × ℕ} (h : (v.mint pid none).mints q = some m) :
    q ≠ pid ∧ v.mints q = some m := by
  rw [mints_mint] at h
  split at h
  · cases h
  · next hq => exact ⟨hq, h⟩

theorem countP_grants {c : Code} {ok : Bool} :
    (tr ++ [Event.fundEnd pid w code ok]).countP (Event.grants w c) =
      tr.countP (Event.grants w c) + if ok = true ∧ code = c then 1 else 0 := by
  rw [List.countP_append]
  by_cases hc : code = c <;> cases ok <;> simp [Event.grants, hc]

theorem Books.refuse (h : Books w v tr) :
    Books w (v.mint pid none) (tr ++ [.fundEnd pid w code false]) := by
  have hcount : ∀ c, (tr ++ [Event.fundEnd pid w code false]).countP (Event.grants w c) =
      tr.countP (Event.grants w c) := fun c => by rw [countP_grants]; simp
  refine ⟨h.valid, fun q c r hq => h.captured q c r (mints_none hq).2,
    fun hnone q q' m m' hq hq' => h.alone hnone q q' m m' (mints_none hq).2 (mints_none hq').2,
    fun q q' c r r' hq hq' => h.distinct q q' c r r' (mints_none hq).2 (mints_none hq').2,
    fun c hc => h.granted c (hcount c ▸ hc), fun c => (hcount c).trans_le (h.once c)⟩

theorem Books.grant (h : Books w v tr) (hpid : v.mints pid = some (code, r)) :
    Books w ((v.claim code r).mint pid none) (tr ++ [.fundEnd pid w code true]) := by
  obtain ⟨hlt, hnew, hcodes⟩ := h.captured pid code r hpid
  have hmap : ((v.maps.modify r fun codes => code :: codes)[r]?).getD [] =
      code :: (v.maps[r]?).getD [] := by
    simp [hlt]
  -- an old grant of this code would be in the map already
  have hfirst : tr.countP (Event.grants w code) = 0 := by
    by_contra hpos
    obtain ⟨r', hr', hmem⟩ := h.granted code (Nat.pos_of_ne_zero hpos)
    rw [hcodes r' hr'] at hmem
    exact hnew hmem
  refine ⟨?_, ?_, ?_, ?_, ?_, ?_⟩
  · rintro r' ⟨⟩
    simpa [WalletView.claim, WalletView.mint] using hlt
  · intro q c r' hq
    obtain ⟨hne, hq⟩ := mints_none hq
    have hq : v.mints q = some (c, r') := hq
    obtain ⟨-, hc, hcodes'⟩ := h.captured q c r' hq
    -- a mint in flight next to this one captured the same map
    have hr : r' = r := by
      cases hv : v.codes with
      | none => exact absurd (h.alone hv q pid _ _ hq hpid) hne
      | some r₀ => rw [← hcodes r₀ hv, ← hcodes' r₀ hv]
    subst hr
    refine ⟨by simpa [WalletView.claim, WalletView.mint] using hlt, ?_, fun r'' => by rintro ⟨⟩; rfl⟩
    simp only [WalletView.claim, WalletView.mint, hmap, List.mem_cons, not_or]
    refine ⟨?_, hc⟩
    rintro rfl
    exact hne (h.distinct q pid c r' r' hq hpid)
  · rintro ⟨⟩
  · exact fun q q' c r₁ r₂ hq hq' => h.distinct q q' c r₁ r₂ (mints_none hq).2 (mints_none hq').2
  · intro c hc
    refine ⟨r, rfl, ?_⟩
    simp only [WalletView.claim, WalletView.mint, hmap]
    by_cases hcc : c = code
    · exact hcc ▸ List.mem_cons_self
    · rw [countP_grants, if_neg fun h => hcc h.2.symm] at hc
      obtain ⟨r', hr', hmem⟩ := h.granted c hc
      rw [hcodes r' hr'] at hmem
      exact List.mem_cons_of_mem _ hmem
  · intro c
    rw [countP_grants]
    split
    · next hcc => rw [← hcc.2, hfirst]
    · exact h.once c

/-- A mint for a wallet that has a map: it captures that map. -/
theorem Books.startKept (h : Books w v tr) (hv : v.codes = some r) (hnew : code ∉ v.claimed)
    (hsole : v.Unrivalled code) : Books w (v.mint pid (some (code, r))) tr := by
  have hclaimed : code ∉ (v.maps[r]?).getD [] := by simpa [WalletView.claimed, hv] using hnew
  refine ⟨h.valid, fun q c r' hq => ?_, fun hnone => ?_, fun q q' c r₁ r₂ hq hq' => ?_,
    h.granted, h.once⟩
  · rw [mints_mint] at hq
    split at hq
    · cases hq
      exact ⟨h.valid r hv, hclaimed, fun r'' hr => Option.some.inj (hr.symm.trans hv)⟩
    · exact h.captured q c r' hq
  · rw [show v.codes = none from hnone] at hv
    cases hv
  · rw [mints_mint] at hq hq'
    split at hq <;> split at hq'
    · next hp hp' => rw [hp, hp']
    · cases hq
      exact absurd rfl (hsole q' _ _ hq').1
    · cases hq'
      exact absurd rfl (hsole q _ _ hq).1
    · exact h.distinct q q' c r₁ r₂ hq hq'

/-- A mint for a wallet without a map: it is the only one, and its map is new. -/
theorem Books.startFresh (h : Books w v tr) (hv : v.codes = none) (hnew : code ∉ v.claimed)
    (hsole : v.Unrivalled code) :
    Books w (WalletView.mint { v with maps := v.maps ++ [v.claimed] } pid
      (some (code, v.maps.length))) tr := by
  have hidle : ∀ q, v.mints q = none := by
    intro q
    cases hq : v.mints q with
    | none => rfl
    | some m =>
        have := (hsole q m.1 m.2 hq).2
        simp [hv] at this
  set v₁ : WalletView := { v with maps := v.maps ++ [v.claimed] } with hv₁
  have honly : ∀ q m, (v₁.mint pid (some (code, v.maps.length))).mints q = some m →
      q = pid ∧ m = (code, v.maps.length) := by
    intro q m hq
    rw [mints_mint] at hq
    split at hq
    · next hp => exact ⟨hp, (Option.some.inj hq).symm⟩
    · simp [hv₁, hidle q] at hq
  have hcodes : (v₁.mint pid (some (code, v.maps.length))).codes = none := hv
  refine ⟨fun r hr => ?_, fun q c r hq => ?_, fun _ q q' m m' hq hq' => ?_,
    fun q q' c r r' hq hq' => ?_, fun c hc => ?_, h.once⟩
  · rw [hcodes] at hr
    cases hr
  · obtain ⟨-, hm⟩ := honly q _ hq
    obtain ⟨rfl, rfl⟩ := Prod.mk.inj hm
    refine ⟨by simp [hv₁, WalletView.mint], ?_, fun r' hr' => ?_⟩
    · simpa [hv₁, WalletView.mint] using hnew
    · rw [hcodes] at hr'
      cases hr'
  · exact (honly q m hq).1.trans (honly q' m' hq').1.symm
  · exact (honly q _ hq).1.trans (honly q' _ hq').1.symm
  · -- a granted code is in the wallet's map, and there is none
    obtain ⟨r, hr, -⟩ := h.granted c hc
    rw [hv] at hr
    cases hr

theorem Books.start (h : Books w v tr) (hnew : code ∉ v.claimed) (hsole : v.Unrivalled code) :
    Books w (v.capture.1.mint pid (some (code, v.capture.2))) tr := by
  cases hv : v.codes with
  | some r =>
      have hcapture : v.capture = (v, r) := by simp [WalletView.capture, hv]
      rw [hcapture]
      exact h.startKept hv hnew hsole
  | none =>
      have hcapture : v.capture = ({ v with maps := v.maps ++ [v.claimed] }, v.maps.length) := by
        simp [WalletView.capture, hv]
      rw [hcapture]
      exact h.startFresh hv hnew hsole

theorem WalletStep.books (hstep : WalletStep w v es v') (h : Books w v tr) :
    Books w v' (tr ++ es) := by
  cases hstep with
  | start pid _ hnew hsole => simpa using h.start hnew hsole
  | grant pid hpid => exact h.grant hpid
  | refuse pid hpid => exact h.refuse

end Books

section Runs

variable {w : WalletId} {code : Code} {tr : List Event} {st : State} {disk : Disk} {now : ℕ}
  {nextPid : Pid} {chain : EscrowNote → NoteStatus}

theorem books_boot : Books w ((boot disk now nextPid chain).wallet w) [] := by
  have hidle : ∀ pid, ((boot disk now nextPid chain).wallet w).mints pid = none := fun _ => rfl
  refine ⟨fun r hr => ?_, ?_, ?_, ?_, ?_, ?_⟩
  · simp only [State.wallet, userOr, boot] at hr ⊢
    cases hsaved : disk.users.getD (fun _ => none) w with
    | none => simp [hsaved, User.new] at hr
    | some u => cases hcodes : u.codes <;> simp_all [restoreUser]
  all_goals simp [hidle]

theorem grants_minted {e : Event} (h : e.grants w code = true) : e.minted w = true := by
  unfold Event.grants at h
  split at h <;> simp_all [Event.minted]

/-- Every run without rivals keeps the books of each wallet. -/
theorem trace_books (h : Trace (lts step SoleMints) (boot disk now nextPid chain) tr st) :
    Books w (st.wallet w) (tr.filter (Event.minted w)) := by
  have hrun := (trace_lift (State.wallet w) (Event.minted w)
    (fun _ _ _ hf hok hi => step_wallet hf hok hi) (fresh_boot _ _ _ _) h).2
  exact hrun.invariant books_boot fun v tr es v' hbooks hstep => hstep.books hbooks

/-- A run mints the code at most once for the wallet, and if it has, the wallet's
map of claimed codes has the code. -/
def MintedOnce (w : WalletId) (code : Code) (tr : List Event) (st : State) : Prop :=
  tr.countP (Event.grants w code) ≤ 1 ∧
    (0 < tr.countP (Event.grants w code) → code ∈ st.readClaimed w)

instance : Decidable (MintedOnce w code tr st) := inferInstanceAs (Decidable (_ ∧ _))

/-- **A code is minted at most once per wallet**, in every run in which no mint
has a rival, and stays claimed. -/
theorem minted_once (h : Trace (lts step SoleMints) (boot disk now nextPid chain) tr st) :
    MintedOnce w code tr st := by
  have hbooks : Books w (st.wallet w) (tr.filter (Event.minted w)) := trace_books h
  have hcount : (tr.filter (Event.minted w)).countP (Event.grants w code) =
      tr.countP (Event.grants w code) := by
    rw [List.countP_filter]
    exact List.countP_congr fun e _ => by simpa using grants_minted
  refine ⟨hcount ▸ hbooks.once code, fun hpos => ?_⟩
  obtain ⟨r, hr, hmem⟩ := hbooks.granted code (hcount ▸ hpos)
  simpa [readClaimed_eq, WalletView.claimed, hr] using hmem

end Runs

/-! One code after the other, and the first once more. -/

def redeemInTurn : List Action :=
  [.redeem "0xb0b" " ilovebartok ", .funded 0 true, .redeem "0xb0b" "ILOVEBARTOK_00",
    .funded 1 true, .redeem "0xb0b" "ILOVEBARTOK"]

theorem minted_once_demo : ∃ (tr : List Event) (st : State),
    tr.countP (Event.grants "0xb0b" .shared) = 1 ∧
      tr.countP (Event.grants "0xb0b" (.numbered 0)) = 1 ∧ MintedOnce "0xb0b" .shared tr st :=
  have h := trace_exec step SoleMints demoBoot (written redeemInTurn) (by decide) (by decide)
  ⟨_, _, by decide, by decide, minted_once h⟩

/-! Two requests with one code: both find it unclaimed, and both are minted. -/

theorem minted_twice : ¬ ∀ (disk : Disk) (now : ℕ) (nextPid : Pid)
    (chain : EscrowNote → NoteStatus) (w : WalletId) (code : Code) (tr : List Event) (st : State),
    Trace (lts step ProcessSteps) (boot disk now nextPid chain) tr st →
      MintedOnce w code tr st := by
  intro h
  have hrun := trace_exec step ProcessSteps demoBoot (written [.redeem "0xb0b" "ILOVEBARTOK",
    .redeem "0xb0b" "ILOVEBARTOK", .funded 0 true, .funded 1 true]) (by decide) (by decide)
  have := h _ _ _ _ "0xb0b" .shared _ _ hrun
  revert this
  decide

end Bartok.Bridge
