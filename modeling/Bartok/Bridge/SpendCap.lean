import Bartok.Bridge.Lock

/-!
# The spend cap of anonymous wallets

`/api/chat` turns an anonymous wallet away once its spend has reached
`CONFIG.anonSpendCapBartok`. What a reply costs is known only when it is there, and then the
cap is not looked at again: the last reply before the cap may cross it.
-/

namespace Bartok.Bridge

open Foundation Miden State

/-- What the answer that `pid` waits for adds to the spend of `w`. -/
def State.charged (st : State) (w : WalletId) (pid : Pid) (res : Except String Answer) : ℕ :=
  match st.procs pid, res with
  | some (.runAnswer sid _ _ spent), .ok a =>
      match st.sessions.obj? sid with
      | some s =>
          if s.buyerId = w ∧ spent + a.charge ≤ s.budget ∧ s.settled = false then a.charge else 0
      | none => 0
  | _, _ => 0

/-- No request registers the wallet. -/
def NeverRegisters (w : WalletId) (i : Input) : Prop :=
  match i.act with
  | .register req => req.buyerId ≠ w
  | _ => True

/-- What a step adds to the spend of `w`. -/
def State.charge (st : State) (w : WalletId) (i : Input) : ℕ :=
  match i.act with
  | .answered pid res => st.charged w pid res
  | _ => 0

/-- A reply for a wallet below its cap fits what is left of it. -/
def NoCrossing (w : WalletId) (st : State) (i : Input) : Prop :=
  st.spentBy w < anonSpendCapBartok → st.spentBy w + st.charge w i ≤ anonSpendCapBartok

instance (w : WalletId) (st : State) (i : Input) : Decidable (NoCrossing w st i) :=
  inferInstanceAs (Decidable (_ → _))

/-- The spend of the wallet, in memory and in `users.json`, is within the cap. -/
structure WithinCap (w : WalletId) (st : State) : Prop where
  spent : st.spentBy w ≤ anonSpendCapBartok
  saved : ∀ users u, st.disk.users = some users → users w = some u → u.spent ≤ anonSpendCapBartok

/-- The wallet has no account and is within its cap, and below it while a chat of it waits
for its answer. -/
structure Anonymous (w : WalletId) (st : State) : Prop extends WithinCap w st where
  locked : Locked st
  account : st.account w = none
  savedAccount : ∀ users u, st.disk.users = some users → users w = some u → u.account = none
  chat : ∀ pid sid prompt tier spent, st.procs pid = some (.runAnswer sid prompt tier spent) →
    ∃ b, (st.sessions.obj? sid).map Session.buyerId = some b ∧
      (b = w → st.spentBy w < anonSpendCapBartok)

section Steps

variable {st : State} {act : Action} {wr : Writes} {r : State × List Event} {w : WalletId}
  {pid : Pid} {sid : SessionId} {prompt : JsString} {tier : String} {spent : ℕ}
  {res : Except String Answer}

/-! ## What a step does to the record -/

/-- Only an answer changes the spend. -/
theorem record_step (hone : act ≠ .restart) (hanswered : ∀ pid res, act ≠ .answered pid res)
    (hnever : NeverRegisters w ⟨act, wr⟩) (hi : step st ⟨act, wr⟩ = some r) :
    r.1.spentBy w = st.spentBy w ∧ r.1.account w = st.account w := by
  have hset : ∀ u, (st.setUser u (st.userOr u)).spentBy w = st.spentBy w ∧
      (st.setUser u (st.userOr u)).account w = st.account w := by
    intro u
    rw [spentBy_setUser, account_setUser]
    split
    · next hw => exact ⟨hw ▸ spent_userOr, hw ▸ account_userOr⟩
    · exact ⟨rfl, rfl⟩
  by_cases hact : act.writesUsers = false
  · have hstore := userStore_step (oneProcess_iff.mpr hone) hi hact
    exact ⟨spentBy_eq hstore, account_eq hstore⟩
  · cases steps_of_step hi with
    | answered res hp => exact absurd rfl (hanswered _ res)
    | redeem u c =>
        rcases redeem_records st u c with hstore | hstore | hstore
        · exact ⟨spentBy_eq hstore, account_eq hstore⟩
        · rw [spentBy_eq hstore, account_eq hstore]
          exact hset u
        · rw [spentBy_eq hstore, account_eq hstore, spentBy_captureClaimed,
            account_captureClaimed]
          exact hset u
    | @funded q u code claimed ok hp =>
        have hstore : (st.funded q u code claimed ok wr).1.userStore = _ := funded_records ok
        cases ok with
        | true =>
            rw [spentBy_save hstore, account_save hstore]
            exact ⟨spentBy_claim, account_claim⟩
        | false => exact ⟨spentBy_eq hstore, account_eq hstore⟩
    | register req =>
        rcases register_records st req wr with ⟨hstore, -⟩ | ⟨account, -, -, -, hstore, -⟩
        · exact ⟨spentBy_eq hstore, account_eq hstore⟩
        · have hne : w ≠ req.buyerId := fun h => hnever h.symm
          rw [spentBy_save hstore, account_save hstore, spentBy_setUser, account_setUser,
            if_neg hne, if_neg hne]
          exact ⟨rfl, rfl⟩
    | _ => exact absurd rfl hact

theorem account_chatAnswered :
    (st.chatAnswered pid sid prompt tier spent res wr).1.account w = st.account w := by
  have hrecords := @chatAnswered_records st pid sid tier prompt spent wr res
  rcases hrecords with ⟨hstore, -⟩ | ⟨_, _, _, _, -, -, hstore, -⟩
  · exact account_eq hstore
  · exact (account_save hstore).trans account_addSpend

/-- An answer adds its charge, if it is charged. -/
theorem spentBy_chatAnswered (hp : st.procs pid = some (.runAnswer sid prompt tier spent)) :
    (st.chatAnswered pid sid prompt tier spent res wr).1.spentBy w =
      st.spentBy w + st.charged w pid res := by
  unfold chatAnswered
  dsimp only
  split
  · simp only [State.charged, hp, Nat.add_zero]
    rfl
  · next hs =>
      have hs : st.sessions.obj? sid = none := hs
      simp only [State.charged, hp, hs, Nat.add_zero]
      rfl
  · next a s hs =>
      have hs : st.sessions.obj? sid = some s := hs
      simp only [State.charged, hp, hs]
      split
      · next hover =>
          rw [if_neg fun h => absurd h.2.1 (Nat.not_le.mpr hover)]
          rfl
      · next hfits =>
          split
          · next hsettled =>
              rw [if_neg fun h => by simp [hsettled] at h]
              rfl
          · next hopen =>
              have hiff : (s.buyerId = w ∧ spent + a.charge ≤ s.budget ∧ s.settled = false) ↔
                  w = s.buyerId :=
                ⟨fun h => h.1.symm, fun h => ⟨h.symm, Nat.not_lt.mp hfits, by simpa using hopen⟩⟩
              have hspent : ∀ st₁ : State, st₁.userStore = st.userStore →
                  (st₁.addSpend s.buyerId a.charge).spentBy w =
                    st.spentBy w + if w = s.buyerId then a.charge else 0 := fun st₁ h => by
                rw [spentBy_addSpend, spentBy_eq h]
              simp only [hiff]
              unfold deliver
              dsimp only
              split
              · exact hspent _ (by rw [userStore_modify, userStore_persistSessions]; rfl)
              · next hsave =>
                  apply (spentBy_save (userStore_saveUsers hsave).2).trans
                  exact hspent _ (by rw [userStore_modify, userStore_persistSessions]; rfl)

theorem savedUsers_eq_some {u : SavedUser} (h : st.savedUsers w = some u) :
    u.account = st.account w ∧ u.spent = st.spentBy w := by
  obtain ⟨x, hx, rfl⟩ := Option.map_eq_some_iff.mp h
  simp [State.account, spentBy, hx]

theorem hasAccount_eq_false (h : st.account w = none) : st.hasAccount w = false := by
  rw [hasAccount, ← State.account, h]
  rfl

/-! ## The chat that waits -/

/-- A chat that is let in is for a wallet below its cap. -/
theorem chat_admitted (h : Anonymous w st) (req : ChatRequest) {p : Pid}
    (hp : (st.chat req).1.procs p = some (.runAnswer sid prompt tier spent)) :
    ∃ b, ((st.chat req).1.sessions.obj? sid).map Session.buyerId = some b ∧
      (b = w → (st.chat req).1.spentBy w < anonSpendCapBartok) := by
  rw [spentBy_eq (userStore_chat req)]
  unfold State.chat at hp ⊢
  dsimp only at hp ⊢
  split at hp
  · exact h.chat p sid prompt tier spent hp
  · next s hgate =>
      obtain ⟨hget, -, -, -, -, -, hcap, hbusy⟩ := chatGate_ok hgate
      split at hp
      · next htier =>
          rcases procs_spawn hp with ⟨-, hproc⟩ | hp
          · cases hproc
            obtain ⟨slot, hslot, -, rfl⟩ := SlotMap.get?_eq_some.mp hget
            refine ⟨slot.val.buyerId, ?_, ?_⟩
            · simp [State.modify, setBusy, spawn, arrive, SlotMap.obj?,
                SlotMap.slot?_modify, hslot, openHistory]
            · rintro rfl
              exact hcap (hasAccount_eq_false h.account)
          · exact absurd ⟨_, hp, rfl⟩ (h.locked.free hbusy)
      · exact h.chat p sid prompt tier spent hp

theorem waiting_step (h : Anonymous w st) (hone : act ≠ .restart)
    (hnever : NeverRegisters w ⟨act, wr⟩) (hi : step st ⟨act, wr⟩ = some r) {p : Pid}
    (hp : r.1.procs p = some (.runAnswer sid prompt tier spent)) :
    ∃ b, (r.1.sessions.obj? sid).map Session.buyerId = some b ∧
      (b = w → r.1.spentBy w < anonSpendCapBartok) := by
  have hother : (∀ req, act ≠ .chat req) → (∀ pid res, act ≠ .answered pid res) →
      ∃ b, (r.1.sessions.obj? sid).map Session.buyerId = some b ∧
        (b = w → r.1.spentBy w < anonSpendCapBartok) := by
    intro hchat hanswered
    obtain ⟨q, hq, hanswer⟩ : st.InAnswer p := inAnswer_new hchat hi ⟨_, hp, rfl⟩
    have hmine : act.returns ≠ some p := fun hmine => by
      obtain ⟨res, hact⟩ := answered_of_returns hi hmine hq hanswer
      exact hanswered p res hact
    have hframe := (handled_step hi (oneProcess_iff.mpr hone)).frame
    have hsame := (hframe.procs p (h.locked.fresh.lt hq) hmine).symm.trans hp
    obtain ⟨b, hb, hbelow⟩ := h.chat p sid prompt tier spent hsame
    refine ⟨b, buyer_step h.locked.fresh (oneProcess_iff.mpr hone) hi hb, ?_⟩
    rw [(record_step hone hanswered hnever hi).1]
    exact hbelow
  cases steps_of_step hi with
  | chat req => exact chat_admitted h req hp
  | answered res hq =>
      have hin : State.InAnswer _ p := ⟨_, hp, rfl⟩
      exact absurd hin ((locked_step h.locked hi).free (busy_chatAnswered res))
  | restart => exact absurd rfl hone
  | _ => exact hother nofun nofun

/-! ## Steps -/

/-- A process that starts on a store in which the wallet is anonymous and within its cap. -/
theorem anonymous_boot {disk : Disk} {now : ℕ} {nextPid : Pid} {chain : EscrowNote → NoteStatus}
    (hdisk : ∀ users u, disk.users = some users → users w = some u →
      u.account = none ∧ u.spent ≤ anonSpendCapBartok) :
    Anonymous w (boot disk now nextPid chain) where
  spent := by
    cases husers : disk.users with
    | none => simp [spentBy, boot, husers]
    | some users =>
        cases hu : users w with
        | none => simp [spentBy, boot, husers, hu]
        | some u => simpa [spentBy, boot, husers, hu, restoreUser] using (hdisk users u husers hu).2
  saved users u husers hu := (hdisk users u husers hu).2
  locked := locked_boot
  account := by
    cases husers : disk.users with
    | none => simp [State.account, boot, husers]
    | some users =>
        cases hu : users w with
        | none => simp [State.account, boot, husers, hu]
        | some u =>
            simpa [State.account, boot, husers, hu, restoreUser] using (hdisk users u husers hu).1
  savedAccount users u husers hu := (hdisk users u husers hu).1
  chat := nofun

/-- The gate of the chat makes sure that only a reply below the cap comes to be added. -/
theorem answer_within (h : Anonymous w st)
    (hp : st.procs pid = some (.runAnswer sid prompt tier spent))
    (hno : NoCrossing w st ⟨.answered pid res, wr⟩) :
    st.spentBy w + st.charged w pid res ≤ anonSpendCapBartok := by
  obtain ⟨b, hb, hbelow⟩ := h.chat pid sid prompt tier spent hp
  by_cases hw : b = w
  · exact hno (hbelow hw)
  · have hfree : st.charged w pid res = 0 := by
      obtain ⟨s, hs, rfl⟩ := Option.map_eq_some_iff.mp hb
      cases res with
      | error e => simp [State.charged, hp]
      | ok a => simp [State.charged, hp, hs, hw]
    rw [hfree]
    exact h.spent

theorem anonymous_step (h : Anonymous w st) (hnever : NeverRegisters w ⟨act, wr⟩)
    (hno : NoCrossing w st ⟨act, wr⟩) (hi : step st ⟨act, wr⟩ = some r) : Anonymous w r.1 := by
  by_cases hrestart : act = .restart
  · subst hrestart
    obtain rfl := Option.some.inj hi
    exact anonymous_boot fun users u husers hu =>
      ⟨h.savedAccount users u husers hu, h.saved users u husers hu⟩
  have hrecord : r.1.spentBy w ≤ anonSpendCapBartok ∧ r.1.account w = none := by
    by_cases hanswered : ∀ pid res, act ≠ .answered pid res
    · obtain ⟨hspent, haccount⟩ := record_step hrestart hanswered hnever hi
      exact ⟨hspent ▸ h.spent, haccount.trans h.account⟩
    · simp only [not_forall, not_not] at hanswered
      obtain ⟨p, res, rfl⟩ := hanswered
      cases steps_of_step hi with
      | answered res hp =>
          refine ⟨?_, account_chatAnswered.trans h.account⟩
          rw [spentBy_chatAnswered hp]
          exact answer_within h hp hno
  have hdisk := (records_step (oneProcess_iff.mpr hrestart) hi).disk
  have hsaved : ∀ users u, r.1.disk.users = some users → users w = some u →
      u.spent ≤ anonSpendCapBartok ∧ u.account = none := by
    intro users u husers hu
    rcases hdisk with hold | hnew
    · exact ⟨h.saved users u (hold ▸ husers) hu, h.savedAccount users u (hold ▸ husers) hu⟩
    · obtain rfl := Option.some.inj (hnew.symm.trans husers)
      obtain ⟨haccount, hspent⟩ := savedUsers_eq_some hu
      exact ⟨hspent ▸ hrecord.1, haccount.trans hrecord.2⟩
  exact ⟨⟨hrecord.1, fun users u husers hu => (hsaved users u husers hu).1⟩,
    locked_step h.locked hi, hrecord.2, fun users u husers hu => (hsaved users u husers hu).2,
    fun p sid prompt tier spent hp => waiting_step h hrestart hnever hi hp⟩

/-- An answer after which the wallet is within its cap did not cross it. -/
theorem noCrossing_of_withinCap {i : Input} (h : Anonymous w st)
    (hnext : ∀ r, step st i = some r → WithinCap w r.1) : NoCrossing w st i := by
  obtain ⟨act, wr⟩ := i
  intro _
  cases act with
  | answered p res =>
      change _ + st.charged w p res ≤ _
      cases hp : st.procs p with
      | none => simpa [State.charged, hp] using h.spent
      | some q =>
          cases q with
          | runAnswer sid prompt tier spent =>
              have hi : step st ⟨.answered p res, wr⟩ =
                  some (st.chatAnswered p sid prompt tier spent res wr) := by simp only [step, hp]
              exact spentBy_chatAnswered hp ▸ (hnext _ hi).spent
          | _ => simpa [State.charged, hp] using h.spent
  | _ => exact h.spent

end Steps

/-! ## Runs -/

/-- **The cap is kept exactly if no reply crosses it.** A wallet that never registers is
within its cap in every state of a run, through restarts and failed writes, exactly if each
reply that is charged to it while it is below the cap fits what is left of it. -/
theorem anon_cap_kept_iff {disk : Disk} {now : ℕ} {nextPid : Pid}
    {chain : EscrowNote → NoteStatus} {w : WalletId} {inputs : List Input}
    (hdisk : ∀ users u, disk.users = some users → users w = some u →
      u.account = none ∧ u.spent ≤ anonSpendCapBartok)
    (hnever : ∀ i ∈ inputs, NeverRegisters w i) :
    (∀ pre, pre <+: inputs → ∀ r, exec step (boot disk now nextPid chain) pre = some r →
      WithinCap w r.1) ↔ okAlong step (NoCrossing w) (boot disk now nextPid chain) inputs :=
  prefixes_iff_okAlong (I := Anonymous w) (J := WithinCap w) (fun _ h => h.toWithinCap)
    (fun _ _ h _ hnext => noCrossing_of_withinCap h hnext)
    (fun _ _ _ h hi hno hstep => anonymous_step h hi hno hstep) (anonymous_boot hdisk) hnever

/-! A wallet chats once; the second disk leaves it ten units. -/

def spentDisk (spent : ℕ) : Disk :=
  ⟨none, some fun w => if w = "0xb0b" then some ⟨none, spent, none, false⟩ else none, none⟩

def cappedReply : List Input :=
  written (openSession ++ [.chat ⟨0, [0x68, 0x69], none⟩, .answered 2 (.ok demoAnswer)])

theorem spentDisk_anonymous {n : ℕ} (hn : n ≤ anonSpendCapBartok) :
    ∀ users u, (spentDisk n).users = some users → users "0xb0b" = some u →
      u.account = none ∧ u.spent ≤ anonSpendCapBartok := by
  rintro users u ⟨⟩ hu
  obtain rfl := Option.some.inj hu
  exact ⟨rfl, hn⟩

theorem cappedReply_never : ∀ i ∈ cappedReply, NeverRegisters "0xb0b" i := by
  simp [cappedReply, written, openSession, NeverRegisters]

theorem anon_cap_kept_demo : ∃ r : State × List Event,
    exec step (boot (spentDisk 4999900) 1 0 fun _ => .unfunded) cappedReply = some r ∧
      WithinCap "0xb0b" r.1 := by
  have hsome : (exec step (boot (spentDisk 4999900) 1 0 fun _ => .unfunded) cappedReply).isSome := by
    decide
  obtain ⟨r, hr⟩ := Option.isSome_iff_exists.mp hsome
  exact ⟨r, hr, (anon_cap_kept_iff (spentDisk_anonymous (by decide)) cappedReply_never).mpr
    (by decide) cappedReply List.prefix_rfl r hr⟩

theorem anon_cap_crossed : ¬ ∀ (inputs : List Input),
    (∀ i ∈ inputs, NeverRegisters "0xb0b" i) →
      ∀ r, exec step (boot (spentDisk 4999990) 1 0 fun _ => .unfunded) inputs = some r →
        WithinCap "0xb0b" r.1 := by
  intro h
  have hspent : ((exec step (boot (spentDisk 4999990) 1 0 fun _ => .unfunded) cappedReply).map
      fun r => r.1.spentBy "0xb0b") = some 5000032 := by decide
  obtain ⟨r, hr, heq⟩ := Option.map_eq_some_iff.mp hspent
  have hwithin := (h cappedReply cappedReply_never r hr).spent
  rw [heq] at hwithin
  exact absurd hwithin (by decide)

end Bartok.Bridge
