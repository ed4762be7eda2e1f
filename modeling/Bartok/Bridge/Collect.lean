import Bartok.Bridge.Chain
import Bartok.Bridge.Gate
import Bartok.Bridge.Hold
import Bartok.Miden.VerifyEscrow

/-!
# What the bridge has charged can be collected

The bridge and the three binaries it runs on an escrow, put together. `build_escrow`
prints the note when the session opens, `verify_escrow` looks for it on chain before the
session is armed, and `settle_session` divides it at the end. In between the bridge keeps
the note, its serial numbers and the buyer, over restarts too, and charges what the hold
covers. So as long as nobody has spent the note, the session can be settled for what it
owes, and a settlement that starts goes through to the payments on chain.
-/

namespace Bartok.Bridge

open Foundation Miden State

/-- What comes back from the binaries is what they compute: `build_escrow` from the buyer
and the budget it was run with, `verify_escrow` from the note of the session. An attempt
that saw the note committed saw it on chain. -/
def Faithful (lib : MidenCrates) (accounts : AccountsJson) (st : State) (i : Input) : Prop :=
  match i.act with
  | .escrowBuilt pid _ (some params) => ∀ buyerId tier budget,
      st.procs pid = some (.buildEscrow buyerId tier (some budget)) →
        lib.Prints accounts buyerId.toList budget params.sellerSerial params.buyerSerial
          params.noteB64
  | .escrowVerified pid true => ∀ sid t, st.procs pid = some (.verifyEscrow sid) →
      st.terms sid = some t → ∃ path imported polls json,
        (∀ n, polls n = true → st.chain t.params.noteB64 ≠ .unfunded) ∧
        lib.verifyEscrow accounts (verifyArgv path (lib.encodeNote t.params.noteB64)) imported
          polls = .ok json ∧ json.committed = true
  | _ => True

/-- The escrow of a session: printed for its buyer and its budget, and on chain once the
session is armed. -/
structure Backed (lib : MidenCrates) (accounts : AccountsJson) (chain : EscrowNote → NoteStatus)
    (t : Terms) : Prop where
  printed : lib.Prints accounts t.buyerId.toList t.budget t.params.sellerSerial
    t.params.buyerSerial t.params.noteB64
  funded : t.escrowNoteB64 ≠ none → chain t.params.noteB64 ≠ .unfunded

structure AllBacked (lib : MidenCrates) (accounts : AccountsJson) (st : State) : Prop where
  sessions : ∀ sid t, st.terms sid = some t → Backed lib accounts st.chain t
  saved : ∀ sid t, st.savedTerms sid = some t → Backed lib accounts st.chain t
  /-- A message is answered in an armed session. -/
  serving : ∀ pid sid prompt tier spent, st.procs pid = some (.runAnswer sid prompt tier spent) →
    ∃ t, st.terms sid = some t ∧ t.escrowNoteB64 ≠ none
  /-- A session whose escrow is being looked for stays known. -/
  verifying : ∀ pid sid, st.procs pid = some (.verifyEscrow sid) → ∃ t, st.terms sid = some t

/-! ## Every session is backed -/

section Invariant

variable {lib : MidenCrates} {accounts : AccountsJson} {st st' : State} {sid : SessionId}
  {pid : Pid} {p : Proc} {w : Writes} {t : Terms} {chain chain' : EscrowNote → NoteStatus}

theorem Backed.later (h : Backed lib accounts chain t) (hchain : Onward chain chain') :
    Backed lib accounts chain' t :=
  ⟨h.printed, fun harmed => hchain.lasts (h.funded harmed)⟩

theorem AllBacked.keep (h : AllBacked lib accounts st) (hk : Keeps st st')
    (hchain : Onward st.chain st'.chain) : AllBacked lib accounts st' := by
  constructor
  · intro sid t ht
    rw [hk.terms] at ht
    exact (h.sessions sid t ht).later hchain
  · intro sid t ht
    rcases hk.saved sid t ht with hsaved | hterms
    · exact (h.saved sid t hsaved).later hchain
    · exact (h.sessions sid t hterms).later hchain
  · intro pid sid prompt tier spent hp
    rw [hk.terms]
    exact h.serving pid sid prompt tier spent (hk.procs pid _ hp rfl)
  · intro pid sid hp
    rw [hk.terms]
    exact h.verifying pid sid (hk.procs pid _ hp rfl)

theorem AllBacked.spawn (h : AllBacked lib accounts st)
    (hserving : ∀ sid prompt tier spent, p = .runAnswer sid prompt tier spent →
      ∃ t, st.terms sid = some t ∧ t.escrowNoteB64 ≠ none)
    (hverifying : ∀ sid, p = .verifyEscrow sid → ∃ t, st.terms sid = some t) :
    AllBacked lib accounts (st.spawn pid p) := by
  refine ⟨h.sessions, h.saved, ?_, ?_⟩
  · intro q sid prompt tier spent hq
    rcases procs_spawn hq with ⟨-, heq⟩ | hq
    · exact hserving sid prompt tier spent heq.symm
    · exact h.serving q sid prompt tier spent hq
  · intro q sid hq
    rcases procs_spawn hq with ⟨-, heq⟩ | hq
    · exact hverifying sid heq.symm
    · exact h.verifying q sid hq

theorem AllBacked.arrive (h : AllBacked lib accounts st) : AllBacked lib accounts st.arrive :=
  h.keep Keeps.refl.arrive (onward_of_eq rfl)

theorem AllBacked.finish (h : AllBacked lib accounts st) :
    AllBacked lib accounts (st.finish pid) :=
  h.keep Keeps.refl.finish (onward_of_eq rfl)

theorem AllBacked.persistSessions (h : AllBacked lib accounts st) {ok : Bool} :
    AllBacked lib accounts (st.persistSessions ok) :=
  h.keep Keeps.refl.persistSessions (onward_of_eq chain_persistSessions)

theorem backed_sessionStart (h : AllBacked lib accounts st) (req : StartRequest) :
    AllBacked lib accounts (st.sessionStart req).1 := by
  rcases sessionStart_cases st req with heq | ⟨budget, heq, -⟩
  · rw [heq]
    exact h.arrive
  · rw [heq]
    apply h.arrive.spawn
    · intro sid prompt tier spent heq
      cases heq
    · intro sid heq
      cases heq

/-- The session that opens has the note that was printed for it. -/
theorem backed_escrowBuilt (h : AllBacked lib accounts st) {buyerId : WalletId} {tier : String}
    {params : EscrowParams}
    (hprints : lib.Prints accounts buyerId.toList params.noteB64.amount params.sellerSerial
      params.buyerSerial params.noteB64)
    (hnew : st.sessions.slot? sid = none) :
    AllBacked lib accounts
      (st.escrowBuilt pid buyerId tier sid (some (params.noteB64.amount, params)) w).1 := by
  have hterms : ∀ sid', ((st.finish pid).insert sid (newSession buyerId tier
      params.noteB64.amount params (st.finish pid).now)).terms sid' = if sid' = sid then
        some (newSession buyerId tier params.noteB64.amount params (st.finish pid).now).terms
      else st.terms sid' := terms_insert hnew
  have hother : ∀ sid' t, st.terms sid' = some t → sid' ≠ sid := by
    rintro sid' t ht rfl
    simp [State.terms, SlotMap.obj?, hnew] at ht
  apply AllBacked.persistSessions
  constructor
  · intro sid' t ht
    rw [hterms] at ht
    split at ht
    · obtain rfl := Option.some.inj ht
      exact ⟨hprints, fun harmed => absurd rfl harmed⟩
    · exact h.sessions sid' t ht
  · exact h.saved
  · intro q sid' prompt tier' spent hq
    obtain ⟨t, ht, harmed⟩ := h.finish.serving q sid' prompt tier' spent hq
    refine ⟨t, ?_, harmed⟩
    rw [hterms, if_neg (hother sid' t ht)]
    exact ht
  · intro q sid' hq
    obtain ⟨t, ht⟩ := h.finish.verifying q sid' hq
    refine ⟨t, ?_⟩
    rw [hterms, if_neg (hother sid' t ht)]
    exact ht

theorem backed_sessionEscrow (h : AllBacked lib accounts st) :
    AllBacked lib accounts (st.sessionEscrow sid).1 := by
  unfold sessionEscrow
  dsimp only
  split
  · exact h.arrive
  · next s hget =>
      apply h.arrive.spawn
      · intro sid' prompt tier spent heq
        cases heq
      · intro sid' heq
        obtain rfl := Proc.verifyEscrow.inj heq
        exact ⟨s.terms, terms_of_get? hget⟩

/-- A session is armed when its note is on chain. -/
theorem backed_escrowVerified (h : AllBacked lib accounts st)
    (hfunded : ∀ t, st.terms sid = some t → st.chain t.params.noteB64 ≠ .unfunded) :
    AllBacked lib accounts (st.escrowVerified pid sid true w).1 := by
  have hterms : ∀ sid', ((st.finish pid).modify sid (arm (st.finish pid).now)).terms sid' =
      if sid' = sid then
        (st.terms sid).map fun t => { t with escrowNoteB64 := some t.params.noteB64 }
      else st.terms sid' := terms_modify fun _ => rfl
  apply AllBacked.persistSessions
  constructor
  · intro sid' t ht
    rw [hterms] at ht
    split at ht
    · obtain ⟨t₀, ht₀, rfl⟩ := Option.map_eq_some_iff.mp ht
      exact ⟨(h.sessions sid t₀ ht₀).printed, fun _ => hfunded t₀ ht₀⟩
    · exact h.sessions sid' t ht
  · exact h.saved
  · intro q sid' prompt tier spent hq
    obtain ⟨t, ht, harmed⟩ := h.finish.serving q sid' prompt tier spent hq
    rw [hterms]
    split
    · next heq =>
        subst heq
        exact ⟨_, congrArg (Option.map _) ht, nofun⟩
    · exact ⟨t, ht, harmed⟩
  · intro q sid' hq
    obtain ⟨t, ht⟩ := h.finish.verifying q sid' hq
    rw [hterms]
    split
    · next heq =>
        subst heq
        exact ⟨_, congrArg (Option.map _) ht⟩
    · exact ⟨t, ht⟩

theorem backed_chat (h : AllBacked lib accounts st) (req : ChatRequest) :
    AllBacked lib accounts (st.chat req).1 := by
  unfold State.chat
  dsimp only
  split
  · exact h.arrive
  · next s hgate =>
      split
      · obtain ⟨hget, harmed, -⟩ := chatGate_ok hgate
        have hspawn : AllBacked lib accounts (st.arrive.spawn st.nextPid
            (.runAnswer req.sessionId req.prompt (req.msgTier s) s.totalCharge)) := by
          apply h.arrive.spawn
          · intro sid prompt tier spent heq
            obtain ⟨rfl, -⟩ := Proc.runAnswer.inj heq
            exact ⟨s.terms, terms_of_get? hget, harmed⟩
          · intro sid heq
            cases heq
        exact hspawn.keep (Keeps.refl.setBusy.modify keepsTerms_openHistory) (onward_of_eq rfl)
      · exact h.arrive

/-- A restart takes in what was saved. -/
theorem backed_restart (h : AllBacked lib accounts st) :
    AllBacked lib accounts (boot st.disk st.now st.nextPid st.chain) :=
  ⟨fun sid t ht => h.saved sid t (savedTerms_of_boot ht), h.saved, by simp [boot], by simp [boot]⟩

theorem backed_step (h : AllBacked lib accounts st) {i : Input} {r : State × List Event}
    (hok : Faithful lib accounts st i) (hi : step st i = some r) : AllBacked lib accounts r.1 := by
  obtain ⟨act, w⟩ := i
  have hchain : Onward st.chain r.1.chain := onward_step hi
  by_cases hgates : act.gates = false
  · exact h.keep (keeps_step hgates hi) hchain
  · cases steps_of_step hi with
    | start req => exact backed_sessionStart h req
    | escrow sid => exact backed_sessionEscrow h
    | escrowBuilt hp hnew => exact backed_escrowBuilt h (hok _ _ _ hp) hnew
    | @escrowVerified pid sid committed hp =>
        cases committed with
        | false => exact absurd rfl hgates
        | true =>
            apply backed_escrowVerified h
            intro t ht
            obtain ⟨path, imported, polls, json, hpolls, hjson, hflag⟩ := hok sid t hp ht
            obtain ⟨n, hn⟩ := MidenCrates.committed_of_verifyEscrow hjson hflag
            exact hpolls n hn
    | chat req => exact backed_chat h req
    | restart => exact backed_restart h
    | _ => exact absurd rfl hgates

end Invariant

/-! ## What a settlement or a reply charges -/

/-- What the step charges its session with, as the bridge runs `settle_session` or tells the
buyer. -/
def Event.charged : Event → Option (SessionId × ℕ)
  | .settleStart _ sid charge _ => some (sid, charge)
  | .done _ (.reply sid _ total _) => some (sid, total)
  | _ => none

/-- An armed session, and a charge within its hold. -/
def State.Covers (st : State) (sid : SessionId) (charge : ℕ) : Prop :=
  ∃ t, st.terms sid = some t ∧ t.escrowNoteB64 ≠ none ∧ charge ≤ t.budget

section Charges

variable {st : State} {sid : SessionId} {pid : Pid} {w : Writes} {e : Event} {charge cursor : ℕ}

theorem Sound.covers {slot : Slot SessionId Session} (hslot : st.sessions.slot? sid = some slot)
    (h : Sound slot.val) (harmed : slot.val.escrowNoteB64 ≠ none) :
    st.Covers sid slot.val.totalCharge := by
  refine ⟨slot.val.terms, ?_, harmed, h.charges⟩
  rw [State.terms, SlotMap.obj?, hslot]
  rfl

theorem covers_sessionEnd (h : Solvent st) :
    ∀ e ∈ (st.sessionEnd sid).2, ∀ x ∈ e.charged, st.Covers x.1 x.2 := by
  unfold sessionEnd
  dsimp only
  split
  · simp [Event.charged]
  · next s hget =>
      obtain ⟨slot, hslot, -, rfl⟩ := SlotMap.get?_eq_some.mp hget
      split
      · simp [Event.charged]
      · next note hnote =>
          split
          · simp [Event.charged]
          · split
            · simp [Event.charged]
            · have harmed : slot.val.escrowNoteB64 ≠ none := by simp [hnote]
              have hcovers : st.Covers sid slot.val.totalCharge :=
                (h.sessions sid slot hslot).covers hslot harmed
              simpa [Event.charged] using hcovers

theorem covers_sweepFrom (h : Solvent st) :
    ∀ e ∈ (st.sweepFrom pid cursor).2, ∀ x ∈ e.charged, st.Covers x.1 x.2 := by
  unfold sweepFrom
  split
  · simp
  · next slot i hnext =>
      have hslot := (SlotMap.next?_some hnext).2.1
      split
      · simp
      · next note hnote =>
          have harmed : slot.val.escrowNoteB64 ≠ none := by simp [hnote]
          have hcovers := (h.sessions _ slot hslot).covers hslot harmed
          simpa [Event.charged] using hcovers

theorem charged_kind {x : SessionId × ℕ} (hx : x ∈ e.charged) :
    e.kind = .settleStart ∨ e.isReply = true := by
  unfold Event.charged at hx
  split at hx
  · exact .inl rfl
  · exact .inr rfl
  · cases hx

theorem covers_step {lib : MidenCrates} {accounts : AccountsJson} (h : Solvent st)
    (hb : AllBacked lib accounts st) {i : Input} {r : State × List Event}
    (hi : step st i = some r) (he : e ∈ r.2) {x : SessionId × ℕ} (hx : x ∈ e.charged) :
    st.Covers x.1 x.2 := by
  rcases charged_kind hx with hstart | hreply
  · obtain ⟨act, w⟩ := i
    have hkinds : EventKind.settleStart ∈ act.kinds := by
      rcases kind_step hi e he with hplain | hmem
      · cases hplain.symm.trans hstart
      · rwa [hstart] at hmem
    cases steps_of_step hi with
    | endSession sid =>
        have hcovers : ∀ e ∈ (st.sessionEnd sid).2, ∀ x ∈ e.charged, st.Covers x.1 x.2 :=
          covers_sessionEnd h
        exact hcovers e he x hx
    | @endWoken pid sid charge attempt slot note hp hslot hnote =>
        obtain ⟨slot', hslot', hle⟩ := h.covered _ _ hp
        obtain rfl : slot = slot' := Option.some.inj (hslot.symm.trans hslot')
        rw [List.mem_singleton.mp he] at hx
        obtain rfl := Option.some.inj hx
        refine ⟨slot.val.terms, ?_, by simp [Session.terms, hnote], hle⟩
        rw [State.terms, SlotMap.obj?, hslot]
        rfl
    | sweep => exact covers_sweepFrom h.arrive e he x hx
    | sweepReturned hp hslot hnote hland =>
        rcases List.mem_append.mp he with he | he
        · rcases List.mem_cons.mp he with rfl | he
          · cases hx
          · rcases (handled_sweepSettled : Handled _ none _ _).kinds e he with hplain | hmem
            · cases hplain.symm.trans hstart
            · cases (List.mem_singleton.mp hmem).symm.trans hstart
        · obtain ⟨t, ht, harmed, hle⟩ :=
            covers_sweepFrom (solvent_sweepSettled h.land) e he x hx
          refine ⟨t, ?_, harmed, hle⟩
          rw [← ht, (Keeps.refl.land.trans keeps_sweepSettled).terms]
    | _ => simp [Action.kinds] at hkinds
  · obtain ⟨pid, sid, prompt, tier, spent, a, -, hp, he⟩ := reply_of_step hi he hreply
    obtain ⟨slot, hslot, -, hfits, rfl⟩ := reply_delivered he hreply
    obtain rfl := Option.some.inj hx
    obtain ⟨t, ht, harmed⟩ := hb.serving pid sid prompt tier spent hp
    refine ⟨t, ht, harmed, ?_⟩
    rw [State.terms, SlotMap.obj?, hslot] at ht
    obtain rfl := Option.some.inj ht
    exact hfits

end Charges

/-! ## Runs -/

/-- The session can be settled for this charge: its note is on chain and unspent, carries
the hold, and pays the charge to the seller and the rest of the hold back to the buyer. -/
def Collectible (lib : MidenCrates) (accounts : AccountsJson) (st : State) (sid : SessionId)
    (charge : ℕ) : Prop :=
  ∃ t, st.terms sid = some t ∧ t.escrowNoteB64 = some t.params.noteB64 ∧
    t.params.noteB64.amount = t.budget ∧ st.chain t.params.noteB64 = .committed ∧
    lib.Pays accounts t.buyerId.toList t.params.sellerSerial t.params.buyerSerial t.params.noteB64
      charge

/-- The escrow of the session was on chain and has been spent since. -/
def State.EscrowSpent (st : State) (sid : SessionId) : Prop :=
  ∃ t, st.terms sid = some t ∧ st.chain t.params.noteB64 = .spent

section Runs

variable {lib : MidenCrates} {accounts : AccountsJson} {disk : Disk} {now : ℕ} {nextPid : Pid}
  {chain : EscrowNote → NoteStatus} {st : State} {tr : List Event} {sid : SessionId} {charge : ℕ}

theorem collectible (hs : Solvent st) (hb : AllBacked lib accounts st)
    (hgrpc : accounts.guardianGrpc.isSome = true) (hspent : ¬ st.EscrowSpent sid)
    (h : st.Covers sid charge) : Collectible lib accounts st sid charge := by
  obtain ⟨t, ht, harmed, hle⟩ := h
  obtain ⟨hprinted, hfunded⟩ := hb.sessions sid t ht
  obtain ⟨note, hnote⟩ := Option.ne_none_iff_exists'.mp harmed
  have hcommitted : st.chain t.params.noteB64 = .committed := by
    cases hstatus : st.chain t.params.noteB64 with
    | unfunded => exact absurd hstatus (hfunded harmed)
    | committed => rfl
    | spent => exact absurd ⟨t, ht, hstatus⟩ hspent
  refine ⟨t, ht, ?_, hprinted.amount, hcommitted, hprinted.pays hgrpc hle⟩
  obtain ⟨s, hobj, rfl⟩ := Option.map_eq_some_iff.mp ht
  obtain ⟨slot, hslot, rfl⟩ := obj?_eq_some hobj
  rw [hnote, (hs.sessions sid slot hslot).escrow note hnote]
  rfl

/-- **Every charge can be collected.** From a first start, through any steps, restarts and
failed writes: an armed session whose escrow is not spent can be settled for what it owes,
and for anything up to its hold. `verify_escrow` reports the hold of a session, and confirms
it when one of forty attempts saw it. While the escrow is unspent, each reply brings its
session to a total that can be collected, and each `settle_session` call that starts is
accepted and pays. -/
theorem every_charge_collectible (hgrpc : accounts.guardianGrpc.isSome = true)
    (hdisk : disk.sessions = none)
    (h : Trace (lts step (Faithful lib accounts)) (boot disk now nextPid chain) tr st) :
    (∀ sid s, st.sessions.obj? sid = some s → s.escrowNoteB64 ≠ none →
        s.totalCharge ≤ s.budget ∧ (st.EscrowSpent sid ∨
          ∀ charge ≤ s.budget, Collectible lib accounts st sid charge)) ∧
      (∀ sid s, st.sessions.obj? sid = some s → ∀ path polls,
        lib.verifyEscrow accounts (verifyArgv path (lib.encodeNote s.params.noteB64)) (.ok ())
          polls = .ok ⟨(List.range 40).any polls, s.budget⟩) ∧
      ∀ i r, Faithful lib accounts st i → step st i = some r → ∀ e ∈ r.2, ∀ x ∈ e.charged,
        st.EscrowSpent x.1 ∨ Collectible lib accounts st x.1 x.2 := by
  have hboot : AllBacked lib accounts (boot disk now nextPid chain) := by
    refine ⟨fun sid t ht => ?_, fun sid t ht => ?_, by simp [boot], by simp [boot]⟩
    · simp [State.terms, boot, restoreSessions, hdisk, SlotMap.obj?, SlotMap.slot?,
        SlotMap.empty] at ht
    · simp [State.savedTerms, boot, hdisk] at ht
  have hrun : Solvent st ∧ AllBacked lib accounts st := by
    refine h.stateInvariant (I := fun st => Solvent st ∧ AllBacked lib accounts st)
      ⟨solvent_boot (by simp [hdisk]), hboot⟩ ?_
    rintro st es st' ⟨hs, hb⟩ ⟨i, hok, hi⟩
    exact ⟨solvent_step hs hi, backed_step hb hok hi⟩
  obtain ⟨hs, hb⟩ := hrun
  refine ⟨?_, ?_, ?_⟩
  · intro sid s hobj harmed
    obtain ⟨slot, hslot, rfl⟩ := obj?_eq_some hobj
    refine ⟨(hs.sessions sid slot hslot).charges, or_iff_not_imp_left.mpr ?_⟩
    intro hspent charge hle
    exact collectible hs hb hgrpc hspent
      ⟨slot.val.terms, congrArg (Option.map _) hobj, harmed, hle⟩
  · intro sid s hobj path polls
    exact (hb.sessions sid s.terms (congrArg (Option.map _) hobj)).printed.verifyEscrow
  · intro i r hok hi e he x hx
    apply or_iff_not_imp_left.mpr
    intro hspent
    exact collectible hs hb hgrpc hspent (covers_step hs hb hi he hx)

end Runs

/-! A session is opened on an escrow of 50000, and a message is answered for 42. -/

def bobNote : EscrowNote :=
  MidenCrates.escrowNote MidenCrates.demoCrates MidenCrates.demoSeller MidenCrates.demoBuyerId
    MidenCrates.demoFaucet MidenCrates.demoOperator (fun _ => 1) (fun _ => 2) (fun _ => 3) 50000

def bobParams : EscrowParams := ⟨fun _ => 1, fun _ => 2, bobNote⟩

theorem bob_printed : MidenCrates.demoCrates.Prints MidenCrates.demoAccounts
    MidenCrates.demoBuyer.toList 50000 (fun _ => 1) (fun _ => 2) bobNote := by
  obtain ⟨json, hbuild, hnote⟩ := MidenCrates.demo_builds "bin/build_escrow".toList fun _ => 3
  refine ⟨_, _, json, hbuild, ?_⟩
  rw [hnote]
  exact MidenCrates.demoDecode_demoEncode bobNote

/-- The actions that bring no result of `build_escrow` or `verify_escrow`. -/
def Action.unverified : Action → Bool
  | .escrowBuilt _ _ (some _) | .escrowVerified _ true => false
  | _ => true

theorem faithful_of_unverified {lib : MidenCrates} {accounts : AccountsJson} {st : State}
    {i : Input} (h : i.act.unverified = true) : Faithful lib accounts st i := by
  unfold Faithful
  split
  · next heq => simp [heq, Action.unverified] at h
  · next heq => simp [heq, Action.unverified] at h
  · trivial

theorem faithful_run (lib : MidenCrates) (accounts : AccountsJson) (st : State) (acts : List Action)
    (hacts : ∀ act ∈ acts, act.unverified = true) (h : (exec step st (written acts)).isSome) :
    Trace (lts step (Faithful lib accounts)) st ((exec step st (written acts)).get h).2
      ((exec step st (written acts)).get h).1 := by
  have hok : ∀ (acts : List Action) (st : State), (∀ act ∈ acts, act.unverified = true) →
      okAlong step (Faithful lib accounts) st (written acts) := by
    intro acts
    induction acts with
    | nil => exact fun _ _ => trivial
    | cons act acts ih =>
        intro st hacts
        refine ⟨faithful_of_unverified (hacts act List.mem_cons_self), ?_⟩
        split
        · trivial
        · exact ih _ fun act' h' => hacts act' (List.mem_cons_of_mem _ h')
  exact trace_exec step _ st _ (hok acts st hacts) h

def bobAsked : State := (demoBoot.sessionStart ⟨MidenCrates.demoBuyer, "basic", .finite 60000 0⟩).1

def bobOpened : State :=
  (bobAsked.escrowBuilt 0 MidenCrates.demoBuyer "basic" 0 (some (50000, bobParams)) .ok).1

def bobFunded : State := ((bobOpened.setChain bobNote .committed).sessionEscrow 0).1

def bobArmed : State := (bobFunded.escrowVerified 1 0 true .ok).1

theorem every_charge_collectible_demo : ∃ st : State,
    (st.sessions.obj? 0).map Session.totalCharge = some 42 ∧
      Collectible MidenCrates.demoCrates MidenCrates.demoAccounts st 0 42 := by
  have hasked := faithful_run MidenCrates.demoCrates MidenCrates.demoAccounts demoBoot
    [.start ⟨MidenCrates.demoBuyer, "basic", .finite 60000 0⟩] (by decide) (by decide)
  have hbuilt : Faithful MidenCrates.demoCrates MidenCrates.demoAccounts bobAsked
      ⟨.escrowBuilt 0 0 (some bobParams), .ok⟩ := by
    intro buyerId tier budget hp
    cases hp
    exact bob_printed
  have hopened : step bobAsked ⟨.escrowBuilt 0 0 (some bobParams), .ok⟩ =
      some (bobOpened, [.done 0 (.sessionStarted 0 50000)]) := rfl
  have hopen := hasked.tail ⟨_, hbuilt, hopened⟩
  have hfund := hopen.trans (faithful_run _ _ bobOpened [.fundNote bobNote, .escrow 0] (by decide)
    (by decide))
  have hverified : Faithful MidenCrates.demoCrates MidenCrates.demoAccounts bobFunded
      ⟨.escrowVerified 1 true, .ok⟩ := by
    intro sid t hp ht
    cases hp
    cases ht
    exact ⟨"bin/verify_escrow".toList, .ok (), fun _ => true, _, fun _ _ => by decide,
      bob_printed.verifyEscrow, by decide⟩
  have harmed : step bobFunded ⟨.escrowVerified 1 true, .ok⟩ =
      some (bobArmed, [.done 1 (.escrowConfirmed 0 50000)]) := rfl
  have harm := hfund.tail ⟨_, hverified, harmed⟩
  have hserved := harm.trans (faithful_run _ _ bobArmed [.chat ⟨0, [0x68, 0x69], none⟩,
    .answered 2 (.ok demoAnswer)] (by decide) (by decide))
  have hall := every_charge_collectible rfl rfl hserved
  have hsession : ∃ s, (exec step bobArmed (written [.chat ⟨0, [0x68, 0x69], none⟩,
      .answered 2 (.ok demoAnswer)])).bind (fun r => r.1.sessions.obj? 0) = some s ∧
      s.escrowNoteB64 ≠ none ∧ s.totalCharge = 42 ∧ 42 ≤ s.budget ∧ s.params.noteB64 = bobNote :=
    ⟨_, rfl, by decide, by decide, by decide, rfl⟩
  obtain ⟨s, hobj, harmed, hcharge, hle, hnote⟩ := hsession
  refine ⟨_, (congrArg (Option.map Session.totalCharge) hobj).trans (congrArg some hcharge), ?_⟩
  -- nobody has spent the note in this run
  rcases (hall.1 0 s hobj harmed).2 with ⟨t, ht, hspent⟩ | hcollect
  · obtain rfl : s.terms = t :=
      Option.some.inj ((congrArg (Option.map Session.terms) hobj).symm.trans ht)
    rw [show s.terms.params.noteB64 = bobNote from hnote] at hspent
    cases hspent
  · exact hcollect 42 hle

end Bartok.Bridge
