import Bartok.Bridge.Handlers
import Bartok.Foundation.Trace

/-!
# The bridge as a transition system

One step is one uninterrupted piece of work of the Node process: a request
arrives, or something a handler waits for comes back. Sub-processes may answer
anything and in any order; `landed` is the only part of a `settle_session` run
that the chain constrains, since a note is consumed at most once and its amount
is split exactly. Other steps belong to the environment: time passes, notes are
funded or consumed, the process is killed and started again.

A pid names one handler call. It goes up by one with each request, so no two
calls share one.
-/

namespace Bartok.Bridge

open Foundation Miden

inductive Action
  | tick (ms : ℕ)
  | fundNote (note : EscrowNote)
  | consumeNote (note : EscrowNote)
  | connect
  | start (req : State.StartRequest)
  | escrowBuilt (pid : Pid) (sid : SessionId) (params : Option EscrowParams)
  | escrow (sid : SessionId)
  | escrowVerified (pid : Pid) (committed : Bool)
  | chat (req : State.ChatRequest)
  | answered (pid : Pid) (res : Except String Answer)
  | endSession (sid : SessionId)
  | endReturned (pid : Pid) (run : SettleRun)
  | endWoken (pid : Pid)
  | sweep
  | sweepReturned (pid : Pid) (run : SettleRun)
  | joaoReturned (pid : Pid)
  | redeem (w : WalletId) (c : String)
  | funded (pid : Pid) (ok : Bool)
  | register (req : State.RegisterRequest)
  | login (w : WalletId) (password hash : String)
  | restart

/-- An action, and which stores can be written while it runs. -/
structure Input where
  act : Action
  writes : Writes

namespace State

variable (st : State)

/-- What a run that landed needs of the chain: an unspent note, split exactly. -/
def canLand (note : EscrowNote) (charge : ℕ) (run : SettleRun) : Prop :=
  ∀ l ∈ run.landed, st.chain note = .committed ∧ charge + l.refund = note.amount

instance (note : EscrowNote) (charge : ℕ) (run : SettleRun) :
    Decidable (st.canLand note charge run) :=
  inferInstanceAs (Decidable (∀ l ∈ run.landed, _))

def setChain (note : EscrowNote) (status : NoteStatus) : State :=
  { st with chain := Function.update st.chain note status }

/-- The effect of a run on the chain. -/
def land (note : EscrowNote) (run : SettleRun) : State :=
  if run.landed.isSome then st.setChain note .spent else st

/-- The object and the escrow note a settling handler of `sid` has captured. -/
def captured (sid : SessionId) : Option (Session × EscrowNote) :=
  (st.sessions.obj? sid).bind fun s => s.escrowNoteB64.map fun note => (s, note)

end State

/-- One step; `none` when nothing waits for the given answer. -/
def step (st : State) (i : Input) : Option (State × List Event) :=
  match i.act with
  | .tick ms => some ({ st with now := st.now + ms }, [])
  | .fundNote note =>
      if st.chain note = .unfunded then some (st.setChain note .committed, []) else none
  | .consumeNote note =>
      if st.chain note = .committed then some (st.setChain note .spent, []) else none
  | .connect => some (st, [.seller (.snapshot st.sellerStats)])
  | .start req => some (st.sessionStart req)
  | .escrowBuilt pid sid params =>
      match st.procs pid with
      | some (.buildEscrow w tier budget) =>
          match params with
          | none => some (st.escrowBuilt pid w tier sid none i.writes)
          | some params =>
              -- a random id is fresh, and the note carries the budget of the command line
              if st.sessions.slot? sid = none ∧ budget = some params.noteB64.amount then
                some (st.escrowBuilt pid w tier sid (some (params.noteB64.amount, params)) i.writes)
              else none
      | _ => none
  | .escrow sid => some (st.sessionEscrow sid)
  | .escrowVerified pid committed =>
      match st.procs pid with
      | some (.verifyEscrow sid) => some (st.escrowVerified pid sid committed i.writes)
      | _ => none
  | .chat req => some (st.chat req)
  | .answered pid res =>
      match st.procs pid with
      | some (.runAnswer sid prompt tier spent) =>
          some (st.chatAnswered pid sid prompt tier spent res i.writes)
      | _ => none
  | .endSession sid => some (st.sessionEnd sid)
  | .endReturned pid run =>
      match st.procs pid with
      | some (.endSettle sid charge attempt) =>
          match st.captured sid with
          | some (s, note) =>
              if st.canLand note charge run then
                some ((st.land note run).endReturned pid sid s charge attempt run i.writes)
              else none
          | none => none
      | _ => none
  | .endWoken pid =>
      match st.procs pid with
      | some (.endBackoff sid charge attempt) =>
          (st.captured sid).map fun c => st.endWoken pid sid charge attempt c.2
      | _ => none
  | .sweep => some st.sweep
  | .sweepReturned pid run =>
      match st.procs pid with
      | some (.sweepSettle sid charge cursor) =>
          match st.captured sid with
          | some (s, note) =>
              if st.canLand note charge run then
                some ((st.land note run).sweepReturned pid sid s charge cursor run i.writes)
              else none
          | none => none
      | _ => none
  | .joaoReturned pid =>
      match st.procs pid with
      | some (.joaoSweep _) => some (st.finish pid, [])
      | _ => none
  | .redeem w c => some (st.redeem w c)
  | .funded pid ok =>
      match st.procs pid with
      | some (.fundBuyer w code claimed) => some (st.funded pid w code claimed ok i.writes)
      | _ => none
  | .register req => some (st.register req i.writes)
  | .login w password hash => some (st.login w password hash)
  | .restart => some (.boot st.disk st.now st.nextPid st.chain, [])

/-! ## What a step can do

`Steps` lists the enabled actions with what they find: the handler that waits,
and for a settlement the slot and the note it has captured. -/

inductive Steps (st : State) (w : Writes) : Action → State × List Event → Prop
  | tick (ms : ℕ) : Steps st w (.tick ms) ({ st with now := st.now + ms }, [])
  | fundNote {note : EscrowNote} (h : st.chain note = .unfunded) :
      Steps st w (.fundNote note) (st.setChain note .committed, [])
  | consumeNote {note : EscrowNote} (h : st.chain note = .committed) :
      Steps st w (.consumeNote note) (st.setChain note .spent, [])
  | connect : Steps st w .connect (st, [.seller (.snapshot st.sellerStats)])
  | start (req : State.StartRequest) : Steps st w (.start req) (st.sessionStart req)
  | escrowFailed {pid : Pid} {buyerId : WalletId} {tier : String} {budget : Option ℕ}
      {sid : SessionId} (hp : st.procs pid = some (.buildEscrow buyerId tier budget)) :
      Steps st w (.escrowBuilt pid sid none) (st.escrowBuilt pid buyerId tier sid none w)
  | escrowBuilt {pid : Pid} {buyerId : WalletId} {tier : String} {sid : SessionId}
      {params : EscrowParams}
      (hp : st.procs pid = some (.buildEscrow buyerId tier (some params.noteB64.amount)))
      (hnew : st.sessions.slot? sid = none) :
      Steps st w (.escrowBuilt pid sid (some params))
        (st.escrowBuilt pid buyerId tier sid (some (params.noteB64.amount, params)) w)
  | escrow (sid : SessionId) : Steps st w (.escrow sid) (st.sessionEscrow sid)
  | escrowVerified {pid : Pid} {sid : SessionId} (committed : Bool)
      (hp : st.procs pid = some (.verifyEscrow sid)) :
      Steps st w (.escrowVerified pid committed) (st.escrowVerified pid sid committed w)
  | chat (req : State.ChatRequest) : Steps st w (.chat req) (st.chat req)
  | answered {pid : Pid} {sid : SessionId} {prompt : JsString} {tier : String} {spent : ℕ}
      (res : Except String Answer) (hp : st.procs pid = some (.runAnswer sid prompt tier spent)) :
      Steps st w (.answered pid res) (st.chatAnswered pid sid prompt tier spent res w)
  | endSession (sid : SessionId) : Steps st w (.endSession sid) (st.sessionEnd sid)
  | endReturned {pid : Pid} {sid : SessionId} {charge attempt : ℕ} {slot : Slot SessionId Session}
      {note : EscrowNote} {run : SettleRun}
      (hp : st.procs pid = some (.endSettle sid charge attempt))
      (hslot : st.sessions.slot? sid = some slot) (hnote : slot.val.escrowNoteB64 = some note)
      (hland : st.canLand note charge run) :
      Steps st w (.endReturned pid run)
        ((st.land note run).endReturned pid sid slot.val charge attempt run w)
  | endWoken {pid : Pid} {sid : SessionId} {charge attempt : ℕ} {slot : Slot SessionId Session}
      {note : EscrowNote} (hp : st.procs pid = some (.endBackoff sid charge attempt))
      (hslot : st.sessions.slot? sid = some slot) (hnote : slot.val.escrowNoteB64 = some note) :
      Steps st w (.endWoken pid) (st.endWoken pid sid charge attempt note)
  | sweep : Steps st w .sweep st.sweep
  | sweepReturned {pid : Pid} {sid : SessionId} {charge cursor : ℕ} {slot : Slot SessionId Session}
      {note : EscrowNote} {run : SettleRun}
      (hp : st.procs pid = some (.sweepSettle sid charge cursor))
      (hslot : st.sessions.slot? sid = some slot) (hnote : slot.val.escrowNoteB64 = some note)
      (hland : st.canLand note charge run) :
      Steps st w (.sweepReturned pid run)
        ((st.land note run).sweepReturned pid sid slot.val charge cursor run w)
  | joaoReturned {pid : Pid} {file : NoteFile} (hp : st.procs pid = some (.joaoSweep file)) :
      Steps st w (.joaoReturned pid) (st.finish pid, [])
  | redeem (u : WalletId) (c : String) : Steps st w (.redeem u c) (st.redeem u c)
  | funded {pid : Pid} {u : WalletId} {code : Code} {claimed : ℕ} (ok : Bool)
      (hp : st.procs pid = some (.fundBuyer u code claimed)) :
      Steps st w (.funded pid ok) (st.funded pid u code claimed ok w)
  | register (req : State.RegisterRequest) : Steps st w (.register req) (st.register req w)
  | login (u : WalletId) (password hash : String) :
      Steps st w (.login u password hash) (st.login u password hash)
  | restart : Steps st w .restart (.boot st.disk st.now st.nextPid st.chain, [])

theorem captured_eq_some {st : State} {sid : SessionId} {s : Session} {note : EscrowNote}
    (h : st.captured sid = some (s, note)) :
    ∃ slot, st.sessions.slot? sid = some slot ∧ slot.val = s ∧
      slot.val.escrowNoteB64 = some note := by
  obtain ⟨s', hs, hmap⟩ := Option.bind_eq_some_iff.mp h
  obtain ⟨note', hnote, heq⟩ := Option.map_eq_some_iff.mp hmap
  obtain ⟨rfl, rfl⟩ := Prod.mk.inj heq
  obtain ⟨slot, hslot, rfl⟩ := Option.map_eq_some_iff.mp hs
  exact ⟨slot, hslot, rfl, hnote⟩

theorem steps_of_step {st : State} {i : Input} {r : State × List Event} (h : step st i = some r) :
    Steps st i.writes i.act r := by
  obtain ⟨act, w⟩ := i
  cases act with
  | fundNote note =>
      simp only [step, Option.ite_none_right_eq_some, Option.some.injEq] at h
      obtain ⟨hchain, rfl⟩ := h
      exact .fundNote hchain
  | consumeNote note =>
      simp only [step, Option.ite_none_right_eq_some, Option.some.injEq] at h
      obtain ⟨hchain, rfl⟩ := h
      exact .consumeNote hchain
  | escrowBuilt pid sid params =>
      simp only [step] at h
      split at h
      · next hp =>
          cases params with
          | none =>
              obtain rfl := Option.some.inj h
              exact .escrowFailed hp
          | some params =>
              simp only [Option.ite_none_right_eq_some, Option.some.injEq] at h
              obtain ⟨⟨hnew, rfl⟩, rfl⟩ := h
              exact .escrowBuilt hp hnew
      · cases h
  | escrowVerified pid committed =>
      simp only [step] at h
      split at h
      · next hp =>
          obtain rfl := Option.some.inj h
          exact .escrowVerified committed hp
      · cases h
  | answered pid res =>
      simp only [step] at h
      split at h
      · next hp =>
          obtain rfl := Option.some.inj h
          exact .answered res hp
      · cases h
  | endReturned pid run =>
      simp only [step] at h
      split at h
      · next hp =>
          split at h
          · next hc =>
              simp only [Option.ite_none_right_eq_some, Option.some.injEq] at h
              obtain ⟨hland, rfl⟩ := h
              obtain ⟨slot, hslot, rfl, hnote⟩ := captured_eq_some hc
              exact .endReturned hp hslot hnote hland
          · cases h
      · cases h
  | endWoken pid =>
      simp only [step] at h
      split at h
      · next hp =>
          obtain ⟨c, hc, rfl⟩ := Option.map_eq_some_iff.mp h
          obtain ⟨slot, hslot, -, hnote⟩ := captured_eq_some hc
          exact .endWoken hp hslot hnote
      · cases h
  | sweepReturned pid run =>
      simp only [step] at h
      split at h
      · next hp =>
          split at h
          · next hc =>
              simp only [Option.ite_none_right_eq_some, Option.some.injEq] at h
              obtain ⟨hland, rfl⟩ := h
              obtain ⟨slot, hslot, rfl, hnote⟩ := captured_eq_some hc
              exact .sweepReturned hp hslot hnote hland
          · cases h
      · cases h
  | joaoReturned pid =>
      simp only [step] at h
      split at h
      · next hp =>
          obtain rfl := Option.some.inj h
          exact .joaoReturned hp
      · cases h
  | funded pid ok =>
      simp only [step] at h
      split at h
      · next hp =>
          obtain rfl := Option.some.inj h
          exact .funded ok hp
      · cases h
  | tick ms => exact Option.some.inj h ▸ .tick ms
  | connect => exact Option.some.inj h ▸ .connect
  | start req => exact Option.some.inj h ▸ .start req
  | escrow sid => exact Option.some.inj h ▸ .escrow sid
  | chat req => exact Option.some.inj h ▸ .chat req
  | endSession sid => exact Option.some.inj h ▸ .endSession sid
  | sweep => exact Option.some.inj h ▸ .sweep
  | redeem u c => exact Option.some.inj h ▸ .redeem u c
  | register req => exact Option.some.inj h ▸ .register req
  | login u password hash => exact Option.some.inj h ▸ .login u password hash
  | restart => exact Option.some.inj h ▸ .restart

/-! ## Which steps a run may take -/

/-- The steps of one process, with no restart in between. -/
def OneProcess (_ : State) (i : Input) : Prop :=
  match i.act with
  | .restart => False
  | _ => True

instance (st : State) (i : Input) : Decidable (OneProcess st i) := by
  unfold OneProcess
  split <;> infer_instance

theorem oneProcess_iff {st : State} {i : Input} : OneProcess st i ↔ i.act ≠ .restart := by
  unfold OneProcess
  split <;> simp_all

/-- Any step, with any writes. -/
def AnyStep (_ : State) (_ : Input) : Prop := True

instance (st : State) (i : Input) : Decidable (AnyStep st i) := inferInstanceAs (Decidable True)

/-- The wallet that a request names. -/
def Action.wallet : Action → Option WalletId
  | .start req => some req.buyerId
  | .register req => some req.buyerId
  | .redeem w _ | .login w _ _ => some w
  | _ => none

/-- The wallets that are named are account ids, and not members of `Object.prototype`, for
which `users[name]` finds what no request has put there. -/
def ByAccounts (_ : State) (i : Input) : Prop := ∀ w ∈ i.act.wallet, w ∉ objectPrototypeKeys

instance (st : State) (i : Input) : Decidable (ByAccounts st i) :=
  inferInstanceAs (Decidable (∀ w ∈ _, _))

/-- The steps of one process with every write to a store succeeding. -/
def AllWritten (st : State) (i : Input) : Prop := OneProcess st i ∧ i.writes = .ok

instance (st : State) (i : Input) : Decidable (AllWritten st i) :=
  inferInstanceAs (Decidable (_ ∧ _))

end Bartok.Bridge
