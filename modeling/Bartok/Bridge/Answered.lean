import Bartok.Bridge.Hold
import Bartok.Bridge.Requests

/-!
# Requests and answers

A request is a handler call: it is answered when its response has been ended, and it
waits while the call is suspended. An exception that no `catch` meets ends the call
without an answer. `State.escapes` says of each step whether that happens, by the body
it brings and the stores it can write, and it is the only way to lose a request.
-/

namespace Bartok.Bridge

open Foundation Miden Json State

/-! ## Exceptions that escape -/

namespace State

variable (rt : Runtime) (st : State)

/-- The hold of `/api/session/start` asks for a balance that is a number, and for a buyer
that is text when the balance is enough. -/
def holdEscapes (wallet : Option WalletId) (tier : String) (balance : Option JsNumber) : Bool :=
  match balance with
  | none => true
  | some b =>
      wallet.isNone &&
        match tierEntry tier with
        | .own t => !belowMinHold t b.units
        | _ => true

def startEscapes (body : Json) : Bool :=
  let wallet := (field "buyerId" body).bind rt.key
  !falsy (field "buyerId" body) &&
    match tierOf rt body with
    | none => true
    | some tier =>
        tierEntry tier ≠ .missing &&
          if (tierEntry tier).requiresAccount then
            match wallet with
            | none => true
            | some w =>
                if st.hasAccount w then holdEscapes wallet tier (balanceOf rt body)
                else !rt.stringifies (tierSent body)
          else holdEscapes wallet tier (balanceOf rt body)

/-- A code that is no string, or a buyer that is no key. -/
def redeemEscapes (body : Json) : Bool :=
  !falsy (field "buyerId" body) &&
    match codeOf (field "code" body) with
    | none => true
    | some c => parseCode c ≠ none && ((field "buyerId" body).bind rt.key).isNone

/-- The records cannot be saved, or the answer cannot be printed with the name in it. -/
def registerTellEscapes (req : RegisterRequest) (wr : Writes) : Bool :=
  !(rt.saves st ⟨.register req, wr⟩).users || !rt.stringifies (nameOr req.name)

/-- A password that is no string, a buyer that is no key, or what follows the account. -/
def registerEscapes (body : Json) (salt : String) (wr : Writes) : Bool :=
  !(falsy (field "buyerId" body) || falsy (field "password" body)) &&
    match (field "buyerId" body).bind rt.key with
    | none => true
    | some w => !st.hasAccount w &&
        match passwordOf (field "password" body) with
        | none => true
        | some password => st.registerTellEscapes rt
            ⟨w, field "name" body, nameText password, salt, rt.scrypt password salt⟩ wr

/-- For a wallet with an account: a password that is no string, or one that is right and a
name that cannot be printed. For the others: a buyer that is no key. -/
def loginEscapes (body : Json) : Bool :=
  !(falsy (field "buyerId" body) || falsy (field "password" body)) &&
    match (field "buyerId" body).bind rt.key with
    | none => true
    | some w => ((st.users w).bind User.account).any fun account =>
        match passwordOf (field "password" body) with
        | none => true
        | some password =>
            rt.scrypt password account.salt = account.hash && !rt.stringifies account.name

def dispatchEscapes (p : Post) (body : Option Json) (wr : Writes) : Bool :=
  !(p.endpoint.limited && !p.rateOk) &&
    (body.filter truthy).any fun body =>
      match p.endpoint with
      | .start => st.startEscapes rt body
      | .redeem => redeemEscapes rt body
      | .register => st.registerEscapes rt body p.salt wr
      | .login => st.loginEscapes rt body
      | .escrow | .chat | .endSession => false

/-- The handlers that await a process outside any `try`. -/
def unguarded : Proc → Bool
  | .buildEscrow _ _ _ | .verifyEscrow _ | .fundBuyer _ _ _ => true
  | _ => false

/-- The request that a step leaves without an answer. -/
def escapes (i : Served) : Option Pid :=
  match i.arrival with
  | .post p =>
      if st.dispatchEscapes rt p (parseBody (readBody p.chunks)) i.writes then some st.nextPid
      else none
  | .spawnThrows pid _ => if (st.procs pid).any unguarded then some pid else none
  | .other (.funded pid ok) =>
      if ok && !(rt.saves st ⟨.funded pid ok, i.writes⟩).users then some pid else none
  | .other _ => none

end State

/-! ## Waiting, answered, lost -/

/-- A handler that belongs to a request. -/
def Proc.requested : Proc → Bool
  | .sweepSettle _ _ _ | .joaoSweep _ => false
  | _ => true

/-- The session a chat has captured is still there, and a settlement pauses only before
one of its six attempts. -/
def Proc.Pinned (st : State) : Proc → Prop
  | .runAnswer sid _ _ _ => sid ∈ st.sessions.keys
  | .endBackoff _ _ attempt => attempt < 6
  | _ => True

/-- How often the handler can still be resumed. -/
def Proc.left : Proc → ℕ
  | .endSettle _ _ attempt => 2 * (6 - attempt) + 1
  | .endBackoff _ _ attempt => 2 * (6 - attempt)
  | _ => 1

/-- The request is at work: its handler waits for a process, an answer or a pause, and can
be resumed at most `left` times. -/
def State.Waits (st : State) (pid : Pid) (left : ℕ) : Prop :=
  ∃ p, st.procs pid = some p ∧ p.requested = true ∧ p.Pinned st ∧ p.left ≤ left

def Event.answered : Event → Option Pid
  | .done pid _ => some pid
  | _ => none

/-- The requests that are answered by these events. -/
def answers (es : List Event) : List Pid := es.filterMap Event.answered

/-- What becomes of the request in a piece of its handler. -/
inductive Fate (pid : Pid) (left : ℕ) (lost : Bool) (r : State × List Event) : Prop
  | waits (hwaits : r.1.Waits pid left) (hes : answers r.2 = []) (hlost : lost = false)
  | answered (hproc : r.1.procs pid = none) (hes : answers r.2 = [pid]) (hlost : lost = false)
  | lost (hproc : r.1.procs pid = none) (hes : answers r.2 = []) (hlost : lost = true)

theorem Proc.Pinned.left_pos {st : State} {p : Proc} (h : p.Pinned st) : 0 < p.left := by
  cases p with
  | endSettle sid charge attempt => exact Nat.succ_pos _
  | endBackoff sid charge attempt =>
      simp only [Proc.Pinned, Proc.left] at h ⊢
      omega
  | _ => exact Nat.one_pos

section Pieces

variable {rt : Runtime} {st st' st₁ : State} {sid : SessionId} {pid : Pid} {p : Proc} {w : Writes}
  {u : WalletId} {s : Session} {charge attempt cursor spent : ℕ} {prompt : JsString}
  {tier : String} {run : SettleRun} {note : EscrowNote} {lost : Bool} {es : List Event}
  {file : Option NoteFile} {left : ℕ}

/-- The handler has ended in `st₁`, and on the way to `st'` only others move. -/
theorem Fate.closed (h : Frame st₁ none st') (hnone : st₁.procs pid = none)
    (hlt : pid < st₁.nextPid) (hes : answers es = if lost then [] else [pid]) :
    Fate pid left lost (st', es) := by
  have hproc : st'.procs pid = none := (h.procs pid hlt nofun).trans hnone
  cases lost with
  | false => exact .answered hproc hes rfl
  | true => exact .lost hproc hes rfl

/-- A new request that is over when its handler returns. -/
theorem Fate.arrived (hf : st.Fresh) (h : Frame st.arrive none st')
    (hes : answers es = if lost then [] else [st.nextPid]) : Fate st.nextPid 11 lost (st', es) :=
  .closed h (hf st.nextPid le_rfl) (Nat.lt_succ_self _) hes

/-- A request whose wait is over. -/
theorem Fate.finished (h : Frame (st.finish pid) none st') (hlt : pid < st.nextPid)
    (hes : answers es = if lost then [] else [pid]) : Fate pid left lost (st', es) :=
  .closed h (Function.update_self _ _ _) hlt hes

/-- The handler waits for the next thing. -/
theorem Fate.spawned (hp : p.requested = true) (hpin : p.Pinned st) (hleft : p.left ≤ left)
    (hes : answers es = []) : Fate pid left false (st.spawn pid p, es) :=
  .waits ⟨p, Function.update_self _ _ _, hp, hpin, hleft⟩ hes rfl

theorem answers_refundEvents : answers (refundEvents sid u file) = [] := by
  cases file <;> rfl

theorem answers_startJoao : answers (st.startJoao file).2 = [] := by
  cases file <;> rfl

theorem answers_append {es' : List Event} : answers (es ++ es') = answers es ++ answers es' :=
  List.filterMap_append

theorem answers_nil : answers [] = [] := rfl

theorem answers_cons {e : Event} : answers (e :: es) = e.answered.toList ++ answers es := by
  cases h : e.answered <;> simp [answers, h]

theorem fate_refuse (hf : st.Fresh) {status : ℕ} {message : String} :
    Fate st.nextPid 11 false (st.refuse status message) :=
  .arrived hf .refl rfl

theorem fate_escape (hf : st.Fresh) : Fate st.nextPid 11 true st.escape := .arrived hf .refl rfl

/-! ### Requests -/

theorem fate_startHold (hf : st.Fresh) {wallet : Option WalletId} {balance : Option JsNumber} :
    Fate st.nextPid 11 (holdEscapes wallet tier balance) (st.startHold wallet tier balance) := by
  cases balance with
  | none => exact fate_escape hf
  | some b =>
      unfold startHold holdEscapes
      dsimp only
      cases tierEntry tier with
      | own t =>
          dsimp only
          cases belowMinHold t b.units with
          | true =>
              rw [Bool.not_true, Bool.and_false]
              exact fate_refuse hf
          | false =>
              cases wallet with
              | none => exact fate_escape hf
              | some w => exact .spawned rfl trivial (show 1 ≤ 11 by decide) rfl
      | inherited =>
          cases wallet with
          | none => exact fate_escape hf
          | some w => exact .spawned rfl trivial (show 1 ≤ 11 by decide) rfl
      | missing =>
          cases wallet with
          | none => exact fate_escape hf
          | some w => exact .spawned rfl trivial (show 1 ≤ 11 by decide) rfl

theorem fate_postStart (hf : st.Fresh) (body : Json) :
    Fate st.nextPid 11 (st.startEscapes rt body) (st.postStart rt body) := by
  unfold postStart startEscapes
  dsimp only
  cases falsy (field "buyerId" body) with
  | true => exact fate_refuse hf
  | false =>
      cases tierOf rt body with
      | none => exact fate_escape hf
      | some tier =>
          dsimp only
          by_cases hmissing : tierEntry tier = .missing
          · simpa [hmissing] using fate_refuse hf
          · cases hreq : (tierEntry tier).requiresAccount with
            | false => simpa [hmissing] using fate_startHold hf
            | true =>
                cases (field "buyerId" body).bind rt.key with
                | none => simpa [hmissing] using fate_escape hf
                | some w =>
                    cases hacc : st.hasAccount w with
                    | false =>
                        cases hprints : rt.stringifies (tierSent body) with
                        | false => simpa [hmissing, hacc, hprints] using fate_escape hf
                        | true => simpa [hmissing, hacc, hprints] using fate_refuse hf
                    | true => simpa [hmissing, hacc] using fate_startHold hf

theorem fate_sessionEscrow (hf : st.Fresh) : Fate st.nextPid 11 false (st.sessionEscrow sid) := by
  unfold sessionEscrow
  dsimp only
  split
  · exact fate_refuse hf
  · exact .spawned rfl trivial (show 1 ≤ 11 by decide) rfl

theorem fate_postEscrow (hf : st.Fresh) (body : Json) :
    Fate st.nextPid 11 false (st.postEscrow rt body) := by
  unfold postEscrow
  split
  · exact fate_refuse hf
  · exact fate_sessionEscrow hf

theorem fate_chat (hf : st.Fresh) (req : ChatRequest) : Fate st.nextPid 11 false (st.chat req) := by
  unfold State.chat
  dsimp only
  split
  · exact fate_refuse hf
  · next s hgate =>
      split
      · have hmem : req.sessionId ∈ st.sessions.keys := by
          by_contra hno
          have hslot := SlotMap.slot?_eq_none.mpr hno
          obtain ⟨slot, hslot', -⟩ := SlotMap.get?_eq_some.mp (chatGate_ok hgate).1
          rw [hslot] at hslot'
          cases hslot'
        refine .waits ⟨_, Function.update_self _ _ _, rfl, ?_, show 1 ≤ 11 by decide⟩ rfl rfl
        show req.sessionId ∈ (SlotMap.modify _ _ _).keys
        rwa [SlotMap.keys_modify]
      · exact fate_refuse hf

theorem fate_postChat (hf : st.Fresh) (text : Text) (body : Option Json) :
    Fate st.nextPid 11 false (st.postChat rt text body) := by
  unfold postChat
  split
  · exact fate_refuse hf
  · exact fate_refuse hf
  · split
    · exact fate_refuse hf
    · dsimp only
      split
      · exact fate_chat hf _
      · split
        · unfold chatTold
          split
          · split
            · exact fate_chat hf _
            · exact fate_refuse hf
          · exact fate_chat hf _
        · split <;> exact fate_refuse hf

theorem fate_sessionEnd (hf : st.Fresh) : Fate st.nextPid 11 false (st.sessionEnd sid) := by
  unfold sessionEnd
  dsimp only
  split
  · exact fate_refuse hf
  · split
    · exact fate_refuse hf
    · split
      · exact fate_refuse hf
      · split
        · exact fate_refuse hf
        · exact .spawned rfl trivial le_rfl rfl

theorem fate_postEnd (hf : st.Fresh) (body : Option Json) :
    Fate st.nextPid 11 false (st.postEnd rt body) := by
  unfold postEnd
  split
  · exact fate_refuse hf
  · split
    · exact fate_refuse hf
    · exact fate_sessionEnd hf

theorem fate_redeem (hf : st.Fresh) (c : String) : Fate st.nextPid 11 false (st.redeem u c) := by
  unfold State.redeem
  dsimp only
  split
  · exact fate_refuse hf
  · split
    · exact fate_refuse hf
    · split
      · exact .arrived hf (Frame.refl.setUser) rfl
      · split
        · exact .arrived hf (Frame.refl.setUser) rfl
        · exact .spawned rfl trivial (show 1 ≤ 11 by decide) rfl

theorem fate_postRedeem (hf : st.Fresh) (body : Json) :
    Fate st.nextPid 11 (redeemEscapes rt body) (st.postRedeem rt body) := by
  unfold postRedeem redeemEscapes
  cases falsy (field "buyerId" body) with
  | true => exact fate_refuse hf
  | false =>
      cases codeOf (field "code" body) with
      | none => exact fate_escape hf
      | some c =>
          by_cases hcode : parseCode c = none
          · simpa [hcode] using fate_refuse hf
          · cases (field "buyerId" body).bind rt.key with
            | none => simpa [hcode] using fate_escape hf
            | some w => simpa [hcode] using fate_redeem hf c

theorem fate_login (hf : st.Fresh) (password hash : String) :
    Fate st.nextPid 11 false (st.login u password hash) := by
  unfold State.login
  dsimp only
  split
  · exact fate_refuse hf
  · split
    · exact fate_refuse hf
    · split
      · exact .arrived hf .refl rfl
      · exact fate_refuse hf

/-- A registration that goes ahead is answered when the records are saved and the name is
printed. -/
theorem fate_registerTold (hf : st.Fresh) {req : RegisterRequest} (hbuyer : req.buyerId ≠ "")
    (hpassword : req.password ≠ "") (hnew : st.hasAccount req.buyerId = false) :
    Fate st.nextPid 11 (st.registerTellEscapes rt req w) (st.registerTold rt req w) := by
  have hnew' : st.arrive.hasAccount req.buyerId = false := hnew
  unfold registerTold registerTellEscapes
  dsimp only
  generalize rt.saves st ⟨.register req, w⟩ = wr
  unfold State.register
  simp only [hbuyer, hpassword, hnew', or_self, if_false, Bool.false_eq_true]
  cases wr.users with
  | false =>
      cases rt.stringifies (nameOr req.name) with
      | false => exact .arrived hf Frame.refl.setUser rfl
      | true => exact .arrived hf Frame.refl.setUser rfl
  | true =>
      obtain ⟨st₁, hsave⟩ : ∃ st₁, (st.arrive.setUser req.buyerId
          { st.arrive.userOr req.buyerId with
            account := some ⟨nameOr req.name, req.salt, req.hash⟩ }).saveUsers true = some st₁ :=
        ⟨_, rfl⟩
      have hframe : Frame st.arrive none st₁ := Frame.refl.setUser.saveUsers hsave
      rw [hsave]
      cases rt.stringifies (nameOr req.name) with
      | false => exact .arrived hf hframe rfl
      | true => exact .arrived hf hframe rfl

theorem fate_postRegister (hf : st.Fresh) (body : Json) (salt : String) :
    Fate st.nextPid 11 (st.registerEscapes rt body salt w) (st.postRegister rt body salt w) := by
  unfold postRegister registerEscapes
  cases falsy (field "buyerId" body) || falsy (field "password" body) with
  | true => exact fate_refuse hf
  | false =>
      cases hkey : (field "buyerId" body).bind rt.key with
      | none => exact fate_escape hf
      | some u =>
          have hu : u ≠ "" := by
            obtain ⟨v, -, hv⟩ := Option.bind_eq_some_iff.mp hkey
            exact key_ne hv
          dsimp only
          cases hacc : st.hasAccount u with
          | true => exact fate_refuse hf
          | false =>
              cases passwordOf (field "password" body) with
              | none => exact fate_escape hf
              | some password => exact fate_registerTold hf hu (nameText_ne _) hacc

theorem fate_postLogin (hf : st.Fresh) (body : Json) :
    Fate st.nextPid 11 (st.loginEscapes rt body) (st.postLogin rt body) := by
  unfold postLogin loginEscapes
  cases falsy (field "buyerId" body) || falsy (field "password" body) with
  | true => exact fate_refuse hf
  | false =>
      cases (field "buyerId" body).bind rt.key with
      | none => exact fate_escape hf
      | some u =>
          dsimp only
          cases (st.users u).bind User.account with
          | none => exact fate_refuse hf
          | some account =>
              cases passwordOf (field "password" body) with
              | none => exact fate_escape hf
              | some password =>
                  by_cases hright : rt.scrypt password account.salt = account.hash
                  · cases hprints : rt.stringifies account.name with
                    | false => simpa [hright, hprints] using fate_escape hf
                    | true => simpa [hright, hprints] using fate_login hf _ _
                  · simpa [hright] using fate_login hf _ _

theorem fate_withJson (hf : st.Fresh) {handler : Json → State × List Event} {escapes : Json → Bool}
    (body : Option Json) (h : ∀ v, Fate st.nextPid 11 (escapes v) (handler v)) :
    Fate st.nextPid 11 ((body.filter truthy).any escapes) (st.withJson body handler) := by
  unfold withJson
  cases body.filter truthy with
  | none => exact fate_refuse hf
  | some v => exact h v

/-- **A request is lost exactly when an exception escapes its handler.** -/
theorem fate_dispatch (hf : st.Fresh) (q : Post) (text : Text) (body : Option Json) :
    Fate st.nextPid 11 (st.dispatchEscapes rt q body w) (st.dispatch rt q text body w) := by
  have hnever : (body.filter truthy).any (fun _ => false) = false := by simp
  unfold dispatch dispatchEscapes
  cases q.endpoint.limited && !q.rateOk with
  | true => exact fate_refuse hf
  | false =>
      simp only [Bool.not_false, Bool.true_and, Bool.false_eq_true, if_false]
      cases q.endpoint with
      | start => exact fate_withJson hf body (fate_postStart hf)
      | escrow => exact fate_withJson hf body (fate_postEscrow hf)
      | chat =>
          rw [hnever]
          exact fate_postChat hf text body
      | endSession =>
          rw [hnever]
          exact fate_postEnd hf body
      | redeem => exact fate_withJson hf body (fate_postRedeem hf)
      | register => exact fate_withJson hf body fun v => fate_postRegister hf v q.salt
      | login => exact fate_withJson hf body (fate_postLogin hf)

/-! ### What comes back -/

theorem fate_escrowBuilt (hlt : pid < st.nextPid) {built : Option (ℕ × EscrowParams)} :
    Fate pid left false (st.escrowBuilt pid u tier sid built w) := by
  cases built with
  | none => exact .finished .refl hlt rfl
  | some b => exact .finished Frame.refl.insert.persistSessions hlt rfl

theorem fate_escrowVerified (hlt : pid < st.nextPid) (committed : Bool) :
    Fate pid left false (st.escrowVerified pid sid committed w) := by
  cases committed with
  | false => exact .finished .refl hlt rfl
  | true => exact .finished Frame.refl.modify.persistSessions hlt rfl

theorem fate_deliver (hlt : pid < st.nextPid) {a : Answer} :
    Fate pid left false
      (((st.finish pid).setBusy false).deliver pid sid s prompt tier spent a w) := by
  unfold deliver
  dsimp only
  have hframe : Frame (st.finish pid) none
      (((((((st.finish pid).setBusy false).modify sid (pushCharge a st.now)).persistSessions
        w.sessions).modify sid (pushTurns prompt a))).addSpend s.buyerId a.charge) :=
    Frame.refl.setBusy.modify.persistSessions.modify.addSpend
  split
  · exact .finished hframe hlt rfl
  · next hsave => exact .finished (hframe.saveUsers hsave).setStats hlt rfl

/-- The session is there, unless something else took the place of what the chat
captured. -/
theorem fate_chatAnswered (hlt : pid < st.nextPid) (res : Except String Answer) :
    ∃ lost, Fate pid left lost (st.chatAnswered pid sid prompt tier spent res w) ∧
      (sid ∈ st.sessions.keys → lost = false) := by
  unfold chatAnswered
  dsimp only
  split
  · exact ⟨false, .finished Frame.refl.setBusy hlt rfl, fun _ => rfl⟩
  · next hobj =>
      refine ⟨true, .finished Frame.refl.setBusy hlt rfl, fun hsid => ?_⟩
      have hslot : st.sessions.slot? sid = none := Option.map_eq_none_iff.mp hobj
      exact absurd hsid (SlotMap.slot?_eq_none.mp hslot)
  · split
    · exact ⟨false, .finished Frame.refl.setBusy hlt rfl, fun _ => rfl⟩
    · split
      · exact ⟨false, .finished Frame.refl.setBusy hlt rfl, fun _ => rfl⟩
      · exact ⟨false, fate_deliver hlt, fun _ => rfl⟩

theorem nextPid_closeSession : (st.closeSession sid w).nextPid = st.nextPid := by
  unfold closeSession State.persistSessions
  split <;> rfl

theorem fate_endReturned (hlt : pid < st.nextPid) (hleft : 2 * (6 - attempt) ≤ left) :
    Fate pid left false (st.endReturned pid sid s charge attempt run w) := by
  have hreleased : ∀ {res : Response}, Fate pid left false
      ((st.modify sid release).finish pid, [.settleEnd pid sid charge run, .done pid res]) :=
    .closed .refl (Function.update_self _ _ _) hlt rfl
  unfold endReturned
  dsimp only
  split
  · next json _ =>
      split
      · exact hreleased
      · next st₁ hrec =>
          obtain ⟨-, _, rfl⟩ := recordRefund_eq_some hrec
          refine .closed Frame.refl.startJoao (Function.update_self _ _ _) ?_ ?_
          · show pid < (closeSession _ sid w).nextPid
            rw [nextPid_closeSession]
            exact hlt
          · simp [answers_cons, answers_append, answers_refundEvents, answers_startJoao,
              answers_nil, Event.answered]
  · exact .closed .refl (Function.update_self _ _ _)
      (lt_of_lt_of_eq hlt nextPid_closeSession.symm) rfl
  · split
    · next hmore => exact .spawned rfl hmore hleft rfl
    · exact hreleased
  · exact hreleased

theorem fate_endWoken (hleft : 2 * (6 - (attempt + 1)) + 1 ≤ left) :
    Fate pid left false (st.endWoken pid sid charge attempt note) :=
  .spawned rfl trivial hleft rfl

theorem fate_funded (hlt : pid < st.nextPid) {code : Code} {claimed : ℕ} (ok : Bool) :
    Fate pid left (ok && !w.users) (st.funded pid u code claimed ok w) := by
  cases ok with
  | false => exact .finished .refl hlt rfl
  | true =>
      unfold State.funded
      dsimp only
      cases hw : w.users with
      | false => exact .finished Frame.refl.claim hlt rfl
      | true =>
          obtain ⟨st₁, hsave⟩ :
              ∃ st₁, ((st.finish pid).claim u code claimed).saveUsers true = some st₁ := ⟨_, rfl⟩
          rw [if_pos rfl, hsave]
          exact .finished (Frame.refl.claim.saveUsers hsave) hlt rfl

/-- A process that cannot be started: the settlements answer, the other requests do not. -/
theorem fate_spawnThrows (hlt : pid < st.nextPid) {message : String} {r : State × List Event}
    (hp : st.procs pid = some p) (hreq : p.requested = true)
    (hr : st.spawnThrows pid message = some r) : Fate pid left (unguarded p) r := by
  unfold State.spawnThrows at hr
  rw [hp] at hr
  cases p with
  | buildEscrow buyerId tier budget =>
      obtain rfl := Option.some.inj hr
      exact .finished .refl hlt rfl
  | verifyEscrow sid =>
      obtain rfl := Option.some.inj hr
      exact .finished .refl hlt rfl
  | fundBuyer buyerId code claimed =>
      obtain rfl := Option.some.inj hr
      exact .finished .refl hlt rfl
  | endSettle sid charge attempt =>
      obtain rfl := Option.some.inj hr
      exact .closed .refl (Function.update_self _ _ _) hlt rfl
  | runAnswer sid prompt tier spent => cases hr
  | endBackoff sid charge attempt => cases hr
  | sweepSettle sid charge cursor => cases hreq
  | joaoSweep file => cases hreq

end Pieces

/-! ## Steps -/

/-- The handler that a step resumes. -/
def Served.resumes (i : Served) : Option Pid :=
  match i.arrival with
  | .post _ => none
  | .spawnThrows pid _ => some pid
  | .other act => act.returns

/-- What a step does to requests. -/
inductive Piece (rt : Runtime) (st : State) (i : Served) (r : State × List Event) : Prop
  /-- A new request. -/
  | request (p : Post) (lost : Bool) (hpost : i.arrival = .post p) (hframe : Frame st none r.1)
      (hnext : r.1.nextPid = st.nextPid + 1) (hfate : Fate st.nextPid 11 lost r)
      (hesc : st.escapes rt i = if lost then some st.nextPid else none)
  /-- A waiting request goes on. -/
  | resumed (pid : Pid) (p : Proc) (left : ℕ) (lost : Bool) (hpost : ∀ p, i.arrival ≠ .post p)
      (hresumes : i.resumes = some pid) (hp : st.procs pid = some p)
      (hframe : Frame st (some pid) r.1) (hfate : Fate pid left lost r)
      (hleft : p.Pinned st → left < p.left) (hmine : ∀ q ∈ st.escapes rt i, q = pid)
      (hesc : p.Pinned st → st.escapes rt i = if lost then some pid else none)
  /-- Nothing that concerns a request. -/
  | apart (mine : Option Pid) (hpost : ∀ p, i.arrival ≠ .post p) (hresumes : i.resumes = mine)
      (hframe : Frame st mine r.1)
      (hmine : ∀ q ∈ mine, ∃ p, st.procs q = some p ∧ p.requested = false)
      (hes : answers r.2 = []) (hesc : st.escapes rt i = none)

/-- A registration of `__proto__`. Its record becomes the prototype of `users`, in which the
wallets `name`, `salt` and `hash` then find its fields. -/
def SetsPrototype (rt : Runtime) (p : Post) : Prop :=
  p.endpoint = .register ∧ Arrival.wallet rt (.post p) = some "__proto__"

/-- Everything but a restart and a registration of `__proto__`. -/
def SameProcess (rt : Runtime) (_ : State) (i : Served) : Prop :=
  match i.arrival with
  | .other .restart => False
  | .post p => ¬ SetsPrototype rt p
  | _ => True

section Steps

variable {rt : Runtime} {st : State} {i : Served} {r : State × List Event} {wr : Writes} {pid : Pid}
  {p : Proc}

theorem Frame.of_typed {e : Endpoint} (h : Typed e st r) : Frame st none r.1 := by
  obtain ⟨act, wr, r', hpost, hact, hst, -⟩ := h
  rw [hst]
  have hone : OneProcess st ⟨act, wr⟩ := oneProcess_iff.mpr (by rintro rfl; cases hpost)
  have hreturns : act.returns = none := by
    cases act <;> first | rfl | cases hpost
  have hframe := (handled_step hact hone).frame
  rwa [hreturns] at hframe

theorem frame_dispatch (q : Post) (text : Text) (body : Option Json) :
    Frame st none (st.dispatch rt q text body wr).1 := by
  rcases dispatch_typed q text body with h | h
  · rw [h.1]
    exact Frame.refl.arrive
  · exact .of_typed h

/-- Each request takes one pid. -/
theorem nextPid_typed {e : Endpoint} (h : Typed e st r) : r.1.nextPid = st.nextPid + 1 := by
  obtain ⟨act, wr, r', hpost, hact, hst, -⟩ := h
  rw [hst]
  cases act with
  | start req =>
      obtain rfl := Option.some.inj hact
      unfold sessionStart
      dsimp only
      repeat' split
      all_goals rfl
  | escrow sid =>
      obtain rfl := Option.some.inj hact
      unfold sessionEscrow
      dsimp only
      split <;> rfl
  | chat req =>
      obtain rfl := Option.some.inj hact
      unfold State.chat
      dsimp only
      repeat' split
      all_goals rfl
  | endSession sid =>
      obtain rfl := Option.some.inj hact
      unfold sessionEnd
      dsimp only
      repeat' split
      all_goals rfl
  | redeem u c =>
      obtain rfl := Option.some.inj hact
      unfold State.redeem
      dsimp only
      repeat' split
      any_goals rfl
      show (captureClaimed _ u).1.nextPid = _
      unfold captureClaimed
      split <;> rfl
  | register req =>
      obtain rfl := Option.some.inj hact
      unfold State.register
      dsimp only
      split
      · rfl
      · split
        · rfl
        · split
          · rfl
          · next hsave =>
              rw [saveUsers_eq_some hsave]
              rfl
  | login u password hash =>
      obtain rfl := Option.some.inj hact
      unfold State.login
      dsimp only
      repeat' split
      all_goals rfl
  | _ => cases hpost

theorem nextPid_dispatch (q : Post) (text : Text) (body : Option Json) :
    (st.dispatch rt q text body wr).1.nextPid = st.nextPid + 1 := by
  rcases dispatch_typed q text body with h | h
  · rw [h.1]
    rfl
  · exact nextPid_typed h

theorem frame_spawnThrows {message : String} (hr : st.spawnThrows pid message = some r) :
    Frame st (some pid) r.1 := by
  unfold State.spawnThrows at hr
  split at hr
  iterate 3
    · obtain rfl := Option.some.inj hr
      exact Frame.refl.finish (.inr rfl)
  · obtain rfl := Option.some.inj hr
    exact Frame.refl.modify.finish (.inr rfl)
  · obtain rfl := Option.some.inj hr
    exact (handled_sweepFrom Frame.refl.releaseCurrent (.inr rfl)).frame
  · obtain rfl := Option.some.inj hr
    exact Frame.refl.finish (.inr rfl)
  · cases hr

theorem answers_sweepFrom {cursor : ℕ} : answers (st.sweepFrom pid cursor).2 = [] := by
  unfold sweepFrom
  split
  · rfl
  · split <;> rfl

theorem answers_sweepSettled {sid : SessionId} {s : Session} {run : SettleRun} :
    answers (st.sweepSettled sid s run wr).2 = [] := by
  unfold sweepSettled
  split
  · split
    · rfl
    · simp [answers_append, answers_cons, answers_refundEvents, answers_startJoao, Event.answered]
  · rfl
  · rfl

/-- A request that waits for something other than a run of the mint is not lost when it
comes back. -/
theorem Piece.back {act : Action} {left : ℕ} {w : Writes} (hstep : step st ⟨act, w⟩ = some r)
    (hp : st.procs pid = some p)
    (hreturns : act.returns = some pid) (hfate : Fate pid left false r)
    (hleft : p.Pinned st → left < p.left) (hesc : st.escapes rt ⟨.other act, wr⟩ = none) :
    Piece rt st ⟨.other act, wr⟩ r := by
  have hone : OneProcess st ⟨act, w⟩ := oneProcess_iff.mpr (by rintro rfl; cases hreturns)
  have hframe := (handled_step hstep hone).frame
  rw [hreturns] at hframe
  refine .resumed pid p left false nofun hreturns hp hframe hfate hleft (fun q hq => ?_) fun _ => hesc
  rw [hesc] at hq
  cases hq

/-- **Every step is a piece of one request, or of none.** -/
theorem serve_piece (hf : st.Fresh) (hone : SameProcess rt st i) (hi : serve rt st i = some r) :
    Piece rt st i r := by
  obtain ⟨arrival, wr⟩ := i
  cases arrival with
  | post q =>
      obtain rfl := Option.some.inj hi
      exact .request q _ rfl (frame_dispatch q _ _) (nextPid_dispatch q _ _)
        (fate_dispatch hf q _ _) rfl
  | spawnThrows pid message =>
      have hframe := frame_spawnThrows hi
      cases hp : st.procs pid with
      | none =>
          have hnone : st.spawnThrows pid message = none := by rw [State.spawnThrows, hp]
          cases hnone.symm.trans hi
      | some p =>
          have hesc : st.escapes rt ⟨.spawnThrows pid message, wr⟩ =
              if unguarded p then some pid else none := by
            simp only [escapes, hp, Option.any_some]
          have hresumed (hreq : p.requested = true) :
              Piece rt st ⟨.spawnThrows pid message, wr⟩ r := by
            refine .resumed pid p 0 (unguarded p) nofun rfl hp hframe
              (fate_spawnThrows (hf.lt hp) hp hreq hi) Proc.Pinned.left_pos (fun q hq => ?_)
              fun _ => hesc
            rw [hesc, Option.mem_def, Option.ite_none_right_eq_some] at hq
            exact (Option.some.inj hq.2).symm
          have hapart (hreq : p.requested = false) (hun : unguarded p = false)
              (hes : answers r.2 = []) : Piece rt st ⟨.spawnThrows pid message, wr⟩ r := by
            refine .apart (some pid) nofun rfl hframe (fun q hq => ?_) hes ?_
            · obtain rfl := Option.some.inj hq
              exact ⟨p, hp, hreq⟩
            · rw [hesc, hun]
              rfl
          cases p with
          | sweepSettle sid charge cursor =>
              apply hapart rfl rfl
              simp only [serve, State.spawnThrows, hp, Option.some.injEq] at hi
              subst hi
              exact answers_sweepFrom
          | joaoSweep file =>
              apply hapart rfl rfl
              simp only [serve, State.spawnThrows, hp, Option.some.injEq] at hi
              subst hi
              rfl
          | _ => exact hresumed rfl
  | other act =>
      obtain ⟨hpost, hstep⟩ := Option.ite_none_right_eq_some.mp hi
      have hone : OneProcess st ⟨act, rt.saves st ⟨act, wr⟩⟩ :=
        oneProcess_iff.mpr (by rintro rfl; exact hone)
      have hframe := (handled_step hstep hone).frame
      have hworld (hreturns : act.returns = none) (hes : answers r.2 = [])
          (hesc : st.escapes rt ⟨.other act, wr⟩ = none) : Piece rt st ⟨.other act, wr⟩ r :=
        .apart none nofun hreturns (hreturns ▸ hframe) nofun hes hesc
      cases steps_of_step hstep with
      | tick ms => exact hworld rfl rfl rfl
      | fundNote hchain => exact hworld rfl rfl rfl
      | consumeNote hchain => exact hworld rfl rfl rfl
      | connect => exact hworld rfl rfl rfl
      | escrowFailed hp =>
          exact .back hstep hp rfl (fate_escrowBuilt (hf.lt hp)) (fun _ => Nat.one_pos) rfl
      | escrowBuilt hp hnew =>
          exact .back hstep hp rfl (fate_escrowBuilt (hf.lt hp)) (fun _ => Nat.one_pos) rfl
      | escrowVerified committed hp =>
          exact .back hstep hp rfl (fate_escrowVerified (hf.lt hp) committed)
            (fun _ => Nat.one_pos) rfl
      | answered res hp =>
          obtain ⟨lost, hfate, hlost⟩ := fate_chatAnswered (hf.lt hp) res
          refine .resumed _ _ 0 lost nofun rfl hp hframe hfate (fun _ => Nat.one_pos) nofun
            fun hpin => ?_
          rw [hlost hpin]
          rfl
      | endReturned hp hslot hnote hland =>
          refine .back hstep hp rfl (fate_endReturned ?_ le_rfl) (fun _ => Nat.lt_succ_self _) rfl
          rw [nextPid_land]
          exact hf.lt hp
      | endWoken hp hslot hnote =>
          refine .back hstep hp rfl (fate_endWoken le_rfl) (fun hpin => ?_) rfl
          simp only [Proc.Pinned, Proc.left] at hpin ⊢
          omega
      | sweep => exact hworld rfl answers_sweepFrom rfl
      | sweepReturned hp hslot hnote hland =>
          refine .apart _ nofun rfl hframe (fun q hq => ?_) ?_ rfl
          · obtain rfl := Option.some.inj hq
            exact ⟨_, hp, rfl⟩
          · simp [sweepReturned, answers_cons, answers_append, answers_sweepSettled,
              answers_sweepFrom, Event.answered]
      | joaoReturned hp =>
          refine .apart _ nofun rfl hframe (fun q hq => ?_) rfl rfl
          obtain rfl := Option.some.inj hq
          exact ⟨_, hp, rfl⟩
      | funded ok hp =>
          refine .resumed _ _ 0 _ nofun rfl hp hframe (fate_funded (hf.lt hp) ok)
            (fun _ => Nat.one_pos) (fun q hq => ?_) fun _ => rfl
          exact (Option.some.inj (Option.ite_none_right_eq_some.mp hq).2).symm
      | restart => exact hone.elim
      | _ => cases hpost

theorem fresh_sweepFrom (hf : st.Fresh) (hlt : pid < st.nextPid) {cursor : ℕ} :
    (st.sweepFrom pid cursor).1.Fresh := by
  unfold sweepFrom
  split
  · exact hf.finish
  · split
    · exact hf.finish
    · exact hf.modify.spawn hlt

theorem fresh_serve (hf : st.Fresh) (hi : serve rt st i = some r) : r.1.Fresh := by
  obtain ⟨arrival, wr⟩ := i
  cases arrival with
  | post q =>
      obtain rfl := Option.some.inj hi
      show (State.dispatch rt st q _ _ wr).1.Fresh
      rcases dispatch_typed q (readBody q.chunks) (parseBody (readBody q.chunks)) with
        h | ⟨act, w, r', -, h, hst, -⟩
      · rw [h.1]
        exact hf.arrive
      · rw [hst]
        exact fresh_step hf h
  | spawnThrows pid message =>
      simp only [serve, State.spawnThrows] at hi
      split at hi
      iterate 3
        · obtain rfl := Option.some.inj hi
          exact hf.finish
      · obtain rfl := Option.some.inj hi
        exact hf.modify.finish
      · next sid charge cursor hp =>
          obtain rfl := Option.some.inj hi
          have hframe : Frame st none (st.releaseCurrent sid) := Frame.refl.releaseCurrent
          exact fresh_sweepFrom hf.releaseCurrent (lt_of_lt_of_le (hf.lt hp) hframe.nextPid)
      · obtain rfl := Option.some.inj hi
        exact hf.finish
      · cases hi
  | other act =>
      exact fresh_step hf (Option.ite_none_right_eq_some.mp hi).2

end Steps

/-! ## Runs -/

/-- What a run shows of its requests. -/
inductive Mark
  | request (pid : Pid)
  | resume (pid : Pid)
  | answer (pid : Pid)
  | escape (pid : Pid)
deriving DecidableEq

def Served.requests (st : State) (i : Served) : Option Pid :=
  match i.arrival with
  | .post _ => some st.nextPid
  | _ => none

/-- The marks of a step: the request it brings or resumes, those it answers, the one it
loses. -/
def marks (rt : Runtime) (st : State) (i : Served) (es : List Event) : List Mark :=
  (i.requests st).toList.map .request ++ (i.resumes.toList.map .resume ++
    ((answers es).map .answer ++ (st.escapes rt i).toList.map .escape))

def markStep (rt : Runtime) (st : State) (i : Served) : Option (State × List Mark) :=
  (serve rt st i).map fun r => (r.1, marks rt st i r.2)

/-- Where a request stands: at work, answered once, or lost. A handler is resumed eleven
times at most: after six settlements and five pauses. -/
inductive Stands (st : State) (tr : List Mark) (pid : Pid) : Prop
  | waits (left : ℕ) (hwaits : st.Waits pid left) (hresumed : tr.count (.resume pid) + left ≤ 11)
      (hcount : tr.count (.answer pid) = 0) (hesc : .escape pid ∉ tr)
  | answered (hproc : st.procs pid = none) (hresumed : tr.count (.resume pid) ≤ 11)
      (hcount : tr.count (.answer pid) = 1) (hesc : .escape pid ∉ tr)
  | lost (hproc : st.procs pid = none) (hresumed : tr.count (.resume pid) ≤ 11)
      (hcount : tr.count (.answer pid) = 0) (hesc : .escape pid ∈ tr)

def Mark.pid : Mark → Pid
  | .request pid | .resume pid | .answer pid | .escape pid => pid

/-- No mark is about a request to come, and each request so far stands somewhere. -/
structure Tracked (st : State) (tr : List Mark) : Prop where
  fresh : st.Fresh
  known : ∀ m ∈ tr, m.pid < st.nextPid
  stands : ∀ pid, Mark.request pid ∈ tr → Stands st tr pid

section Runs

variable {rt : Runtime} {st st' : State} {tr ms : List Mark} {pid q : Pid} {lost : Bool} {left : ℕ}
  {mine : Option Pid} {r : State × List Event} {i : Served}

theorem Proc.Pinned.mono {p : Proc} (h : p.Pinned st)
    (hkeys : st.sessions.keys <+: st'.sessions.keys) :
    p.Pinned st' := by
  cases p with
  | runAnswer sid prompt tier spent => exact hkeys.subset h
  | endBackoff sid charge attempt => exact h
  | _ => trivial

/-- A request stands where it stood through a step that does not move it. -/
theorem Stands.keep (h : Stands st tr q) (hframe : Frame st mine st') (hlt : q < st.nextPid)
    (hmine : mine ≠ some q) (hquiet : ∀ m ∈ ms, m.pid ≠ q) : Stands st' (tr ++ ms) q := by
  have hproc : st'.procs q = st.procs q := hframe.procs q hlt hmine
  have hcount : ∀ m : Mark, m.pid = q → (tr ++ ms).count m = tr.count m := by
    intro m hm
    rw [List.count_append, List.count_eq_zero.mpr fun hmem => hquiet m hmem hm, Nat.add_zero]
  have hesc : Mark.escape q ∈ tr ++ ms ↔ Mark.escape q ∈ tr := by
    rw [List.mem_append, or_iff_left fun hmem => hquiet _ hmem rfl]
  have hresume := hcount (.resume q) rfl
  have hanswer := hcount (.answer q) rfl
  cases h with
  | waits left hwaits hle h0 hno =>
      obtain ⟨p, hp, hreq, hpin, hleft⟩ := hwaits
      exact .waits left ⟨p, hproc.trans hp, hreq, hpin.mono hframe.keys, hleft⟩ (hresume ▸ hle)
        (hanswer.trans h0) (mt hesc.mp hno)
  | answered hnone hle h1 hno =>
      exact .answered (hproc.trans hnone) (hresume ▸ hle) (hanswer.trans h1) (mt hesc.mp hno)
  | lost hnone hle h0 hyes =>
      exact .lost (hproc.trans hnone) (hresume ▸ hle) (hanswer.trans h0) (hesc.mpr hyes)

/-- A request at work stands, after a piece of its handler, where the piece leaves it. -/
theorem Stands.move (hfate : Fate q left lost r) (h0 : tr.count (.answer q) = 0)
    (hno : Mark.escape q ∉ tr) (hleft : (tr ++ ms).count (.resume q) + left ≤ 11)
    (hanswers : ms.count (.answer q) = (answers r.2).count q)
    (hescape : Mark.escape q ∈ ms ↔ lost = true) : Stands r.1 (tr ++ ms) q := by
  have hcount : (tr ++ ms).count (.answer q) = (answers r.2).count q := by
    rw [List.count_append, h0, hanswers, Nat.zero_add]
  have hesc : Mark.escape q ∈ tr ++ ms ↔ lost = true := by
    rw [List.mem_append, or_iff_right hno, hescape]
  have hle := le_trans (Nat.le_add_right _ _) hleft
  cases hfate with
  | waits hwaits hes hlost =>
      exact .waits left hwaits hleft (by rw [hcount, hes]; rfl)
        (by rw [hesc, hlost]; exact Bool.false_ne_true)
  | answered hproc hes hlost =>
      exact .answered hproc hle (by rw [hcount, hes, List.count_singleton_self])
        (by rw [hesc, hlost]; exact Bool.false_ne_true)
  | lost hproc hes hlost => exact .lost hproc hle (by rw [hcount, hes]; rfl) (hesc.mpr hlost)

theorem Fate.only (h : Fate pid left lost r) (hq : q ∈ answers r.2) : q = pid := by
  cases h with
  | waits _ hes _ => simp [hes] at hq
  | answered _ hes _ => simpa [hes] using hq
  | lost _ hes _ => simp [hes] at hq

/-- Whom a mark can be about. -/
theorem pid_of_mark {es : List Event} {m : Mark} (hm : m ∈ marks rt st i es) :
    i.requests st = some m.pid ∨ i.resumes = some m.pid ∨ m.pid ∈ answers es ∨
      st.escapes rt i = some m.pid := by
  simp only [marks, List.mem_append, List.mem_map, Option.mem_toList] at hm
  rcases hm with ⟨q, hq, rfl⟩ | ⟨q, hq, rfl⟩ | ⟨q, hq, rfl⟩ | ⟨q, hq, rfl⟩
  · exact .inl hq
  · exact .inr (.inl hq)
  · exact .inr (.inr (.inl hq))
  · exact .inr (.inr (.inr hq))

theorem request_mem_marks {es : List Event} :
    Mark.request q ∈ marks rt st i es ↔ i.requests st = some q := by
  simp [marks, eq_comm]

theorem escape_mem_marks {es : List Event} :
    Mark.escape q ∈ marks rt st i es ↔ st.escapes rt i = some q := by
  simp [marks, eq_comm]

theorem count_answer_marks {es : List Event} :
    (marks rt st i es).count (.answer q) = (answers es).count q := by
  have hrequest : ((i.requests st).toList.map .request).count (Mark.answer q) = 0 :=
    List.count_eq_zero.mpr (by simp)
  have hresume : (i.resumes.toList.map .resume).count (Mark.answer q) = 0 :=
    List.count_eq_zero.mpr (by simp)
  have hescape : ((st.escapes rt i).toList.map .escape).count (Mark.answer q) = 0 :=
    List.count_eq_zero.mpr (by simp)
  have hanswer : ((answers es).map .answer).count (Mark.answer q) = (answers es).count q :=
    List.count_map_of_injective _ _ (fun _ _ h => Mark.answer.inj h) _
  simp only [marks, List.count_append, hrequest, hresume, hescape, hanswer, Nat.zero_add,
    Nat.add_zero]

theorem count_resume_marks {es : List Event} :
    (marks rt st i es).count (.resume q) = i.resumes.toList.count q := by
  have hrequest : ((i.requests st).toList.map .request).count (Mark.resume q) = 0 :=
    List.count_eq_zero.mpr (by simp)
  have hanswer : ((answers es).map .answer).count (Mark.resume q) = 0 :=
    List.count_eq_zero.mpr (by simp)
  have hescape : ((st.escapes rt i).toList.map .escape).count (Mark.resume q) = 0 :=
    List.count_eq_zero.mpr (by simp)
  have hresume : (i.resumes.toList.map .resume).count (Mark.resume q) = i.resumes.toList.count q :=
    List.count_map_of_injective _ _ (fun _ _ h => Mark.resume.inj h) _
  simp only [marks, List.count_append, hrequest, hresume, hescape, hanswer, Nat.zero_add,
    Nat.add_zero]

/-- Nothing has been noted of a request to come. -/
theorem Tracked.unmarked (h : Tracked st tr) {m : Mark} (hm : m.pid = st.nextPid) :
    m ∉ tr := fun hmem => (hm ▸ h.known m hmem).false

/-- A request at work has no answer yet. -/
theorem Stands.working (h : Stands st tr pid) {p : Proc} (hp : st.procs pid = some p) :
    p.requested = true ∧ p.Pinned st ∧ tr.count (.resume pid) + p.left ≤ 11 ∧
      tr.count (.answer pid) = 0 ∧ Mark.escape pid ∉ tr := by
  cases h with
  | waits left hwaits hle h0 hno =>
      obtain ⟨p', hp', hreq, hpin, hleft⟩ := hwaits
      obtain rfl := Option.some.inj (hp.symm.trans hp')
      exact ⟨hreq, hpin, by omega, h0, hno⟩
  | answered hnone => cases hnone.symm.trans hp
  | lost hnone => cases hnone.symm.trans hp

theorem Served.requests_eq_none (hpost : ∀ p, i.arrival ≠ .post p) : i.requests st = none := by
  unfold Served.requests
  split
  · next p hp => exact absurd hp (hpost p)
  · rfl

/-- The marks of a step that brings no request. -/
theorem Tracked.go (h : Tracked st tr) (hfresh : r.1.Fresh) (hpost : ∀ p, i.arrival ≠ .post p)
    (hle : st.nextPid ≤ r.1.nextPid) (hpids : ∀ m ∈ marks rt st i r.2, m.pid < st.nextPid)
    (hstands : ∀ q < st.nextPid, Stands st tr q → Stands r.1 (tr ++ marks rt st i r.2) q) :
    Tracked r.1 (tr ++ marks rt st i r.2) := by
  refine ⟨hfresh, fun m hm => lt_of_lt_of_le ?_ hle, ?_⟩
  · rcases List.mem_append.mp hm with hm | hm
    · exact h.known m hm
    · exact hpids m hm
  · intro q hq
    have hmem : Mark.request q ∈ tr := by
      rcases List.mem_append.mp hq with hq | hq
      · exact hq
      · rw [request_mem_marks, Served.requests_eq_none hpost] at hq
        cases hq
    exact hstands q (h.known _ hmem) (h.stands q hmem)

theorem tracked_step (h : Tracked st tr) (hone : SameProcess rt st i) (hi : serve rt st i = some r) :
    Tracked r.1 (tr ++ marks rt st i r.2) := by
  have hfresh := fresh_serve h.fresh hi
  cases serve_piece h.fresh hone hi with
  | request p lost hpost hframe hnext hfate hesc =>
      have hnew : i.requests st = some st.nextPid := by rw [Served.requests, hpost]
      have hresumes : i.resumes = none := by rw [Served.resumes, hpost]
      have hescape : Mark.escape st.nextPid ∈ marks rt st i r.2 ↔ lost = true := by
        rw [escape_mem_marks, hesc]
        cases lost <;> simp
      have hpid : ∀ m ∈ marks rt st i r.2, m.pid = st.nextPid := by
        intro m hm
        rcases pid_of_mark hm with hm | hm | hm | hm
        · exact (Option.some.inj (hnew.symm.trans hm)).symm
        · cases hresumes.symm.trans hm
        · exact hfate.only hm
        · rw [hesc, Option.ite_none_right_eq_some] at hm
          exact (Option.some.inj hm.2).symm
      have hcount : (tr ++ marks rt st i r.2).count (.resume st.nextPid) = 0 := by
        rw [List.count_append, count_resume_marks, hresumes,
          List.count_eq_zero.mpr (h.unmarked rfl)]
        rfl
      refine ⟨hfresh, ?_, ?_⟩
      · intro m hm
        rw [hnext, Nat.lt_succ_iff_lt_or_eq]
        exact (List.mem_append.mp hm).imp (h.known m) (hpid m)
      · intro q hq
        rcases List.mem_append.mp hq with hq | hq
        · have hlt := h.known _ hq
          exact (h.stands q hq).keep hframe hlt nofun fun m hm heq =>
            hlt.ne (heq.symm.trans (hpid m hm))
        · obtain rfl : q = st.nextPid := hpid _ hq
          refine .move hfate (List.count_eq_zero.mpr (h.unmarked rfl)) (h.unmarked rfl) ?_
            count_answer_marks hescape
          rw [hcount]
  | resumed pid p left lost hpost hresumes hp hframe hfate hleft hmine hesc =>
      have hlt : pid < st.nextPid := h.fresh.lt hp
      have hpid : ∀ m ∈ marks rt st i r.2, m.pid = pid := by
        intro m hm
        rcases pid_of_mark hm with hm | hm | hm | hm
        · cases (Served.requests_eq_none hpost).symm.trans hm
        · exact (Option.some.inj (hresumes.symm.trans hm)).symm
        · exact hfate.only hm
        · exact hmine _ hm
      refine h.go hfresh hpost hframe.nextPid (fun m hm => (hpid m hm).symm ▸ hlt)
        fun q hq hstands => ?_
      by_cases heq : q = pid
      · subst heq
        obtain ⟨-, hpin, hbound, h0, hno⟩ := hstands.working hp
        refine .move hfate h0 hno ?_ count_answer_marks ?_
        · have := hleft hpin
          rw [List.count_append, count_resume_marks, hresumes]
          simp only [Option.toList_some, List.count_singleton_self]
          omega
        · rw [escape_mem_marks, hesc hpin]
          cases lost <;> simp
      · exact hstands.keep hframe hq (fun hs => heq (Option.some.inj hs).symm)
          fun m hm hmq => heq (hmq.symm.trans (hpid m hm))
  | apart mine hpost hresumes hframe hmine hes hesc =>
      have hpid : ∀ m ∈ marks rt st i r.2, mine = some m.pid := by
        intro m hm
        rcases pid_of_mark hm with hm | hm | hm | hm
        · cases (Served.requests_eq_none hpost).symm.trans hm
        · exact hresumes.symm.trans hm
        · rw [hes] at hm
          cases hm
        · cases hesc.symm.trans hm
      refine h.go hfresh hpost hframe.nextPid (fun m hm => ?_) fun q hq hstands => ?_
      · obtain ⟨p, hp, -⟩ := hmine _ (hpid m hm)
        exact h.fresh.lt hp
      · have hother : mine ≠ some q := by
          intro heq
          obtain ⟨p, hp, hreq⟩ := hmine q heq
          cases hreq.symm.trans (hstands.working hp).1
        exact hstands.keep hframe hq hother fun m hm hmq => hother (hmq ▸ hpid m hm)

/-! ## Every request is answered, unless an exception escapes -/

variable {disk : Disk} {now : ℕ} {nextPid : Pid} {chain : EscrowNote → NoteStatus}

/-- **A request is answered once, when it is over, exactly if no exception escapes.** From
any boot of the bridge and through any steps of the process that register no `__proto__`: a
request is at work without an answer, with a bounded number of things to wait for, or it is
over with one answer, if and only if none of the steps so far lost it. -/
theorem answered_iff (h : Trace (lts (markStep rt) (SameProcess rt)) (boot disk now nextPid chain) tr st)
    (hreq : Mark.request pid ∈ tr) :
    ((∃ left, st.Waits pid left ∧ tr.count (.resume pid) + left ≤ 11) ∧
          tr.count (.answer pid) = 0 ∨
        st.procs pid = none ∧ tr.count (.answer pid) = 1) ↔ Mark.escape pid ∉ tr := by
  have htracked : Tracked st tr := h.invariant
    ⟨fresh_boot _ _ _ _, by simp, by simp⟩ fun st tr ms st' ht ⟨i, hone, hi⟩ => by
      obtain ⟨r, hr, heq⟩ := Option.map_eq_some_iff.mp hi
      obtain ⟨rfl, rfl⟩ := Prod.mk.inj heq
      exact tracked_step ht hone hr
  cases htracked.stands pid hreq with
  | waits left hwaits hle h0 hno => exact iff_of_true (.inl ⟨⟨left, hwaits, hle⟩, h0⟩) hno
  | answered hproc hle h1 hno => exact iff_of_true (.inr ⟨hproc, h1⟩) hno
  | lost hproc hle h0 hyes =>
      refine iff_of_false ?_ fun hno => hno hyes
      rintro (⟨⟨left, ⟨p, hp, -⟩, -⟩, -⟩ | ⟨-, h1⟩)
      · cases hproc.symm.trans hp
      · omega

end Runs

def demoRuntime : Runtime where
  number _ := .nan
  numText _ := utf16 "0"
  stack := 1000
  session _ := none
  scrypt _ _ := ""
  syntaxError _ := ""
  stringifies _ := true
  stringifiesUsers _ := true

/-- A redeem request of one chunk. -/
def redeemPost (code : Json) : Post :=
  ⟨.redeem, true, [Text.encodeUtf8 (print compact 0
    (.obj [(utf16 "buyerId", .str (utf16 "0xb0b")), (utf16 "code", code)]))], ""⟩

/-- An empty code is refused, and the request is answered. -/
theorem answered_iff_demo : ∃ (tr : List Mark) (st : State), Mark.request 0 ∈ tr ∧
    ((∃ left, st.Waits 0 left ∧ tr.count (.resume 0) + left ≤ 11) ∧
          tr.count (.answer 0) = 0 ∨
        st.procs 0 = none ∧ tr.count (.answer 0) = 1) := by
  have hstep : markStep demoRuntime demoBoot ⟨.post (redeemPost (.str [])), .ok⟩ =
      some (demoBoot.arrive, [.request 0, .answer 0]) := by
    simp only [markStep, serve, post, marks, escapes, redeemPost, parseBody_print]
    rfl
  have htrace : Trace (lts (markStep demoRuntime) (SameProcess demoRuntime)) demoBoot
      [.request 0, .answer 0] demoBoot.arrive := .single ⟨_, by rintro ⟨⟨⟩, -⟩, hstep⟩
  exact ⟨_, _, List.mem_cons_self, (answered_iff htrace List.mem_cons_self).mpr (by decide)⟩

/-- `trim` is called on a code that is `true`: nobody answers. -/
theorem redeem_unanswered : ¬∀ (rt : Runtime) (disk : Disk) (now : ℕ) (nextPid : Pid)
    (chain : EscrowNote → NoteStatus) (tr : List Mark) (st : State) (pid : Pid),
    Trace (lts (markStep rt) (SameProcess rt)) (boot disk now nextPid chain) tr st →
      Mark.request pid ∈ tr →
        (∃ left, st.Waits pid left ∧ tr.count (.resume pid) + left ≤ 11) ∧
            tr.count (.answer pid) = 0 ∨
          st.procs pid = none ∧ tr.count (.answer pid) = 1 := by
  intro hclaim
  have hstep : markStep demoRuntime demoBoot ⟨.post (redeemPost (.bool true)), .ok⟩ =
      some (demoBoot.arrive, [.request 0, .escape 0]) := by
    simp only [markStep, serve, post, marks, escapes, redeemPost, parseBody_print]
    rfl
  have htrace : Trace (lts (markStep demoRuntime) (SameProcess demoRuntime)) demoBoot
      [.request 0, .escape 0] demoBoot.arrive := .single ⟨_, by rintro ⟨⟨⟩, -⟩, hstep⟩
  rcases hclaim _ _ _ _ _ _ _ 0 htrace List.mem_cons_self with
    ⟨⟨left, ⟨p, hp, -⟩, -⟩, -⟩ | ⟨-, hone⟩
  · cases hp
  · revert hone
    decide

end Bartok.Bridge
