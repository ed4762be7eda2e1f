import Bartok.Bridge.Refunds
import Bartok.Bridge.Requests
import Bartok.Bridge.Restart
import Bartok.Foundation.JsonCompact

/-!
# What `settle_session` prints

The settle handlers get an exit code and the whole output of the bin, and read the output
themselves: its last line of JSON, and two phrases. A line is taken as it comes. Its fields
are stored, sent on, shown and multiplied, and JavaScript throws on some values that a line
can have, after the session is gone.

Nothing else runs here while `/api/session/end` waits, so that the handler is one function of
the outcomes of its runs.
-/

namespace Bartok.Bridge

open Foundation Miden Json

/-! ## Reading an output -/

/-- What `run` resolves to; a bin that was killed has no exit code. -/
structure RunOutput where
  code : Option ℤ
  out : Text

/-- The last line of the output that begins like an object, parsed. -/
def lastJson (out : Text) : Option Json :=
  (((State.trim out).splitOn '\n').filter fun l => (State.trim l).head? = some '{').getLast?.bind
    parse

namespace RunOutput

variable (r : RunOutput)

/-- `r.code === 0 && settled`. -/
def settled : Option Json := if r.code = some 0 then (lastJson r.out).filter truthy else none

/-- `ESCROW_SPENT_RE.test(r.out)`. -/
def saysSpent : Bool := Text.includes "nullifiers already exist".toList r.out

/-- `/non-canonical delta pending/.test(r.out)`. -/
def saysWedged : Bool := Text.includes "non-canonical delta pending".toList r.out

/-- The outcome after which the loop goes on, if it has not tried six times. -/
def wedged : Bool := r.settled.isNone && !r.saysSpent && r.saysWedged

end RunOutput

/-- What JavaScript makes of the fields of the line. -/
structure SettleRuntime extends Runtime where
  /-- `Number((units * CONFIG.usdPerBartok).toFixed(6))`. -/
  usd : JsNumber → JsNumber
  /-- The message of the exception of a conversion that throws. -/
  conversionError : Json → String
  /-- That of `JSON.stringify`. -/
  stackError : String

namespace SettleRuntime

variable (rt : SettleRuntime)

/-- `String(value)` throws on it; `undefined` has a text. -/
def unprintable (v : Option Json) : Option String :=
  v.bind fun v => if (v.toText rt.numText rt.stack).isNone then some (rt.conversionError v) else none

/-- `usd(value)`; an exception as its message. -/
def usdOf : Option Json → Except String JsNumber
  | none => .ok (rt.usd .nan)
  | some v => ((rt.toNumber v).map rt.usd).elim (.error (rt.conversionError v)) .ok

end SettleRuntime

/-! ## What the handlers do -/

/-- The line that ends the response of `/api/session/end`. -/
inductive DoneLine
  | settled (charge : ℕ) (refund : Option Json) (chargeUsd refundUsd : JsNumber)
      (settleProposalId sellerNoteId buyerNoteId refundNoteFileB64 operator : Option Json)
  | error (message : String)

inductive SettleEffect
  | stage (name : String)
  | settleStart (charge : ℕ) (note : EscrowNote)
  | refundRecorded (buyerId : WalletId) (file : NoteFile)
  | evicted (sid : SessionId)
  | joaoStart (file : NoteFile) (timeout : ℕ)
  | sessionSettled (charge : ℕ) (chargeUsd : JsNumber) (proposalId explorer : Option Json)
  | done (line : DoneLine)

/-- The note file in a field that is not falsy, by its text. -/
def noteFile (v : Option Json) : Option NoteFile := (v.filter truthy).map shownText

section Handlers

variable (rt : SettleRuntime) (st : State) (sid : SessionId) (s : Session) (w : Writes)

/-- `recordRefund(s.buyerId, settled.refundNoteFileB64)`. -/
def recordField (v : Option Json) : Except String State :=
  match noteFile v with
  | none => .ok st
  | some file =>
      if v.any (!rt.stringifies ·) then .error rt.stackError
      else ((st.recordRefund s.buyerId (some file) w.refunds).elim (.error writeError) .ok)

def refundEffects (v : Option Json) : List SettleEffect :=
  ((noteFile v).map (.refundRecorded s.buyerId)).toList

def joaoEffects (timeout : ℕ) (v : Option Json) : List SettleEffect :=
  ((noteFile v).map (.joaoStart · timeout)).toList

/-- Every field of the line that the response passes on. -/
def sentFields (line : Json) : List (Option Json) :=
  ["refund", "settleProposalId", "sellerNoteId", "buyerNoteId", "refundNoteFileB64", "explorer"].map
    (field · line)

/-- From `sellerBroadcast` to the end of the response, or to an exception. -/
def announce (charge : ℕ) (line : Json) : List SettleEffect :=
  let proposal := field "settleProposalId" line
  let explorer := field "explorer" line
  let chargeUsd := rt.usd (.finite charge 0)
  if proposal.any (!rt.stringifies ·) || explorer.any (!rt.stringifies ·) then
    [.done (.error rt.stackError)]
  else
    .sessionSettled charge chargeUsd proposal explorer ::
      match rt.unprintable proposal, rt.usdOf (field "refund" line) with
      | some message, _ => [.done (.error message)]
      | none, .error message => [.done (.error message)]
      | none, .ok refundUsd =>
          if (sentFields line).any fun v => v.any (!rt.stringifies ·) then
            [.done (.error rt.stackError)]
          else
            [.done (.settled charge (field "refund" line) chargeUsd refundUsd proposal
              (field "sellerNoteId" line) (field "buyerNoteId" line)
              (field "refundNoteFileB64" line) explorer)]

/-- The handler after its last run. The `finally` block clears `settling`. -/
def endTried (pid : Pid) (charge : ℕ) (r : RunOutput) : State × List SettleEffect :=
  match r.settled with
  | some line =>
      let file := field "refundNoteFileB64" line
      match recordField rt st s w file with
      | .error message => ((st.modify sid State.release).finish pid, [.done (.error message)])
      | .ok st =>
          let st := st.setStats { st.sellerStats with settled := st.sellerStats.settled + 1 }
          let st := ((st.closeSession sid w).modify sid State.release).finish pid
          let seller := field "sellerNoteFileB64" line
          ((st.startJoao (noteFile seller)).1, refundEffects s file ++ .evicted sid ::
            joaoEffects 480000 seller ++ announce rt charge line)
  | none =>
      if r.saysSpent then
        (((st.closeSession sid w).modify sid State.release).finish pid,
          [.evicted sid, .done (.error "escrow_spent")])
      else ((st.modify sid State.release).finish pid, [.done (.error "settle_retry")])

/-- The retry loop, with so many tries left after this one. -/
def endLoop (pid : Pid) (charge : ℕ) (note : EscrowNote) (outcomes : ℕ → RunOutput) :
    ℕ → ℕ → State × List SettleEffect
  | 0, attempt =>
      let last := endTried rt st sid s w pid charge (outcomes attempt)
      (last.1, .settleStart charge note :: last.2)
  | left + 1, attempt =>
      if (outcomes attempt).wedged then
        let rest := endLoop pid charge note outcomes left (attempt + 1)
        (rest.1, .settleStart charge note :: .stage "settle_wait" :: rest.2)
      else
        let last := endTried rt st sid s w pid charge (outcomes attempt)
        (last.1, .settleStart charge note :: last.2)

/-- `POST /api/session/end` while no other request comes. -/
def endAlone (outcomes : ℕ → RunOutput) : State × List SettleEffect :=
  let pid := st.nextPid
  let st := st.arrive
  match st.sessions.get? sid with
  | none => (st, [.done (.error "unknown session")])
  | some s =>
      match s.escrowNoteB64 with
      | none => (st, [.done (.error "session has no escrow")])
      | some note =>
          if s.settled then (st, [.done (.error "already settled")])
          else if s.settling then (st, [.done (.error "settle_retry")])
          else
            let st := st.modify sid (State.beginSettle st.now)
            let run := endLoop rt st sid s w pid s.totalCharge note outcomes 5 1
            (run.1, .stage "settle" :: run.2)

end Handlers

/-! ## The three endings -/

inductive Ending
  | settled
  | escrowSpent
  | settleRetry

def starts (es : List SettleEffect) : List (ℕ × EscrowNote) :=
  es.filterMap fun
    | .settleStart charge note => some (charge, note)
    | _ => none

def dones (es : List SettleEffect) : List DoneLine :=
  es.filterMap fun
    | .done line => some line
    | _ => none

/-- The session is neither in the map nor in the snapshot. -/
def Gone (sid : SessionId) (st : State) : Prop :=
  st.sessions.get? sid = none ∧ ∀ snapshot ∈ st.disk.sessions, snapshot.get? sid = none

/-- The refund files after those of the line are kept. -/
def refundsWith (st : State) (s : Session) (line : Json) : Option (WalletId → List NoteFile) :=
  match noteFile (field "refundNoteFileB64" line) with
  | none => st.disk.refunds
  | some file => some (st.appendRefund s.buyerId file)

/-- What the handler leaves behind, and answers, after the outcome `o` of its last run. -/
def Lands (st : State) (sid : SessionId) (s : Session) (o : RunOutput)
    (r : State × List SettleEffect) : Ending → Prop
  | .settled => ∃ line chargeUsd refundUsd, o.settled = some line ∧
      dones r.2 = [.settled s.totalCharge (field "refund" line) chargeUsd refundUsd
        (field "settleProposalId" line) (field "sellerNoteId" line) (field "buyerNoteId" line)
        (field "refundNoteFileB64" line) (field "explorer" line)] ∧
      r.1.disk.refunds = refundsWith st s line ∧ Gone sid r.1
  | .escrowSpent => o.settled = none ∧ o.saysSpent = true ∧
      dones r.2 = [.error "escrow_spent"] ∧ r.1.disk.refunds = st.disk.refunds ∧ Gone sid r.1
  | .settleRetry => o.settled = none ∧ o.saysSpent = false ∧
      dones r.2 = [.error "settle_retry"] ∧ r.1.disk = st.disk ∧
      r.1.sessions.get? sid = some { s with settling := false, lastActivity := st.now }

/-- Between one and six runs, all for the same charge, with another one only after a wedge,
and then exactly one of the endings. -/
def LandsClean (st : State) (sid : SessionId) (s : Session) (note : EscrowNote)
    (outcomes : ℕ → RunOutput) (r : State × List SettleEffect) : Prop :=
  ∃ n, 1 ≤ n ∧ n ≤ 6 ∧ starts r.2 = List.replicate n (s.totalCharge, note) ∧
    (∀ k, 1 ≤ k → k < n → (outcomes k).wedged = true) ∧
    (n = 6 ∨ (outcomes n).wedged = false) ∧ ∃! e, Lands st sid s (outcomes n) r e

/-- JavaScript stores, sends, shows and multiplies what the line has without an exception. -/
def SettleRuntime.Handles (rt : SettleRuntime) (line : Json) : Prop :=
  rt.unprintable (field "settleProposalId" line) = none ∧
    (∃ x, rt.usdOf (field "refund" line) = .ok x) ∧
    ∀ v ∈ sentFields line, v.any (!rt.stringifies ·) = false

/-- The session that the claim is about: armed, not settled and not being settled. -/
structure Settleable (st : State) (sid : SessionId) (s : Session) (note : EscrowNote) : Prop where
  present : st.sessions.get? sid = some s
  armed : s.escrowNoteB64 = some note
  unsettled : s.settled = false
  idle : s.settling = false

section Endings

variable {rt : SettleRuntime} {st : State} {sid : SessionId} {s : Session} {w : Writes} {pid : Pid}
  {charge : ℕ} {note : EscrowNote} {outcomes : ℕ → RunOutput} {r : RunOutput} {line : Json}
  {es es' : List SettleEffect}

theorem starts_append : starts (es ++ es') = starts es ++ starts es' := List.filterMap_append

theorem dones_append : dones (es ++ es') = dones es ++ dones es' := List.filterMap_append

theorem starts_refundEffects {v : Option Json} : starts (refundEffects s v) = [] := by
  unfold refundEffects
  cases noteFile v <;> rfl

theorem dones_refundEffects {v : Option Json} : dones (refundEffects s v) = [] := by
  unfold refundEffects
  cases noteFile v <;> rfl

theorem starts_joaoEffects {timeout : ℕ} {v : Option Json} :
    starts (joaoEffects timeout v) = [] := by
  unfold joaoEffects
  cases noteFile v <;> rfl

theorem dones_joaoEffects {timeout : ℕ} {v : Option Json} : dones (joaoEffects timeout v) = [] := by
  unfold joaoEffects
  cases noteFile v <;> rfl

theorem starts_announce : starts (announce rt charge line) = [] := by
  unfold announce
  dsimp only
  split
  · rfl
  · split
    · rfl
    · rfl
    · split <;> rfl

theorem starts_endTried : starts (endTried rt st sid s w pid charge r).2 = [] := by
  unfold endTried
  split
  · dsimp only
    split
    · rfl
    · rw [starts_append, starts_append, starts_refundEffects, starts_announce, List.nil_append,
        List.append_nil]
      exact starts_joaoEffects
  · split <;> rfl

variable (rt st sid s w pid charge note outcomes) in
/-- The loop ends with one reaction, after as many wedges as it tried before. -/
theorem endLoop_spec : ∀ left attempt : ℕ, ∃ m ≤ left,
    (endLoop rt st sid s w pid charge note outcomes left attempt).1 =
        (endTried rt st sid s w pid charge (outcomes (attempt + m))).1 ∧
      starts (endLoop rt st sid s w pid charge note outcomes left attempt).2 =
        List.replicate (m + 1) (charge, note) ∧
      dones (endLoop rt st sid s w pid charge note outcomes left attempt).2 =
        dones (endTried rt st sid s w pid charge (outcomes (attempt + m))).2 ∧
      (∀ k < m, (outcomes (attempt + k)).wedged = true) ∧
      (m = left ∨ (outcomes (attempt + m)).wedged = false)
  | 0, attempt => by
      refine ⟨0, le_rfl, rfl, ?_, rfl, fun k hk => absurd hk (Nat.not_lt_zero k), .inl rfl⟩
      have hlast : starts (endLoop rt st sid s w pid charge note outcomes 0 attempt).2 =
          (charge, note) :: starts (endTried rt st sid s w pid charge (outcomes attempt)).2 := rfl
      rw [hlast, starts_endTried]
      rfl
  | left + 1, attempt => by
      rw [endLoop]
      cases hwedged : (outcomes attempt).wedged with
      | true =>
          obtain ⟨m, hm, hstate, hstarts, hdones, hbefore, hlast⟩ := endLoop_spec left (attempt + 1)
          have hshift : ∀ k, attempt + 1 + k = attempt + (k + 1) := fun k => by omega
          rw [hshift] at hstate hdones hlast
          refine ⟨m + 1, by omega, hstate, ?_, hdones, fun k hk => ?_, ?_⟩
          · exact congrArg ((charge, note) :: ·) hstarts
          · cases k with
            | zero => exact hwedged
            | succ k => exact hshift k ▸ hbefore k (by omega)
          · exact hlast.imp_left fun h => by omega
      | false =>
          refine ⟨0, Nat.zero_le _, rfl, ?_, rfl, fun k hk => absurd hk (Nat.not_lt_zero k),
            .inr hwedged⟩
          exact congrArg ((charge, note) :: ·) starts_endTried

/-- A line that JavaScript handles is announced and answered. -/
theorem dones_announce (charge : ℕ) (h : rt.Handles line) :
    ∃ refundUsd, dones (announce rt charge line) =
      [.settled charge (field "refund" line) (rt.usd (.finite charge 0)) refundUsd
        (field "settleProposalId" line) (field "sellerNoteId" line) (field "buyerNoteId" line)
        (field "refundNoteFileB64" line) (field "explorer" line)] := by
  obtain ⟨hproposal, ⟨refundUsd, hrefund⟩, hfields⟩ := h
  refine ⟨refundUsd, ?_⟩
  have hsent : ((sentFields line).any fun v => v.any (!rt.stringifies ·)) = false :=
    List.any_eq_false.mpr fun v hv => by simp [hfields v hv]
  have hid := hfields (field "settleProposalId" line) (by simp [sentFields])
  have hexplorer := hfields (field "explorer" line) (by simp [sentFields])
  unfold announce
  simp only [hid, hexplorer, Bool.or_self, hproposal, hrefund, hsent]
  rfl

theorem recordField_eq (hw : w.refunds = true)
    (h : (field "refundNoteFileB64" line).any (!rt.stringifies ·) = false) :
    recordField rt st s w (field "refundNoteFileB64" line) =
      .ok { st with disk := { st.disk with refunds := refundsWith st s line } } := by
  unfold recordField refundsWith
  cases noteFile (field "refundNoteFileB64" line) with
  | none => rfl
  | some file => simp [h, State.recordRefund, hw]

theorem sessions_closeSession :
    (st.closeSession sid w).sessions = (st.sessions.modify sid State.markSettled).delete sid := by
  unfold State.closeSession State.persistSessions
  split <;> rfl

/-- A closed session is gone, and stays so while nothing but its object is written. -/
theorem gone_closeSession (hw : w.sessions = true) :
    Gone sid (((st.closeSession sid w).modify sid State.release).finish pid) := by
  constructor
  · change ((st.closeSession sid w).sessions.modify sid State.release).get? sid = none
    rw [SlotMap.get?_modify, if_pos rfl, sessions_closeSession, SlotMap.get?_delete]
    rfl
  · intro snapshot hsnapshot
    have hdisk : (st.closeSession sid w).disk.sessions = some snapshot := hsnapshot
    rw [disk_closeSession, if_pos hw, Option.some.injEq] at hdisk
    rw [← hdisk, SlotMap.get?_compact]
    exact SlotMap.get?_delete

theorem gone_startJoao {file : Option NoteFile} (h : Gone sid st) :
    Gone sid (st.startJoao file).1 := by
  cases file <;> exact h

/-- The state in which the loop begins. -/
def State.settleBegun (st : State) (sid : SessionId) : State :=
  st.arrive.modify sid (State.beginSettle st.now)

theorem get?_settleBegun (h : st.sessions.get? sid = some s) :
    (st.settleBegun sid).sessions.get? sid = some (State.beginSettle st.now s) := by
  change (st.sessions.modify sid (State.beginSettle st.now)).get? sid = _
  rw [SlotMap.get?_modify, if_pos rfl, h]
  rfl

theorem endTried_lands (pid : Pid) (h : st.sessions.get? sid = some s) (hw : w.sessions = true)
    (hr : w.refunds = true) (hfit : ∀ line, r.settled = some line → rt.Handles line) :
    ∃ e, Lands st sid s r (endTried rt (st.settleBegun sid) sid s w pid s.totalCharge r) e := by
  cases hsettled : r.settled with
  | some line =>
      obtain ⟨refundUsd, hannounce⟩ := dones_announce s.totalCharge (hfit line hsettled)
      have hfile := (hfit line hsettled).2.2 (field "refundNoteFileB64" line) (by simp [sentFields])
      refine ⟨.settled, line, rt.usd (.finite s.totalCharge 0), refundUsd, hsettled, ?_, ?_, ?_⟩
      all_goals unfold endTried
      all_goals simp only [hsettled, recordField_eq hr hfile]
      · rw [dones_append, dones_append, dones_refundEffects, hannounce]
        exact congrArg (· ++ _) dones_joaoEffects
      · rw [disk_startJoao]
        exact refunds_closeSession
      · exact gone_startJoao (gone_closeSession hw)
  | none =>
      cases hspent : r.saysSpent with
      | true =>
          refine ⟨.escrowSpent, hsettled, hspent, ?_, ?_, ?_⟩
          all_goals unfold endTried
          all_goals simp only [hsettled, hspent, if_true]
          · rfl
          · exact refunds_closeSession
          · exact gone_closeSession hw
      | false =>
          refine ⟨.settleRetry, hsettled, hspent, ?_, ?_, ?_⟩
          all_goals unfold endTried
          all_goals simp only [hsettled, hspent, Bool.false_eq_true, if_false]
          · rfl
          · rfl
          · change ((st.settleBegun sid).sessions.modify sid State.release).get? sid = _
            rw [SlotMap.get?_modify, if_pos rfl, get?_settleBegun h]
            rfl

/-- An ending speaks of the state and of the last line of the response. -/
theorem Lands.congr {o : RunOutput} {x y : State × List SettleEffect} {e : Ending}
    (hstate : x.1 = y.1) (hdones : dones x.2 = dones y.2) (h : Lands st sid s o y e) :
    Lands st sid s o x e := by
  cases e <;> simpa only [Lands, hstate, hdones] using h

theorem Lands.unique {o : RunOutput} {x : State × List SettleEffect} {e e' : Ending}
    (h : Lands st sid s o x e) (h' : Lands st sid s o x e') : e = e' := by
  cases e <;> cases e' <;> first | rfl | (simp only [Lands] at h h'; grind)

theorem endAlone_eq (h : Settleable st sid s note) :
    endAlone rt st sid w outcomes =
      ((endLoop rt (st.settleBegun sid) sid s w st.nextPid s.totalCharge note outcomes 5 1).1,
        .stage "settle" ::
          (endLoop rt (st.settleBegun sid) sid s w st.nextPid s.totalCharge note outcomes 5 1).2) := by
  have hpresent : st.arrive.sessions.get? sid = some s := h.present
  unfold endAlone
  simp only [hpresent, h.armed, h.unsettled, h.idle, Bool.false_eq_true, if_false]
  rfl

/-- **`end` lands clean** when JavaScript can handle the lines of the runs that succeed:
whatever they exit with and print, it makes one to six runs for one charge, goes on only
after a wedge, and ends in exactly one of its three ways. -/
theorem end_lands (h : Settleable st sid s note) (hw : w.sessions = true) (hr : w.refunds = true)
    (hfit : ∀ k line, (outcomes k).settled = some line → rt.Handles line) :
    LandsClean st sid s note outcomes (endAlone rt st sid w outcomes) := by
  obtain ⟨m, hm, hstate, hstarts, hdones, hbefore, hlast⟩ := endLoop_spec rt
    (st.settleBegun sid) sid s w st.nextPid s.totalCharge note outcomes 5 1
  rw [Nat.add_comm 1 m] at hstate hdones hlast
  rw [endAlone_eq h]
  refine ⟨m + 1, by omega, by omega, hstarts, fun k hk hkm => ?_, ?_, ?_⟩
  · have hwedged := hbefore (k - 1) (by omega)
    rwa [Nat.add_sub_cancel' hk] at hwedged
  · exact hlast.imp_left fun hm5 => by omega
  · obtain ⟨e, he⟩ := endTried_lands st.nextPid h.present hw hr (hfit (m + 1))
    exact ⟨e, he.congr hstate hdones, fun e' he' => he'.unique (he.congr hstate hdones)⟩

/-! ## The run that an output stands for

Elsewhere a finished run is what the bridge reads off its output. Here the handlers on both
come to the same state. -/

/-- The verdict on the output, with the note files of its line. -/
inductive ReadAs : RunOutput → Verdict → Prop
  | settled {r : RunOutput} {line : Json} {json : SettleJson} (h : r.settled = some line)
      (hrefund : json.refundNoteFileB64 = noteFile (field "refundNoteFileB64" line))
      (hseller : json.sellerNoteFileB64 = noteFile (field "sellerNoteFileB64" line)) :
      ReadAs r (.settled json)
  | spent {r : RunOutput} (h : r.settled = none) (hspent : r.saysSpent = true) : ReadAs r .spent
  | wedged {r : RunOutput} (h : r.wedged = true) : ReadAs r .wedged
  | failed {r : RunOutput} (h : r.settled = none) (hspent : r.saysSpent = false)
      (hwedged : r.wedged = false) : ReadAs r .failed

/-- Every value of a line can be written to the refund store. -/
def SettleRuntime.Stores (rt : SettleRuntime) (r : RunOutput) : Prop :=
  ∀ line, r.settled = some line →
    (field "refundNoteFileB64" line).any (!rt.stringifies ·) = false

theorem recordField_eq_recordRefund (st : State) (s : Session) (w : Writes) {v : Option Json}
    (h : v.any (!rt.stringifies ·) = false) :
    (recordField rt st s w v).toOption = st.recordRefund s.buyerId (noteFile v) w.refunds := by
  unfold recordField
  cases noteFile v with
  | none => rfl
  | some file =>
      simp only [h, Bool.false_eq_true, if_false]
      cases st.recordRefund s.buyerId (some file) w.refunds <;> rfl

theorem wedged_iff : r.wedged = true ↔
    r.settled = none ∧ r.saysSpent = false ∧ r.saysWedged = true := by
  simp [RunOutput.wedged, and_assoc]

theorem endTried_eq_endReturned {run : SettleRun} (hread : ReadAs r run.verdict)
    (hstores : rt.Stores r) :
    (endTried rt st sid s w pid charge r).1 = (st.endReturned pid sid s charge 6 run w).1 := by
  unfold endTried State.endReturned
  generalize hverdict : run.verdict = verdict at hread
  cases hread with
  | settled h hrefund hseller =>
      have hrecord := recordField_eq_recordRefund st s w (hstores _ h)
      simp only [h, hrefund, hseller]
      rw [← hrecord]
      cases recordField rt st s w _ <;> rfl
  | spent h hspent => simp only [h, hspent, if_true]
  | wedged h =>
      obtain ⟨hsettled, hspent, -⟩ := wedged_iff.mp h
      simp only [hsettled, hspent, Bool.false_eq_true, if_false, lt_irrefl]
  | failed h hspent => simp only [h, hspent, Bool.false_eq_true, if_false]

/-! ## A line alone -/

theorem lastJson_stringify (ms : List (Utf16 × Json)) :
    lastJson (stringify (.obj ms)) = some (.obj ms) := by
  obtain ⟨inner, h⟩ := stringify_obj ms
  have htrim : State.trim (stringify (.obj ms)) = stringify (.obj ms) := by
    rw [h, State.trim_braces]
  have hhead : (stringify (.obj ms)).head? = some '{' := by
    rw [h]
    rfl
  rw [lastJson, htrim, List.splitOn_eq_singleton (newline_not_mem_stringify _),
    List.filter_cons_of_pos (by rw [htrim, hhead]; rfl), List.filter_nil, List.getLast?_singleton,
    Option.bind_some, stringify, parse_print]

theorem settled_stringify (ms : List (Utf16 × Json)) :
    RunOutput.settled ⟨some 0, stringify (.obj ms)⟩ = some (.obj ms) := by
  simp only [RunOutput.settled, if_true, lastJson_stringify]
  rfl

end Endings

/-! ## Two runs of `end` -/

def armedBridge : State := demoBoot.insert 0 demoArmed

theorem settleable_demo : Settleable armedBridge 0 demoArmed demoNote := ⟨rfl, rfl, rfl, rfl⟩

def demoSettleRuntime : SettleRuntime where
  number _ := .finite 458 0
  numText n := n.text.flatMap Text.units
  stack := 1000
  session _ := none
  scrypt _ _ := ""
  syntaxError _ := ""
  stringifies _ := true
  stringifiesUsers _ := true
  usd x := x
  conversionError _ := "Cannot convert object to primitive value"
  stackError := "Maximum call stack size exceeded"

def wedgeOutput : RunOutput :=
  ⟨some 1, "there is already a non-canonical delta pending".toList⟩

def settledLine : List (Utf16 × Json) :=
  [(utf16 "refund", .str (utf16 "458")), (utf16 "settleProposalId", .str (utf16 "0xprop")),
    (utf16 "refundNoteFileB64", .str (utf16 "cmVmdW5k")), (utf16 "sellerNoteFileB64", .null)]

/-- Two wedges, and then a success. -/
def wedgedOutcomes (k : ℕ) : RunOutput :=
  if k ≤ 2 then wedgeOutput else ⟨some 0, stringify (.obj settledLine)⟩

theorem end_lands_demo : LandsClean armedBridge 0 demoArmed demoNote wedgedOutcomes
    (endAlone demoSettleRuntime armedBridge 0 .ok wedgedOutcomes) := by
  apply end_lands settleable_demo rfl rfl
  intro k line hline
  unfold wedgedOutcomes at hline
  split at hline
  · have hnone : wedgeOutput.settled = none := rfl
    rw [hnone] at hline
    cases hline
  · rw [settled_stringify, Option.some.injEq] at hline
    subst hline
    refine ⟨rfl, ⟨_, rfl⟩, fun v _ => ?_⟩
    cases v <;> rfl

/-- A refund that is no number, and that JavaScript cannot make one. -/
def stuckLine : List (Utf16 × Json) := [(utf16 "refund", .obj [(utf16 "toString", .null)])]

def stuckOutput : RunOutput := ⟨some 0, stringify (.obj stuckLine)⟩

/-- The session is closed, and then `usd` throws: the response has an error of JavaScript. -/
theorem dones_stuck : dones (endAlone demoSettleRuntime armedBridge 0 .ok fun _ => stuckOutput).2 =
    [.error "Cannot convert object to primitive value"] := by
  have hsettled : stuckOutput.settled = some (.obj stuckLine) := settled_stringify _
  have hwedged : stuckOutput.wedged = false := by
    rw [RunOutput.wedged, hsettled]
    rfl
  rw [endAlone_eq settleable_demo, endLoop, hwedged]
  simp only [Bool.false_eq_true, if_false]
  rw [endTried, hsettled]
  rfl

theorem end_throws : ¬ ∀ (rt : SettleRuntime) (st : State) (sid : SessionId) (s : Session)
    (note : EscrowNote) (w : Writes) (outcomes : ℕ → RunOutput), Settleable st sid s note →
      w.sessions = true → w.refunds = true →
        LandsClean st sid s note outcomes (endAlone rt st sid w outcomes) := by
  intro hclean
  obtain ⟨n, -, -, -, -, -, e, he, -⟩ := hclean demoSettleRuntime armedBridge 0 demoArmed demoNote .ok
    (fun _ => stuckOutput) settleable_demo rfl rfl
  cases e with
  | settled =>
      obtain ⟨line, _, _, -, hdones, -⟩ := he
      rw [dones_stuck] at hdones
      cases hdones
  | escrowSpent =>
      obtain ⟨-, -, hdones, -⟩ := he
      rw [dones_stuck] at hdones
      exact absurd hdones (by simp)
  | settleRetry =>
      obtain ⟨-, -, hdones, -⟩ := he
      rw [dones_stuck] at hdones
      exact absurd hdones (by simp)

end Bartok.Bridge
