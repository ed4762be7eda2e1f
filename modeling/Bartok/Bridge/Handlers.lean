import Bartok.Bridge.State
import Mathlib.Data.List.DropRight
import Mathlib.Data.List.FinRange

/-!
# The request handlers

Each handler is cut at its `await`s: one definition for the part that runs when
the request arrives and one for each part that runs when what it waits for has
come back. Every part answers the new state and the events it emits. The
`try`/`catch`/`finally` blocks of the source are unfolded into the branches
they lead to.

Requests are those that passed the rate limiter and whose JSON body parsed.
-/

namespace Bartok.Bridge

open Foundation Miden

/-- Which of the three stores can be written in this step. A write that fails leaves its file
as it was, as when the file cannot be opened; one that breaks off after `writeFileSync` has
truncated the file is the subject of `TornWrite`. -/
structure Writes where
  sessions : Bool
  users : Bool
  refunds : Bool
deriving DecidableEq

def Writes.ok : Writes := ⟨true, true, true⟩

/-- The message of the exception `writeFileSync` throws. -/
def writeError : String := "EIO: i/o error, write"

namespace State

variable (st : State)

/-! ## POST /api/session/start -/

structure StartRequest where
  buyerId : WalletId
  /-- `basic` when the body has none. -/
  tier : String
  balance : JsNumber

def sessionStart (req : StartRequest) : State × List Event :=
  let pid := st.nextPid
  let st := st.arrive
  if req.buyerId = "" then (st, [.done pid (.error 400 "missing buyerId")])
  else if tierEntry req.tier = .missing then (st, [.done pid (.error 400 "unknown tier")])
  else if (tierEntry req.tier).requiresAccount && !st.hasAccount req.buyerId then
    (st, [.done pid (.error 403 "account_required")])
  else
    match tierEntry req.tier with
    | .own tier =>
        let bal := req.balance.units
        if belowMinHold tier bal then (st, [.done pid (.error 400 "insufficient_credits")])
        else (st.spawn pid (.buildEscrow req.buyerId req.tier (some (sessionBudget tier bal))), [])
    -- no bound of an inherited member is a number: the hold comes out as `NaN`
    | _ => (st.spawn pid (.buildEscrow req.buyerId req.tier none), [])

/-- The object a started session is. -/
def newSession (buyerId : WalletId) (tier : String) (budget : ℕ) (params : EscrowParams)
    (now : ℕ) : Session :=
  { buyerId, tier, params, budget, escrowNoteB64 := none, charges := [], settled := false,
    settling := false, createdAt := now, lastActivity := now, history := none }

/-- `build_escrow` has built a note for a budget, or printed no JSON line. -/
def escrowBuilt (pid : Pid) (buyerId : WalletId) (tier : String) (sid : SessionId)
    (built : Option (ℕ × EscrowParams)) (w : Writes) : State × List Event :=
  let st := st.finish pid
  match built with
  | none => (st, [.done pid (.error 500 "setup_failed")])
  | some (budget, params) =>
      let s := newSession buyerId tier budget params st.now
      let st := st.insert sid s
      (st.persistSessions w.sessions, [.done pid (.sessionStarted sid budget)])

/-! ## POST /api/session/escrow -/

def sessionEscrow (sid : SessionId) : State × List Event :=
  let pid := st.nextPid
  let st := st.arrive
  match st.sessions.get? sid with
  | none => (st, [.done pid (.error 404 "unknown session")])
  | some _ => (st.spawn pid (.verifyEscrow sid), [])

/-- The write that arms a session for paid chat. -/
def arm (now : ℕ) (s : Session) : Session :=
  { s with escrowNoteB64 := some s.params.noteB64, lastActivity := now }

def escrowVerified (pid : Pid) (sid : SessionId) (committed : Bool) (w : Writes) :
    State × List Event :=
  let st := st.finish pid
  if committed then
    let st := st.modify sid (arm st.now)
    let budget := ((st.sessions.obj? sid).map Session.budget).getD 0
    (st.persistSessions w.sessions, [.done pid (.escrowConfirmed sid budget)])
  else (st, [.done pid (.error 400 "escrow_unconfirmed")])

/-! ## POST /api/chat -/

structure ChatRequest where
  sessionId : SessionId
  prompt : JsString
  tier : Option String

/-- `tier || s.tier`. -/
def ChatRequest.msgTier (req : ChatRequest) (s : Session) : String :=
  match req.tier with
  | some tier => if tier = "" then s.tier else tier
  | none => s.tier

/-- The checks before the critical section. -/
def chatGate (req : ChatRequest) : Except String Session :=
  match st.sessions.get? req.sessionId with
  | none => .error "unknown session"
  | some s =>
      if s.escrowNoteB64 = none then .error "session has no escrow yet"
      else if s.settled then .error "session already settled"
      else if req.prompt = [] then .error "missing prompt"
      else if tierEntry (req.msgTier s) = .missing then .error "unknown tier"
      else if (tierEntry (req.msgTier s)).requiresAccount && !st.hasAccount s.buyerId then
        .error "account_required"
      else if !st.hasAccount s.buyerId && anonSpendCapBartok ≤ st.spentBy s.buyerId then
        .error "anon_cap"
      else if st.busy then .error "BUSY"
      else .ok s

/-- `s.history = s.history || []`. -/
def openHistory (s : Session) : Session := { s with history := some (s.history.getD []) }

def chat (req : ChatRequest) : State × List Event :=
  let pid := st.nextPid
  match st.chatGate req with
  | .error e => (st.arrive, [.done pid (.error 200 e)])
  | .ok s =>
      match tierEntry (req.msgTier s) with
      | .own tier =>
          let st := st.arrive.spawn pid
            (.runAnswer req.sessionId req.prompt (req.msgTier s) s.totalCharge)
          ((st.setBusy true).modify req.sessionId openHistory,
            [.seller (.jobStarted (req.msgTier s) ((TIERS tier).models.headD ""))])
      -- `models[0]` throws inside the critical section, which frees the lock again
      | _ => (st.arrive,
          [.done pid (.error 200 "Cannot read properties of undefined (reading '0')")])

/-- The trimmed reply kept in the conversation history. -/
def gist (reply : JsString) : JsString :=
  if reply.length > 400 then reply.take 400 ++ [0x2026] else reply

def pushCharge (a : Answer) (now : ℕ) (s : Session) : Session :=
  { s with charges := s.charges ++ [a], lastActivity := now }

def pushTurns (prompt : JsString) (a : Answer) (s : Session) : Session :=
  { s with history := some (s.history.getD [] ++ [⟨.user, prompt⟩, ⟨.assistant, gist a.reply⟩]) }

/-- The block after both guards: charge, persist, remember, account, answer. -/
def deliver (pid : Pid) (sid : SessionId) (s : Session) (prompt : JsString) (msgTier : String)
    (spent : ℕ) (a : Answer) (w : Writes) : State × List Event :=
  let st := st.modify sid (pushCharge a st.now)
  -- the snapshot is taken before the turn enters the history
  let st := st.persistSessions w.sessions
  let st := st.modify sid (pushTurns prompt a)
  let st := st.addSpend s.buyerId a.charge
  match st.saveUsers w.users with
  | none => (st, [.done pid (.error 200 writeError)])
  | some st =>
      (st.setStats { st.sellerStats with
          replies := st.sellerStats.replies + 1, earned := st.sellerStats.earned + a.charge },
        [.seller (.jobDone msgTier a.model a.tokens a.charge),
          .done pid (.reply sid a (spent + a.charge) (s.budget - (spent + a.charge)))])

/-- `runAnswer` returned or threw; `finally` frees the lock on every path. -/
def chatAnswered (pid : Pid) (sid : SessionId) (prompt : JsString) (msgTier : String)
    (spent : ℕ) (res : Except String Answer) (w : Writes) : State × List Event :=
  let st := (st.finish pid).setBusy false
  match res, st.sessions.obj? sid with
  | .error e, _ => (st, [.done pid (.error 200 e)])
  | .ok _, none => (st, [])
  | .ok a, some s =>
      if spent + a.charge > s.budget then (st, [.done pid (.error 200 "hold_exhausted")])
      else if s.settled then (st, [.done pid (.error 200 "session already settled")])
      else st.deliver pid sid s prompt msgTier spent a w

/-! ## POST /api/session/end -/

def beginSettle (now : ℕ) (s : Session) : Session :=
  { s with settling := true, lastActivity := now }

def release (s : Session) : Session := { s with settling := false }

def markSettled (s : Session) : Session := { s with settled := true }

def sessionEnd (sid : SessionId) : State × List Event :=
  let pid := st.nextPid
  let st := st.arrive
  match st.sessions.get? sid with
  | none => (st, [.done pid (.error 200 "unknown session")])
  | some s =>
      match s.escrowNoteB64 with
      | none => (st, [.done pid (.error 200 "session has no escrow")])
      | some note =>
          if s.settled then (st, [.done pid (.error 200 "already settled")])
          else if s.settling then (st, [.done pid (.error 200 "settle_retry")])
          else
            let charge := s.totalCharge
            let st := st.modify sid (beginSettle st.now)
            (st.spawn pid (.endSettle sid charge 1),
              [.stage pid "settle", .settleStart pid sid charge note])

/-- Flag a session as settled and drop it from the map and the snapshot. -/
def closeSession (sid : SessionId) (w : Writes) : State :=
  let st := st.modify sid markSettled
  let st := st.evict sid
  st.persistSessions w.sessions

/-- Start the background `joao_sweep` when there is a payment note. -/
def startJoao (file : Option NoteFile) : State × List Event :=
  match file with
  | none => (st, [])
  | some file => (st.arrive.spawn st.nextPid (.joaoSweep file), [.joaoStart file])

def refundEvents (sid : SessionId) (buyerId : WalletId) : Option NoteFile → List Event
  | none => []
  | some file => [.refundRecorded sid buyerId file]

/-- One `settle_session` run of the retry loop has finished. The `finally` block
clears `settling` on the captured object, in the map or not. -/
def endReturned (pid : Pid) (sid : SessionId) (s : Session) (charge attempt : ℕ)
    (run : SettleRun) (w : Writes) : State × List Event :=
  let ended := Event.settleEnd pid sid charge run
  match run.verdict with
  | .settled json =>
      match st.recordRefund s.buyerId json.refundNoteFileB64 w.refunds with
      | none => ((st.modify sid release).finish pid, [ended, .done pid (.error 200 writeError)])
      | some st =>
          let st := st.setStats
            { st.sellerStats with settled := st.sellerStats.settled + 1 }
          let st := ((st.closeSession sid w).modify sid release).finish pid
          let joao := st.startJoao json.sellerNoteFileB64
          (joao.1, ended :: refundEvents sid s.buyerId json.refundNoteFileB64 ++
            .evicted sid :: joao.2 ++
            [.seller (.sessionSettled charge json.settleProposalId json.explorer),
              .done pid (.settled sid charge json.refund json.refundNoteFileB64)])
  | .spent =>
      (((st.closeSession sid w).modify sid release).finish pid,
        [ended, .evicted sid, .done pid (.error 200 "escrow_spent")])
  | .wedged =>
      if attempt < 6 then
        (st.spawn pid (.endBackoff sid charge attempt), [ended, .stage pid "settle_wait"])
      else ((st.modify sid release).finish pid, [ended, .done pid (.error 200 "settle_retry")])
  | .failed => ((st.modify sid release).finish pid, [ended, .done pid (.error 200 "settle_retry")])

/-- The back-off sleep is over: the next attempt, with the same charge. -/
def endWoken (pid : Pid) (sid : SessionId) (charge attempt : ℕ) (note : EscrowNote) :
    State × List Event :=
  (st.spawn pid (.endSettle sid charge (attempt + 1)), [.settleStart pid sid charge note])

/-! ## sweepAbandonedSessions -/

/-- The three `continue`s at the head of the loop. -/
def sweepable (now : ℕ) (s : Session) : Bool :=
  !(s.settled || s.settling || s.escrowNoteB64.isNone) && !(now < s.lastSeen + sweepIdleMs)

def markSettling (s : Session) : Session := { s with settling := true }

/-- Walk the live map from `cursor` to the next session to settle. -/
def sweepFrom (pid : Pid) (cursor : ℕ) : State × List Event :=
  match st.sessions.next? cursor (sweepable st.now) with
  | none => (st.finish pid, [])
  | some (slot, i) =>
      match slot.val.escrowNoteB64 with
      | none => (st.finish pid, [])
      | some note =>
          let charge := slot.val.totalCharge
          let st := st.modify slot.key markSettling
          (st.spawn pid (.sweepSettle slot.key charge (i + 1)),
            [.settleStart pid slot.key charge note])

def sweep : State × List Event := st.arrive.sweepFrom st.nextPid 0

/-- The sweeper's `finally` looks the session up again: an object that has left
the map keeps its flag. -/
def releaseCurrent (sid : SessionId) : State :=
  if (st.sessions.get? sid).isSome then st.modify sid release else st

/-- The sweeper's own reaction to a finished run. -/
def sweepSettled (sid : SessionId) (s : Session) (run : SettleRun) (w : Writes) :
    State × List Event :=
  match run.verdict with
  | .settled json =>
      match st.recordRefund s.buyerId json.refundNoteFileB64 w.refunds with
      | none => (st.releaseCurrent sid, [])
      | some st =>
          let st := (st.closeSession sid w).releaseCurrent sid
          let joao := st.startJoao json.sellerNoteFileB64
          (joao.1, refundEvents sid s.buyerId json.refundNoteFileB64 ++ .evicted sid :: joao.2)
  | .spent => ((st.closeSession sid w).releaseCurrent sid, [.evicted sid])
  | _ => (st.releaseCurrent sid, [])

def sweepReturned (pid : Pid) (sid : SessionId) (s : Session) (charge cursor : ℕ)
    (run : SettleRun) (w : Writes) : State × List Event :=
  let settled := st.sweepSettled sid s run w
  let rest := settled.1.sweepFrom pid cursor
  (rest.1, .settleEnd pid sid charge run :: settled.2 ++ rest.2)

/-! ## POST /api/credits/redeem -/

/-- What `trim` strips: white space and line terminators. -/
def isSpace (c : Char) : Bool :=
  c.toNat ∈ [0x09, 0x0A, 0x0B, 0x0C, 0x0D, 0x20, 0xA0, 0x1680, 0x2028, 0x2029, 0x202F, 0x205F,
    0x3000, 0xFEFF] || (0x2000 ≤ c.toNat && c.toNat ≤ 0x200A)

def trim (c : List Char) : List Char := (c.dropWhile isSpace).rdropWhile isSpace

theorem trim_braces (inner : List Char) :
    trim ('{' :: (inner ++ ['}'])) = '{' :: (inner ++ ['}']) := by
  rw [trim, List.dropWhile_cons_of_neg (by decide), ← List.cons_append,
    List.rdropWhile_concat_neg _ _ _ (by decide)]

/-- `toUpperCase` as far as it can produce a code: the one character outside
ASCII whose upper case is a letter of the code is the dotless `ı`. -/
def toUpperCase (c : Char) : Char := if c = 'ı' then 'I' else c.toUpper

/-- The accepted codes: `ILOVEBARTOK` itself and `ILOVEBARTOK_[0-9]{2}`. -/
def parseCode (code : String) : Option Code :=
  let c := (trim code.toList).map toUpperCase
  if c = "ILOVEBARTOK".toList then some .shared
  else
    match c.drop 12 with
    | [d, e] =>
        if c.take 12 = "ILOVEBARTOK_".toList ∧ d.isDigit ∧ e.isDigit then
          some (.numbered (Fin.ofNat 100 (10 * (d.toNat - 48) + (e.toNat - 48))))
        else none
    | _ => none

/-- The lowest numbered code a wallet has not claimed. -/
def expectedCode (claimed : List Code) : Option (Fin 100) :=
  (List.finRange 100).find? fun i => Code.numbered i ∉ claimed

/-- The claimed codes a request reads: the wallet's own map, or a fresh one,
seeded from the old boolean flag. -/
def readClaimed (w : WalletId) : List Code :=
  match (st.userOr w).codes with
  | some r => st.claimedMap w r
  | none => if (st.userOr w).redeemed then [.shared] else []

/-- The reference the request keeps across the mint; a fresh map is a new
object. -/
def captureClaimed (w : WalletId) : State × ℕ :=
  match (st.userOr w).codes with
  | some r => (st, r)
  | none =>
      let maps := st.claimedMaps w
      ({ st with claimedMaps := Function.update st.claimedMaps w (maps ++ [st.readClaimed w]) },
        maps.length)

def redeem (w : WalletId) (c : String) : State × List Event :=
  let pid := st.nextPid
  let st := st.arrive
  if w = "" then (st, [.done pid (.error 400 "missing buyerId")])
  else
    match parseCode c with
    | none => (st, [.done pid (.error 400 "bad_code")])
    | some code =>
        -- `users[buyerId] = users[buyerId] || {}`
        let st := st.setUser w (st.userOr w)
        if code ∈ st.readClaimed w then (st, [.done pid (.error 400 "already_redeemed")])
        else if code ≠ .shared ∧
            (expectedCode (st.readClaimed w)).map Code.numbered ≠ some code then
          (st, [.done pid (.wrongOrder (expectedCode (st.readClaimed w)))])
        else
          let captured := st.captureClaimed w
          (captured.1.spawn pid (.fundBuyer w code captured.2), [.fundStart pid w code])

/-- The three writes after a successful mint: into the captured map, which
becomes the wallet's map, and the old flag is dropped. -/
def claim (w : WalletId) (code : Code) (claimed : ℕ) : State :=
  let maps := (st.claimedMaps w).modify claimed fun codes => code :: codes
  let st := { st with claimedMaps := Function.update st.claimedMaps w maps }
  st.setUser w { st.userOr w with codes := some claimed, redeemed := false }

def funded (pid : Pid) (w : WalletId) (code : Code) (claimed : ℕ) (ok : Bool) (wr : Writes) :
    State × List Event :=
  let st := st.finish pid
  if ok then
    let st := st.claim w code claimed
    match st.saveUsers wr.users with
    -- the exception escapes the callback: no answer
    | none => (st, [.fundEnd pid w code true])
    | some st => (st, [.fundEnd pid w code true, .done pid (.redeemed w code)])
  else (st, [.fundEnd pid w code false, .done pid (.error 500 "mint_failed")])

/-! ## POST /api/auth/register and /api/auth/login -/

structure RegisterRequest where
  buyerId : WalletId
  name : Option Json
  password : String
  /-- Drawn by the handler. -/
  salt : String
  /-- `scrypt` of the password and the salt. -/
  hash : String

/-- `name || 'Rita'`. -/
def nameOr (name : Option Json) : Json := (name.filter Json.truthy).getD (.str (utf16 "Rita"))

def register (req : RegisterRequest) (wr : Writes) : State × List Event :=
  let pid := st.nextPid
  let st := st.arrive
  if req.buyerId = "" ∨ req.password = "" then (st, [.done pid (.error 400 "missing fields")])
  else if st.hasAccount req.buyerId then (st, [.done pid (.error 400 "exists")])
  else
    let account := ⟨nameOr req.name, req.salt, req.hash⟩
    let st := st.setUser req.buyerId { st.userOr req.buyerId with account := some account }
    match st.saveUsers wr.users with
    | none => (st, [])
    | some st => (st, [.done pid (.loggedIn account.name)])

/-- `hash` is `scrypt` of the given password and the stored salt. -/
def login (w : WalletId) (password hash : String) : State × List Event :=
  let pid := st.nextPid
  let st := st.arrive
  if w = "" ∨ password = "" then (st, [.done pid (.error 400 "missing fields")])
  else
    match (st.users w).bind User.account with
    | none => (st, [.done pid (.error 401 "no_account")])
    | some account =>
        if hash = account.hash then (st, [.done pid (.loggedIn account.name)])
        else (st, [.done pid (.error 401 "bad_password")])

/-! ## Boot -/

/-- The sessions a boot restores: those of the snapshot that are not settled. -/
def restoreSessions (disk : Disk) : SlotMap SessionId Session :=
  match disk.sessions with
  | none => .empty
  | some snapshot => snapshot.filterSlots fun slot => slot.live && !slot.val.settled

/-- `loadUsers`; each wallet's claimed codes become an object of their own. -/
def restoreUser (u : SavedUser) : User := ⟨u.account, u.spent, u.codes.map fun _ => 0, u.redeemed⟩

/-- The memory of a process that starts on `disk`. -/
def boot (disk : Disk) (now : ℕ) (nextPid : Pid) (chain : EscrowNote → NoteStatus) : State :=
  let saved := disk.users.getD fun _ => none
  { now, nextPid, disk, chain
    sessions := restoreSessions disk
    busy := false
    users := fun w => (saved w).map restoreUser
    claimedMaps := fun w => ((saved w).bind SavedUser.codes).toList
    sellerStats := ⟨0, 0, 0⟩
    procs := fun _ => none }

end State

end Bartok.Bridge
