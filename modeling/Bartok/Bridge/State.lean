import Bartok.Bridge.Economics
import Bartok.Foundation.JsonValue
import Bartok.Foundation.SlotMap
import Bartok.Miden.EscrowNote
import Mathlib.Logic.Function.Basic

/-!
# The state of the bridge

Node runs one piece of a handler at a time, from one `await` to the next. The
memory of the process (`sessions`, `busy`, `users`, ...) is therefore plain
state, and a suspended handler is an entry of `procs` that says what it waits
for and which values it captured. The three JSON stores are in `disk`. `chain`
is the fate of escrow notes on chain, which the bridge never reads directly.

Objects are shared by reference in two places. A handler that captured a
session object keeps it after the map drops it, which `SlotMap` provides; and a
redeem request captures a wallet's map of claimed codes, kept in `claimedMaps`
and referred to by position.
-/

namespace Bartok.Bridge

open Foundation Miden

/-- A wallet, as clients name it. Results that need an account id say so (`ByAccounts`). -/
abbrev WalletId := String

/-- A `crypto.randomUUID()`. -/
abbrev SessionId := ℕ

abbrev Pid := ℕ

/-- A JavaScript string: its UTF-16 code units. -/
abbrev JsString := List UInt16

/-- Base64 of a serialized note file. -/
abbrev NoteFile := String

inductive Role
  | user
  | assistant
deriving DecidableEq

structure Turn where
  role : Role
  content : JsString
deriving DecidableEq

/-- What `runAnswer` returns. -/
structure Answer where
  reply : JsString
  reasoning : Option JsString
  truncated : Bool
  model : String
  tier : String
  tokens : ℕ
  charge : ℕ
deriving DecidableEq

/-- The JSON line of `build_escrow`, as far as the bridge reads it. -/
structure EscrowParams where
  sellerSerial : Word
  buyerSerial : Word
  noteB64 : EscrowNote
deriving DecidableEq

structure Session where
  buyerId : WalletId
  tier : String
  params : EscrowParams
  budget : ℕ
  escrowNoteB64 : Option EscrowNote
  charges : List Answer
  settled : Bool
  /-- Absent until the first settle; absent and `false` test alike. -/
  settling : Bool
  createdAt : ℕ
  lastActivity : ℕ
  /-- Absent until the first chat. -/
  history : Option (List Turn)
deriving DecidableEq

/-- `s.charges.reduce((a, c) => a + c.charge, 0)`. -/
def Session.totalCharge (s : Session) : ℕ := (s.charges.map Answer.charge).sum

/-- `s.lastActivity || s.createdAt`. -/
def Session.lastSeen (s : Session) : ℕ :=
  if s.lastActivity = 0 then s.createdAt else s.lastActivity

/-- The codes `ILOVEBARTOK` and `ILOVEBARTOK_00` to `ILOVEBARTOK_99`. -/
inductive Code
  | shared
  | numbered (i : Fin 100)
deriving DecidableEq

/-- The fields `/api/auth/register` adds to a user record. The name is what the client
sent, of any type. -/
structure Account where
  name : Json
  salt : String
  hash : String
deriving DecidableEq

/-- A record of `users`; `codes` refers to the wallet's `claimedMaps`. -/
structure User where
  account : Option Account
  spent : ℕ
  codes : Option ℕ
  redeemed : Bool
deriving DecidableEq

def User.new : User := ⟨none, 0, none, false⟩

/-- A record of `users.json`, with the claimed codes by value. -/
structure SavedUser where
  account : Option Account
  spent : ℕ
  codes : Option (List Code)
  redeemed : Bool
deriving DecidableEq

structure SellerStats where
  earned : ℕ
  replies : ℕ
  settled : ℕ
deriving DecidableEq

/-- A handler suspended at an `await`, with what it captured. -/
inductive Proc
  /-- `/api/session/start` at `build_escrow`; no budget stands for `NaN`. -/
  | buildEscrow (buyerId : WalletId) (tier : String) (budget : Option ℕ)
  /-- `/api/session/escrow` at `verify_escrow`. -/
  | verifyEscrow (sid : SessionId)
  /-- `/api/chat` at `runAnswer`. -/
  | runAnswer (sid : SessionId) (prompt : JsString) (msgTier : String) (spent : ℕ)
  /-- `/api/session/end` at `settle_session`. -/
  | endSettle (sid : SessionId) (charge attempt : ℕ)
  /-- `/api/session/end` between two attempts. -/
  | endBackoff (sid : SessionId) (charge attempt : ℕ)
  /-- `sweepAbandonedSessions` at `settle_session`; `cursor` is the position
  of its iterator over `sessions`. -/
  | sweepSettle (sid : SessionId) (charge cursor : ℕ)
  /-- The background `joao_sweep`. -/
  | joaoSweep (file : NoteFile)
  /-- `/api/credits/redeem` at `fund_buyer`; `claimed` is the captured map. -/
  | fundBuyer (buyerId : WalletId) (code : Code) (claimed : ℕ)
deriving DecidableEq

/-- An escrow note on chain. -/
inductive NoteStatus
  | unfunded
  | committed
  | spent
deriving DecidableEq

/-- The JSON stores, as the bridge itself writes them; `none` is a file that is missing or
does not parse. -/
structure Disk where
  sessions : Option (SlotMap SessionId Session)
  users : Option (WalletId → Option SavedUser)
  refunds : Option (WalletId → List NoteFile)

structure State where
  now : ℕ
  sessions : SlotMap SessionId Session
  busy : Bool
  users : WalletId → Option User
  claimedMaps : WalletId → List (List Code)
  sellerStats : SellerStats
  nextPid : Pid
  procs : Pid → Option Proc
  disk : Disk
  chain : EscrowNote → NoteStatus

/-! ## What the handlers send and start -/

/-- The answer that ends a response. -/
inductive Response
  | error (status : ℕ) (message : String)
  | sessionStarted (sid : SessionId) (budget : ℕ)
  | escrowConfirmed (sid : SessionId) (budget : ℕ)
  | reply (sid : SessionId) (answer : Answer) (totalCharge remaining : ℕ)
  | settled (sid : SessionId) (charge refund : ℕ) (refundNoteFileB64 : Option NoteFile)
  | redeemed (buyerId : WalletId) (code : Code)
  | wrongOrder (next : Option (Fin 100))
  | loggedIn (name : Json)
deriving DecidableEq

/-- The SSE feed of the seller's dashboard. -/
inductive SellerEvent
  | snapshot (stats : SellerStats)
  | jobStarted (tier model : String)
  | jobDone (tier model : String) (tokens charge : ℕ)
  | sessionSettled (charge : ℕ) (proposalId explorer : String)
deriving DecidableEq

/-- The JSON line of `settle_session`. -/
structure SettleJson where
  refund : ℕ
  settleProposalId : String
  refundNoteFileB64 : Option NoteFile
  sellerNoteFileB64 : Option NoteFile
  explorer : String
deriving DecidableEq

/-- What a `settle_session` run did on chain: it consumed the escrow and
created a refund, whose note file it can print. -/
structure Landing where
  refund : ℕ
  refundNoteFileB64 : NoteFile
deriving DecidableEq

/-- A finished `settle_session` run: its exit code (`none` when killed), what
the bridge reads off its output (`lastJson`, and the two phrases it tests for),
and what it did on chain, which the bridge does not see. -/
structure SettleRun where
  code : Option ℤ
  json : Option SettleJson
  saysSpent : Bool
  saysWedged : Bool
  landed : Option Landing
deriving DecidableEq

/-- The tests `end` and the sweeper make on a finished run, in their order. -/
inductive Verdict
  | settled (json : SettleJson)
  | spent
  | wedged
  | failed
deriving DecidableEq

def SettleRun.verdict (r : SettleRun) : Verdict :=
  match r.code, r.json with
  | some 0, some json => .settled json
  | _, _ =>
      if r.saysSpent then .spent
      else if r.saysWedged then .wedged
      else .failed

inductive Event
  | done (pid : Pid) (res : Response)
  | stage (pid : Pid) (name : String)
  | seller (e : SellerEvent)
  | settleStart (pid : Pid) (sid : SessionId) (charge : ℕ) (note : EscrowNote)
  | settleEnd (pid : Pid) (sid : SessionId) (charge : ℕ) (run : SettleRun)
  | refundRecorded (sid : SessionId) (buyerId : WalletId) (file : NoteFile)
  | evicted (sid : SessionId)
  | joaoStart (file : NoteFile)
  | fundStart (pid : Pid) (buyerId : WalletId) (code : Code)
  | fundEnd (pid : Pid) (buyerId : WalletId) (code : Code) (ok : Bool)
deriving DecidableEq

/-! ## Reading and writing the stores -/

namespace State

variable (st : State)

def hasAccount (w : WalletId) : Bool := ((st.users w).bind User.account).isSome

def spentBy (w : WalletId) : ℕ := ((st.users w).map User.spent).getD 0

def spawn (pid : Pid) (p : Proc) : State :=
  { st with procs := Function.update st.procs pid (some p) }

def finish (pid : Pid) : State :=
  { st with procs := Function.update st.procs pid none }

/-- A new handler: its pid is the old `nextPid`. -/
def arrive : State := { st with nextPid := st.nextPid + 1 }

/-- `sessions.set` for a new session. -/
def insert (sid : SessionId) (s : Session) : State :=
  { st with sessions := st.sessions.push sid s }

def modify (sid : SessionId) (f : Session → Session) : State :=
  { st with sessions := st.sessions.modify sid f }

/-- `sessions.delete`. -/
def evict (sid : SessionId) : State := { st with sessions := st.sessions.delete sid }

def setBusy (busy : Bool) : State := { st with busy }

def setStats (sellerStats : SellerStats) : State := { st with sellerStats }

/-- `persistSessions`; a failed write is caught and leaves the old snapshot. -/
def persistSessions (ok : Bool) : State :=
  if ok then { st with disk := { st.disk with sessions := some st.sessions.compact } } else st

/-- The object a stored reference to a claimed map points to. -/
def claimedMap (w : WalletId) (r : ℕ) : List Code := ((st.claimedMaps w)[r]?).getD []

/-- `users` by value, as `JSON.stringify` reads it. -/
def savedUsers (w : WalletId) : Option SavedUser :=
  (st.users w).map fun u => ⟨u.account, u.spent, u.codes.map (st.claimedMap w), u.redeemed⟩

/-- `saveUsers`; `none` when the write throws. -/
def saveUsers (ok : Bool) : Option State :=
  if ok then some { st with disk := { st.disk with users := some st.savedUsers } } else none

def loadRefunds : WalletId → List NoteFile := st.disk.refunds.getD fun _ => []

/-- The refunds of `w` after appending one: the last 20 are kept. -/
def appendRefund (w : WalletId) (file : NoteFile) : WalletId → List NoteFile :=
  let files := st.loadRefunds w ++ [file]
  Function.update st.loadRefunds w (files.drop (files.length - 20))

/-- `recordRefund`; `none` when the write throws. -/
def recordRefund (w : WalletId) (file : Option NoteFile) (ok : Bool) : Option State :=
  match file with
  | none => some st
  | some file =>
      if ok then some { st with disk := { st.disk with refunds := some (st.appendRefund w file) } }
      else none

def setUser (w : WalletId) (u : User) : State :=
  { st with users := Function.update st.users w (some u) }

/-- `users[w] || {}`. -/
def userOr (w : WalletId) : User := (st.users w).getD User.new

/-- The write to memory that `recordSpend` makes before it saves. -/
def addSpend (w : WalletId) (amount : ℕ) : State :=
  st.setUser w { st.userOr w with spent := st.spentBy w + amount }

/-! A write that does not throw changes its own store and nothing else. -/

section Saved

variable {st} {st' : State} {w : WalletId} {file : Option NoteFile} {ok : Bool}

theorem saveUsers_eq_some (h : st.saveUsers ok = some st') :
    st' = { st with disk := { st.disk with users := some st.savedUsers } } := by
  unfold saveUsers at h
  split at h
  · exact (Option.some.inj h).symm
  · cases h

theorem recordRefund_eq_some (h : st.recordRefund w file ok = some st') :
    (file.isNone || ok) = true ∧
      ∃ refunds, st' = { st with disk := { st.disk with refunds := refunds } } := by
  unfold recordRefund at h
  split at h
  · exact ⟨rfl, st.disk.refunds, (Option.some.inj h).symm⟩
  · split at h
    · next hok => exact ⟨hok, _, (Option.some.inj h).symm⟩
    · cases h

theorem recordRefund_eq_none (h : st.recordRefund w file ok = none) :
    (file.isNone || ok) = false := by
  unfold recordRefund at h
  split at h
  · cases h
  · split at h
    · cases h
    · next hok => exact Bool.eq_false_iff.mpr hok

end Saved

end State

end Bartok.Bridge
