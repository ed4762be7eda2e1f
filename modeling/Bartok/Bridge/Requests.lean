import Bartok.Bridge.Step
import Bartok.Foundation.JsonValue

/-!
# What clients send

A body is bytes. It is decoded and parsed, and its members are taken for what the
handler needs them to be: here a handler is traced from the bytes on. A member of the
wrong type goes through the conversions of JavaScript, and some of those throw; so does
`JSON.stringify` on a member that the handler passes on and that is nested too deep. In
`/api/chat` and `/api/session/end` a `catch` answers; elsewhere the exception escapes
the callback and the request gets no answer, which is a result without events.
-/

namespace Bartok.Bridge

open Foundation Json

/-- The conversions of JavaScript and Node that a handler calls without looking into
what comes back. -/
structure Runtime where
  /-- `Number(value)`, where it does not throw. -/
  number : Json → JsNumber
  /-- `String(number)`. -/
  numText : NumLit → Utf16
  /-- How deep nested arrays may be for `String`. -/
  stack : ℕ
  /-- `JSON.stringify` returns on this member of an answer. It throws on what is nested too
  deep. -/
  stringifies : Json → Bool
  /-- The same for the records that `saveUsers` prints, names included. -/
  stringifiesUsers : (WalletId → Option SavedUser) → Bool
  /-- The session that a key of the map stands for. -/
  session : Utf16 → Option SessionId
  /-- `scryptSync(password, salt, 32)` in hex. -/
  scrypt : Utf16 → String → String
  /-- The message of the exception of `JSON.parse`. -/
  syntaxError : Text → String

/-- A JavaScript string as the model writes it in a place for names. What JSON escapes
stays escaped, and the empty string is a pair of quotes: no two strings are one, and
none is empty, which is how the model writes what a body does not have. -/
def nameText (us : Utf16) : String :=
  if us = [] then "\"\"" else String.ofList (Text.quote us)

/-- `body.name`. -/
def field (name : String) : Json → Option Json
  | .obj ms => lookup name ms
  | _ => none

namespace Runtime

variable (rt : Runtime)

/-- The value as a property key; `none` when the conversion throws. -/
def key (v : Json) : Option String := (v.toText rt.numText rt.stack).map nameText

/-- `Number(value)`; `none` when it throws. -/
def toNumber (v : Json) : Option JsNumber :=
  (v.toText rt.numText rt.stack).map fun _ => rt.number v

/-- `sessions.get(value)` finds strings only. -/
def sessionOf : Option Json → Option SessionId
  | some (.str us) => rt.session us
  | _ => none

/-- The stores that a step writes: `saveUsers` prints the records as the step has left them
in memory, whether it then can write them or not. -/
def saves (st : State) (i : Input) : Writes :=
  { i.writes with
    users := i.writes.users && (step st i).any fun r => rt.stringifiesUsers r.1.savedUsers }

end Runtime

/-- `!value`, where `undefined` is the value of a missing member. -/
def falsy (v : Option Json) : Bool := !v.any truthy

/-- The text of a value in a place where the bridge passes it on unread. -/
def shownText : Json → String
  | .str us => nameText us
  | v => String.ofList (print compact 0 v)

/-- The `prompt`, as far as the bridge tells prompts apart. -/
def promptText (v : Option Json) : JsString :=
  match v with
  | some (.str us) => us
  | some v => if truthy v then utf16 (shownText v) else []
  | none => []

/-! ## Bodies -/

/-- The text of a body that came in these chunks. -/
def readBody (chunks : List (List UInt8)) : Text := chunks.flatMap Text.fromUtf8Lossy

/-- `JSON.parse(text || '{}')`. -/
def parseBody (text : Text) : Option Json := parse (if text = [] then ['{', '}'] else text)

/-- A body that is one chunk of JSON. -/
theorem parseBody_print (members : List (Utf16 × Json)) :
    parseBody (readBody [Text.encodeUtf8 (print compact 0 (.obj members))]) = some (.obj members) := by
  have hread : readBody [Text.encodeUtf8 (print compact 0 (.obj members))] =
      print compact 0 (.obj members) := by
    rw [readBody, List.flatMap_singleton, Text.fromUtf8Lossy_encodeUtf8]
  obtain ⟨s, hs⟩ := print_obj_head compact members
  have hne : print compact 0 (.obj members) ≠ [] := by
    rw [hs]
    exact List.cons_ne_nil _ _
  rw [hread, parseBody, if_neg hne, parse_print]

namespace State

variable (rt : Runtime) (st : State)

/-! ## The handlers -/

/-- An answer that leaves everything as it is. -/
def refuse (status : ℕ) (message : String) : State × List Event :=
  (st.arrive, [.done st.nextPid (.error status message)])

/-- An exception escapes before anything is written. -/
def escape : State × List Event := (st.arrive, [])

/-- The hold, and the command line of `build_escrow`, which needs the buyer as text. -/
def startHold (wallet : Option WalletId) (tier : String) (balance : Option JsNumber) :
    State × List Event :=
  match balance with
  | none => st.escape
  | some balance =>
      match tierEntry tier with
      | .own t =>
          if belowMinHold t balance.units then st.refuse 400 "insufficient_credits"
          else
            match wallet with
            | none => st.escape
            | some w => (st.arrive.spawn st.nextPid
                (.buildEscrow w tier (some (sessionBudget t balance.units))), [])
      | _ =>
          match wallet with
          | none => st.escape
          | some w => (st.arrive.spawn st.nextPid (.buildEscrow w tier none), [])

/-- `balance = 0`. -/
def balanceOf (body : Json) : Option JsNumber :=
  match field "balance" body with
  | some balance => rt.toNumber balance
  | none => some (.finite 0 0)

/-- `tier = 'basic'`, as the key that `TIERS` is asked for. -/
def tierOf (body : Json) : Option String :=
  match field "tier" body with
  | some tier => rt.key tier
  | none => some "basic"

/-- `tier`, as an answer passes it on. -/
def tierSent (body : Json) : Json := (field "tier" body).getD (.str (utf16 "basic"))

def postStart (body : Json) : State × List Event :=
  if falsy (field "buyerId" body) then st.refuse 400 "missing buyerId"
  else
    let wallet := (field "buyerId" body).bind rt.key
    match tierOf rt body with
    | none => st.escape
    | some tier =>
        if tierEntry tier = .missing then st.refuse 400 "unknown tier"
        else if (tierEntry tier).requiresAccount then
          match wallet with
          -- `users[buyerId]`
          | none => st.escape
          | some w =>
              if st.hasAccount w then st.startHold wallet tier (balanceOf rt body)
              else if rt.stringifies (tierSent body) then st.refuse 403 "account_required"
              else st.escape
        else st.startHold wallet tier (balanceOf rt body)

def postEscrow (body : Json) : State × List Event :=
  match rt.sessionOf (field "sessionId" body) with
  | none => st.refuse 404 "unknown session"
  | some sid => st.sessionEscrow sid

/-- The message of an exception in a conversion to a key. -/
def noPrimitive : String := "Cannot convert object to primitive value"

/-- The message of an exception in a recursion that goes too deep. -/
def stackExceeded : String := "Maximum call stack size exceeded"

/-- A chat whose body names the tier, which `sellerBroadcast` passes on. -/
def chatTold (req : ChatRequest) (tier : Json) : State × List Event :=
  match (st.chatGate req).toOption.map fun s => tierEntry (req.msgTier s) with
  | some (.own _) => if rt.stringifies tier then st.chat req else st.refuse 200 stackExceeded
  | _ => st.chat req

/-- `/api/chat` parses the body inside its own `try`. -/
def postChat (text : Text) (body : Option Json) : State × List Event :=
  match body with
  | none => st.refuse 200 (rt.syntaxError text)
  | some .null => st.refuse 200
      "Cannot destructure property 'sessionId' of 'JSON.parse(...)' as it is null."
  | some body =>
      match rt.sessionOf (field "sessionId" body) with
      | none => st.refuse 200 "unknown session"
      | some sid =>
          let prompt := promptText (field "prompt" body)
          if falsy (field "tier" body) then st.chat ⟨sid, prompt, none⟩
          else
            match (field "tier" body).bind rt.key with
            | some tier => st.chatTold rt ⟨sid, prompt, some tier⟩ (tierSent body)
            -- `TIERS[msgTier]` throws where an unknown tier would be refused
            | none =>
                match st.chatGate ⟨sid, prompt, some (nameText [])⟩ with
                | .error e => st.refuse 200 (if e = "unknown tier" then noPrimitive else e)
                | .ok _ => st.refuse 200 noPrimitive

def postEnd (body : Option Json) : State × List Event :=
  match body.filter truthy with
  | none => st.refuse 200 "bad_json"
  | some body =>
      match rt.sessionOf (field "sessionId" body) with
      | none => st.refuse 200 "unknown session"
      | some sid => st.sessionEnd sid

/-- `code || ''`; what is not a string has no `trim`. -/
def codeOf (v : Option Json) : Option String :=
  if falsy v then some ""
  else
    match v with
    | some (.str us) => some (String.ofList (us.map fun u => Char.ofNat u.toNat))
    | _ => none

def postRedeem (body : Json) : State × List Event :=
  if falsy (field "buyerId" body) then st.refuse 400 "missing buyerId"
  else
    match codeOf (field "code" body) with
    | none => st.escape
    | some c =>
        if parseCode c = none then st.refuse 400 "bad_code"
        else
          match (field "buyerId" body).bind rt.key with
          | none => st.escape
          | some w => st.redeem w c

/-- The `password` that `scryptSync` takes. -/
def passwordOf : Option Json → Option Utf16
  | some (.str us) => some us
  | _ => none

/-- A registration, whose answer tells the name. -/
def registerTold (req : RegisterRequest) (wr : Writes) : State × List Event :=
  let r := st.register req (rt.saves st ⟨.register req, wr⟩)
  -- `json` comes after `saveUsers`: the account is there
  if rt.stringifies (nameOr req.name) then r else (r.1, [])

def postRegister (body : Json) (salt : String) (wr : Writes) : State × List Event :=
  if falsy (field "buyerId" body) || falsy (field "password" body) then
    st.refuse 400 "missing fields"
  else
    match (field "buyerId" body).bind rt.key with
    | none => st.escape
    | some w =>
        if st.hasAccount w then st.refuse 400 "exists"
        else
          match passwordOf (field "password" body) with
          | none => st.escape
          | some password =>
              st.registerTold rt
                ⟨w, field "name" body, nameText password, salt, rt.scrypt password salt⟩ wr

def postLogin (body : Json) : State × List Event :=
  if falsy (field "buyerId" body) || falsy (field "password" body) then
    st.refuse 400 "missing fields"
  else
    match (field "buyerId" body).bind rt.key with
    | none => st.escape
    | some w =>
        match (st.users w).bind User.account with
        | none => st.refuse 401 "no_account"
        | some account =>
            match passwordOf (field "password" body) with
            | none => st.escape
            | some password =>
                let hash := rt.scrypt password account.salt
                if hash = account.hash ∧ rt.stringifies account.name = false then st.escape
                else st.login w (nameText password) hash

end State

/-! ## Requests -/

inductive Endpoint
  | start
  | escrow
  | chat
  | endSession
  | redeem
  | register
  | login
deriving DecidableEq

/-- The endpoints that ask `rateOk` first. -/
def Endpoint.limited : Endpoint → Bool
  | .escrow | .endSession => false
  | _ => true

/-- A `POST`, with what `rateOk` answers and the salt that a registration draws. -/
structure Post where
  endpoint : Endpoint
  rateOk : Bool
  chunks : List (List UInt8)
  salt : String

namespace State

variable (rt : Runtime) (st : State)

/-- `readJson`, which answers `null` for what is not JSON, and the refusal of what is falsy
that follows it. -/
def withJson (body : Option Json) (handler : Json → State × List Event) : State × List Event :=
  match body.filter truthy with
  | none => st.refuse 400 "bad_json"
  | some body => handler body

/-- The handler of the endpoint, on a text and what it parses to. -/
def dispatch (p : Post) (text : Text) (body : Option Json) (wr : Writes) : State × List Event :=
  if p.endpoint.limited && !p.rateOk then st.refuse 429 "slow down"
  else
    match p.endpoint with
    | .start => st.withJson body (st.postStart rt)
    | .escrow => st.withJson body (st.postEscrow rt)
    | .chat => st.postChat rt text body
    | .endSession => st.postEnd rt body
    | .redeem => st.withJson body (st.postRedeem rt)
    | .register => st.withJson body fun body => st.postRegister rt body p.salt wr
    | .login => st.withJson body (st.postLogin rt)

def post (p : Post) (wr : Writes) : State × List Event :=
  st.dispatch rt p (readBody p.chunks) (parseBody (readBody p.chunks)) wr

/-- `spawn` throws when the turn of a handler's process comes. Only the settlements catch
that. -/
def spawnThrows (pid : Pid) (message : String) : Option (State × List Event) :=
  match st.procs pid with
  | some (.buildEscrow _ _ _) | some (.verifyEscrow _) | some (.fundBuyer _ _ _) =>
      some (st.finish pid, [])
  | some (.endSettle sid _ _) =>
      some ((st.modify sid release).finish pid, [.done pid (.error 200 message)])
  | some (.sweepSettle sid _ cursor) => some ((st.releaseCurrent sid).sweepFrom pid cursor)
  | some (.joaoSweep _) => some (st.finish pid, [])
  | _ => none

end State

/-- What can happen to the bridge, with requests as clients send them. -/
inductive Arrival
  | post (p : Post)
  | spawnThrows (pid : Pid) (message : String)
  /-- An action that is no request. -/
  | other (act : Action)

/-- The wallet that the body of a request names. -/
def Arrival.wallet (rt : Runtime) : Arrival → Option WalletId
  | .post p => ((parseBody (readBody p.chunks)).bind (field "buyerId")).bind rt.key
  | _ => none

/-- The endpoint that an action is a request to. -/
def Action.endpoint : Action → Option Endpoint
  | .start _ => some .start
  | .escrow _ => some .escrow
  | .chat _ => some .chat
  | .endSession _ => some .endSession
  | .redeem _ _ => some .redeem
  | .register _ => some .register
  | .login _ _ _ => some .login
  | _ => none

structure Served where
  arrival : Arrival
  writes : Writes

def serve (rt : Runtime) (st : State) (i : Served) : Option (State × List Event) :=
  match i.arrival with
  | .post p => some (st.post rt p i.writes)
  | .spawnThrows pid message => st.spawnThrows pid message
  | .other act =>
      if act.endpoint = none then step st ⟨act, rt.saves st ⟨act, i.writes⟩⟩ else none

/-! ## Handlers on well-formed input

Where no conversion throws, a handler does what it does on the values converted, or it
has refused the request before it reads them. -/

section WellFormed

open State

variable {rt : Runtime} {st : State} {wr : Writes}

/-- Nothing was done but to answer, if at all. -/
def Refused (st : State) (r : State × List Event) : Prop :=
  r.1 = st.arrive ∧ (r.2 = [] ∨ ∃ status message, r.2 = [.done st.nextPid (.error status message)])

theorem refused_refuse {status : ℕ} {message : String} : Refused st (st.refuse status message) :=
  ⟨rfl, .inr ⟨status, message, rfl⟩⟩

theorem refused_escape : Refused st st.escape := ⟨rfl, .inl rfl⟩

/-- A quoted string alone is read back. -/
theorem scan_quoted (us : Utf16) : Text.scanStr .plain (Text.quote us ++ ['"']) = some (us, []) :=
  Text.scanStr_quote us

theorem quote_eq_nil {us : Utf16} (h : Text.quote us = []) : us = [] := by
  have hscan := scan_quoted us
  rw [h] at hscan
  exact (congrArg Prod.fst (Option.some.inj hscan)).symm

theorem nameText_ne (us : Utf16) : nameText us ≠ "" := by
  unfold nameText
  split
  · decide
  · next hne =>
      intro h
      exact hne (quote_eq_nil (String.ofList_eq_empty_iff.mp h))

/-- Different strings have different names. -/
theorem nameText_injective : Function.Injective nameText := by
  have hempty : ∀ us : Utf16, us ≠ [] → "\"\"" ≠ String.ofList (Text.quote us) := by
    intro us hne h
    have hscan := scan_quoted us
    rw [← String.ofList_injective h] at hscan
    exact hne (congrArg Prod.fst (Option.some.inj hscan)).symm
  intro us vs h
  unfold nameText at h
  split at h
  · next hus =>
      split at h
      · next hvs => rw [hus, hvs]
      · next hvs => exact absurd h (hempty vs hvs)
  · next hus =>
      split at h
      · exact absurd h.symm (hempty us hus)
      · have hquote : Text.quote us = Text.quote vs := String.ofList_injective h
        have hscan := scan_quoted us
        rw [hquote, scan_quoted] at hscan
        exact (congrArg Prod.fst (Option.some.inj hscan)).symm

theorem key_ne {v : Json} {w : String} (h : rt.key v = some w) : w ≠ "" := by
  obtain ⟨us, -, rfl⟩ := Option.map_eq_some_iff.mp h
  exact nameText_ne us

theorem startHold_cases {wallet : Option WalletId} {tier : String} {balance : Option JsNumber}
    (htier : tierEntry tier ≠ .missing)
    (haccount : (tierEntry tier).requiresAccount = true → ∃ w ∈ wallet, st.hasAccount w = true)
    (hwallet : ∀ w ∈ wallet, w ≠ "") :
    Refused st (st.startHold wallet tier balance) ∨ ∃ w b, balance = some b ∧
      st.startHold wallet tier balance = st.sessionStart ⟨w, tier, b⟩ := by
  cases balance with
  | none => exact .inl refused_escape
  | some b =>
      cases wallet with
      | none =>
          refine .inl ?_
          unfold startHold
          dsimp only
          split
          · split
            · exact refused_refuse
            · exact refused_escape
          · exact refused_escape
      | some w =>
          have hmay : ((tierEntry tier).requiresAccount && !st.arrive.hasAccount w) = false := by
            rw [Bool.and_eq_false_iff, Bool.not_eq_false']
            cases hreq : (tierEntry tier).requiresAccount with
            | false => exact .inl rfl
            | true =>
                obtain ⟨w', hw', hacc⟩ := haccount hreq
                exact .inr (Option.some.inj hw' ▸ hacc)
          refine .inr ⟨w, b, rfl, ?_⟩
          unfold startHold sessionStart
          cases hentry : tierEntry tier with
          | missing => exact absurd hentry htier
          | inherited =>
              rw [hentry] at hmay
              simp [hwallet w rfl, hmay]
          | own t =>
              rw [hentry] at hmay
              simp only [hwallet w rfl, hmay, if_false, Bool.false_eq_true, reduceCtorEq]
              split <;> rfl

theorem postStart_cases (body : Json) :
    Refused st (st.postStart rt body) ∨ ∃ w tier b, balanceOf rt body = some b ∧
      st.postStart rt body = st.sessionStart ⟨w, tier, b⟩ := by
  have hwallet : ∀ w ∈ (field "buyerId" body).bind rt.key, w ≠ "" := by
    intro w hw
    obtain ⟨v, -, hv⟩ := Option.bind_eq_some_iff.mp hw
    exact key_ne hv
  unfold postStart
  dsimp only
  split
  · exact .inl refused_refuse
  · split
    · exact .inl refused_escape
    · next tier _ =>
        split
        · exact .inl refused_refuse
        · next htier =>
            split
            · split
              · exact .inl refused_escape
              · next w hw =>
                  split
                  · next hacc =>
                      refine (startHold_cases htier (fun _ => ⟨w, hw, hacc⟩) hwallet).imp_right ?_
                      rintro ⟨w, b, hb, heq⟩
                      exact ⟨w, tier, b, hb, heq⟩
                  · split
                    · exact .inl refused_refuse
                    · exact .inl refused_escape
            · next hfree =>
                apply (startHold_cases htier (fun h => absurd h hfree) hwallet).imp_right
                rintro ⟨w, b, hb, heq⟩
                exact ⟨w, tier, b, hb, heq⟩

/-- The result is that of a request of the typed model, to the same endpoint, but for an
answer that may get lost. -/
def Typed (endpoint : Endpoint) (st : State) (r : State × List Event) : Prop :=
  ∃ act wr r', act.endpoint = some endpoint ∧ step st ⟨act, wr⟩ = some r' ∧ r.1 = r'.1 ∧
    r.2 ⊆ r'.2

theorem typed_arrival {endpoint : Endpoint} {r : State × List Event} (act : Action)
    (hend : act.endpoint = some endpoint) (h : step st ⟨act, .ok⟩ = some r) :
    Typed endpoint st r := ⟨act, .ok, r, hend, h, rfl, List.Subset.refl _⟩

theorem postEscrow_cases (body : Json) :
    Refused st (st.postEscrow rt body) ∨ Typed .escrow st (st.postEscrow rt body) := by
  unfold postEscrow
  split
  · exact .inl refused_refuse
  · next sid _ => exact .inr (typed_arrival (.escrow sid) rfl rfl)

theorem chatTold_cases (req : ChatRequest) (tier : Json) :
    st.chatTold rt req tier = st.chat req ∨ Refused st (st.chatTold rt req tier) := by
  unfold chatTold
  split
  · split
    · exact .inl rfl
    · exact .inr refused_refuse
  · exact .inl rfl

theorem postChat_cases (text : Text) (body : Option Json) :
    Refused st (st.postChat rt text body) ∨ Typed .chat st (st.postChat rt text body) := by
  have hchat : ∀ req, Typed .chat st (st.chat req) := fun req => typed_arrival (.chat req) rfl rfl
  unfold postChat
  split
  · exact .inl refused_refuse
  · exact .inl refused_refuse
  · split
    · exact .inl refused_refuse
    · dsimp only
      split
      · exact .inr (hchat _)
      · split
        · next tier _ =>
            rcases chatTold_cases ⟨_, _, some tier⟩ _ with htold | hrefused
            · exact .inr (htold ▸ hchat _)
            · exact .inl hrefused
        · split <;> exact .inl refused_refuse

theorem postEnd_cases (body : Option Json) :
    Refused st (st.postEnd rt body) ∨ Typed .endSession st (st.postEnd rt body) := by
  unfold postEnd
  split
  · exact .inl refused_refuse
  · split
    · exact .inl refused_refuse
    · next sid _ => exact .inr (typed_arrival (.endSession sid) rfl rfl)

theorem postRedeem_cases (body : Json) :
    Refused st (st.postRedeem rt body) ∨ Typed .redeem st (st.postRedeem rt body) := by
  unfold postRedeem
  split
  · exact .inl refused_refuse
  · split
    · exact .inl refused_escape
    · split
      · exact .inl refused_refuse
      · split
        · exact .inl refused_escape
        · next c _ _ _ w _ => exact .inr (typed_arrival (.redeem w c) rfl rfl)

theorem typed_registerTold (req : RegisterRequest) :
    Typed .register st (st.registerTold rt req wr) := by
  refine ⟨.register req, rt.saves st ⟨.register req, wr⟩, _, rfl, rfl, ?_, ?_⟩
  · unfold registerTold
    dsimp only
    split <;> rfl
  · unfold registerTold
    dsimp only
    split
    · exact List.Subset.refl _
    · exact List.nil_subset _

theorem postRegister_cases (body : Json) (salt : String) :
    Refused st (st.postRegister rt body salt wr) ∨
      Typed .register st (st.postRegister rt body salt wr) := by
  unfold postRegister
  split
  · exact .inl refused_refuse
  · split
    · exact .inl refused_escape
    · split
      · exact .inl refused_refuse
      · split
        · exact .inl refused_escape
        · exact .inr (typed_registerTold _)

theorem postLogin_cases (body : Json) :
    Refused st (st.postLogin rt body) ∨ Typed .login st (st.postLogin rt body) := by
  unfold postLogin
  split
  · exact .inl refused_refuse
  · split
    · exact .inl refused_escape
    · split
      · exact .inl refused_refuse
      · split
        · exact .inl refused_escape
        · dsimp only
          split
          · exact .inl refused_escape
          · exact .inr (typed_arrival (.login _ _ _) rfl rfl)

theorem withJson_cases {endpoint : Endpoint} {handler : Json → State × List Event}
    (body : Option Json) (h : ∀ v, Refused st (handler v) ∨ Typed endpoint st (handler v)) :
    Refused st (st.withJson body handler) ∨ Typed endpoint st (st.withJson body handler) := by
  unfold withJson
  split
  · exact .inl refused_refuse
  · exact h _

/-- **A request is refused, or it is one of the requests of the typed model.** The
balance of a request for a session is the one in the body. -/
theorem dispatch_cases (p : Post) (text : Text) (body : Option Json) :
    Refused st (st.dispatch rt p text body wr) ∨ ∃ act w r, act.endpoint = some p.endpoint ∧
      step st ⟨act, w⟩ = some r ∧ (st.dispatch rt p text body wr).1 = r.1 ∧
        (st.dispatch rt p text body wr).2 ⊆ r.2 ∧
          ∀ req, act = .start req → body.bind (balanceOf rt) = some req.balance := by
  have htyped : ∀ {e r}, e ≠ .start → Typed e st r → ∃ act w r', act.endpoint = some e ∧
      step st ⟨act, w⟩ = some r' ∧ r.1 = r'.1 ∧ r.2 ⊆ r'.2 ∧
        ∀ req, act = .start req → body.bind (balanceOf rt) = some req.balance := by
    rintro e r hne ⟨act, w, r', hend, hstep, hst, hes⟩
    refine ⟨act, w, r', hend, hstep, hst, hes, ?_⟩
    rintro req rfl
    exact absurd (Option.some.inj hend).symm hne
  unfold dispatch
  split
  · exact .inl refused_refuse
  · cases p.endpoint with
    | start =>
        dsimp only
        unfold withJson
        split
        · exact .inl refused_refuse
        · next v hv =>
            obtain rfl := (Option.filter_eq_some_iff.mp hv).1
            apply (postStart_cases v).imp_right
            rintro ⟨w, tier, b, hb, heq⟩
            refine ⟨.start ⟨w, tier, b⟩, wr, _, rfl, rfl, congrArg Prod.fst heq, ?_, ?_⟩
            · rw [heq]
              exact List.Subset.refl _
            · rintro req ⟨⟩
              exact hb
    | escrow => exact (withJson_cases body postEscrow_cases).imp_right (htyped nofun)
    | chat => exact (postChat_cases text body).imp_right (htyped nofun)
    | endSession => exact (postEnd_cases body).imp_right (htyped nofun)
    | redeem => exact (withJson_cases body postRedeem_cases).imp_right (htyped nofun)
    | register =>
        exact (withJson_cases body fun v => postRegister_cases v p.salt).imp_right (htyped nofun)
    | login => exact (withJson_cases body postLogin_cases).imp_right (htyped nofun)

theorem dispatch_typed (p : Post) (text : Text) (body : Option Json) :
    Refused st (st.dispatch rt p text body wr) ∨ Typed p.endpoint st (st.dispatch rt p text body wr) :=
  (dispatch_cases p text body).imp_right fun ⟨act, w, r, hend, hstep, hst, hes, _⟩ =>
    ⟨act, w, r, hend, hstep, hst, hes⟩

end WellFormed

end Bartok.Bridge
