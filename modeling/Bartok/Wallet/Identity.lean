import Bartok.Foundation.JsonText
import Bartok.Foundation.Trace

/-!
# The wallet's identity

`init` gives a browser its signer and its account. It stops at any of its calls: the tab is
closed, or a call throws and `init` is tried again. What is kept over the visits is in two
items of `localStorage` and in the Guardian, which has the accounts that were registered for
a signer. The signer is never made anew, since that would orphan the account; a visit that
stopped after it registered an account and before it saved it is made good by asking the
Guardian.
-/

namespace Bartok.Wallet

set_option linter.unusedSectionVars false

open Foundation Text

/-! ## Signers -/

/-- `bytesToHex`. -/
def bytesToHex (bytes : List UInt8) : Text := hexEncode bytes

/-- A code unit that `.` does not match. -/
def isLineTerminator (u : UInt16) : Bool := u ∈ [0x0A, 0x0D, 0x2028, 0x2029]

/-- The matches of `/.{2}/g`. -/
def hexPairs : Utf16 → List (UInt16 × UInt16)
  | u :: v :: us =>
      if isLineTerminator u || isLineTerminator v then hexPairs (v :: us)
      else (u, v) :: hexPairs us
  | _ => []

/-- What `parseInt` skips. -/
def isJsSpace (u : UInt16) : Bool :=
  u ∈ [0x09, 0x0A, 0x0B, 0x0C, 0x0D, 0x20, 0xA0, 0x1680, 0x2028, 0x2029, 0x202F, 0x205F, 0x3000,
    0xFEFF] || (0x2000 ≤ u && u ≤ 0x200A)

/-- The digits at the head of a text, as a number; `none` when there is none. -/
def leadingHex (us : Utf16) : Option ℕ :=
  match ((us.map fun u => hexValue (Char.ofNat u.toNat)).takeWhile Option.isSome).reduceOption with
  | [] => none
  | digits => some (digits.foldl (fun n d => 16 * n + d) 0)

/-- The text without a `0x` at its head. -/
def withoutHexPrefix : Utf16 → Utf16
  | u :: v :: us => if u = 0x30 ∧ (v = 0x78 ∨ v = 0x58) then us else u :: v :: us
  | us => us

/-- `parseInt(text, 16)`, with `none` for `NaN`: it skips white space, takes a sign and `0x`,
and stops at what is no digit. -/
def parseIntHex (us : Utf16) : Option ℤ :=
  let us := us.dropWhile isJsSpace
  let sign : ℤ := if us.head? = some 0x2D then -1 else 1
  let us := if us.head? = some 0x2D ∨ us.head? = some 0x2B then us.tail else us
  (leadingHex (withoutHexPrefix us)).map fun n => sign * n

/-- An element of a `Uint8Array`. -/
def toUint8 (n : Option ℤ) : UInt8 := UInt8.ofNat (n.getD 0 % 256).toNat

/-- `hexToBytes`, which throws when there is no pair. -/
def hexToBytes (hex : Text) : Option (List UInt8) :=
  match hexPairs (hex.flatMap units) with
  | [] => none
  | pairs => some (pairs.map fun pair => toUint8 (parseIntHex [pair.1, pair.2]))

/-- The code unit of a digit. -/
def digitUnit (n : ℕ) : UInt16 := UInt16.ofNat (hexDigit n).toNat

theorem units_hexDigit {n : ℕ} (h : n < 16) :
    units (hexDigit n) = [digitUnit n] ∧ isLineTerminator (digitUnit n) = false := by
  have hall : ∀ n : Fin 16, units (hexDigit n) = [digitUnit n] ∧
      isLineTerminator (digitUnit n) = false := by decide
  exact hall ⟨n, h⟩

theorem parseIntHex_digits {m n : ℕ} (hm : m < 16) (hn : n < 16) :
    parseIntHex [digitUnit m, digitUnit n] = some (16 * m + n : ℤ) := by
  have hall : ∀ m n : Fin 16,
      parseIntHex [digitUnit m, digitUnit n] = some (16 * (m : ℕ) + (n : ℕ) : ℤ) := by decide
  exact hall ⟨m, hm⟩ ⟨n, hn⟩

theorem hexToBytes_bytesToHex {bytes : List UInt8} (h : bytes ≠ []) :
    hexToBytes (bytesToHex bytes) = some bytes := by
  have hpairs : ∀ bytes : List UInt8, hexPairs ((bytesToHex bytes).flatMap units) =
      bytes.map fun b => (digitUnit (b.toNat / 16), digitUnit (b.toNat % 16)) := by
    intro bytes
    induction bytes with
    | nil => rfl
    | cons b bytes ih =>
        have hb : b.toNat < 256 := b.toNat_lt
        obtain ⟨hhigh, hhighDot⟩ := units_hexDigit (n := b.toNat / 16) (by omega)
        obtain ⟨hlow, hlowDot⟩ := units_hexDigit (n := b.toNat % 16) (by omega)
        show hexPairs ((hexDigit (b.toNat / 16) :: hexDigit (b.toNat % 16) ::
          bytesToHex bytes).flatMap units) = _
        rw [List.flatMap_cons, List.flatMap_cons, hhigh, hlow, List.map_cons, ← ih]
        simp [hexPairs, hhighDot, hlowDot]
  have hbyte : ∀ b : UInt8,
      toUint8 (parseIntHex [digitUnit (b.toNat / 16), digitUnit (b.toNat % 16)]) = b := by
    intro b
    have hb : b.toNat < 256 := b.toNat_lt
    rw [parseIntHex_digits (by omega) (by omega), toUint8, Option.getD_some]
    have hsplit : ((16 * (b.toNat / 16 : ℕ) + (b.toNat % 16 : ℕ) : ℤ) % 256).toNat = b.toNat := by
      omega
    rw [hsplit, UInt8.ofNat_toNat]
  rw [hexToBytes, hpairs]
  cases bytes with
  | nil => exact absurd rfl h
  | cons b bytes =>
      show some (((b :: bytes).map _).map _) = _
      rw [List.map_map]
      exact congrArg some (List.map_id'' hbyte _)

example : hexToBytes "zf0xf -1".toList = some [0, 0, 15, 255] := by decide

/-- What the SDK does with a secret key. -/
structure SignerSdk (Secret Commitment : Type) where
  serialize : Secret → List UInt8
  deserialize : List UInt8 → Option Secret
  commitment : Secret → Commitment
  deserialize_serialize : ∀ s, deserialize (serialize s) = some s
  serialize_ne_nil : ∀ s, serialize s ≠ []

variable {Tab Secret Commitment AccountId : Type}

/-- The item `bartok-rita-signer` of a signer. -/
def SignerSdk.item (sdk : SignerSdk Secret Commitment) (s : Secret) : Text :=
  bytesToHex (sdk.serialize s)

def SignerSdk.ofItem (sdk : SignerSdk Secret Commitment) (item : Text) : Option Secret :=
  (hexToBytes item).bind sdk.deserialize

@[simp] theorem SignerSdk.ofItem_item (sdk : SignerSdk Secret Commitment) (s : Secret) :
    sdk.ofItem (sdk.item s) = some s := by
  rw [ofItem, item, hexToBytes_bytesToHex (sdk.serialize_ne_nil s)]
  exact sdk.deserialize_serialize s

/-! ## Visits -/

/-- The two items of `localStorage`. -/
structure LocalStorage (AccountId : Type) where
  signer : Option Text
  account : Option AccountId

/-- What `init` waits for in a tab, with the values it has. -/
inductive Visit (Secret AccountId : Type)
  /-- The client is made and synced. -/
  | opening
  /-- `load`; `recovered` when the account comes from the Guardian and is not saved. -/
  | loading (s : Secret) (id : AccountId) (recovered : Bool)
  | recovering (s : Secret)
  /-- `getPubkey`. -/
  | asking (s : Secret)
  | creating (s : Secret)
  | registering (s : Secret) (id : AccountId)
  /-- `syncState`, the last call. -/
  | syncing (s : Secret) (id : AccountId)
  | ready (s : Secret) (id : AccountId)
deriving DecidableEq

def Visit.secret : Visit Secret AccountId → Option Secret
  | .opening => none
  | .loading s _ _ | .recovering s | .asking s | .creating s | .registering s _ | .syncing s _
  | .ready s _ => some s

structure World (Tab Secret Commitment AccountId : Type) where
  storage : LocalStorage AccountId
  /-- The accounts that were registered, and the signer each of them is for. -/
  guardian : List (AccountId × Commitment)
  tabs : Tab → Option (Visit Secret AccountId)

inductive WalletAction (Tab Secret AccountId : Type)
  /-- `init` is called. -/
  | visit (t : Tab)
  /-- The client is there; `fresh` is the key that would be made. -/
  | opened (t : Tab) (fresh : Secret)
  | loaded (t : Tab)
  /-- `recoverByKey` answers accounts in an order of its own, or throws. -/
  | recovered (t : Tab) (answer : Option (List AccountId))
  | pubkey (t : Tab)
  | created (t : Tab) (id : AccountId)
  /-- The Guardian has the account; its answer comes, or it is lost and the call throws. -/
  | registered (t : Tab) (answered : Bool)
  | synced (t : Tab)
  /-- A call throws without having done anything, or the tab is closed. -/
  | stop (t : Tab)

inductive WalletEvent (Secret Commitment AccountId : Type)
  | signerSaved (item : Text)
  | accountSaved (id : AccountId)
  | lookupFailed
  | accountRegistered (id : AccountId) (c : Commitment)
  /-- What `init` resolves to. -/
  | answered (id : AccountId)
deriving DecidableEq

namespace World

variable (sdk : SignerSdk Secret Commitment) [DecidableEq Tab] [DecidableEq Commitment]
  [DecidableEq AccountId] (w : World Tab Secret Commitment AccountId)

def setTab (t : Tab) (v : Option (Visit Secret AccountId)) : World Tab Secret Commitment AccountId :=
  { w with tabs := Function.update w.tabs t v }

def saveSigner (item : Text) : World Tab Secret Commitment AccountId :=
  { w with storage := { w.storage with signer := some item } }

def saveAccount (id : AccountId) : World Tab Secret Commitment AccountId :=
  { w with storage := { w.storage with account := some id } }

def register (id : AccountId) (c : Commitment) : World Tab Secret Commitment AccountId :=
  { w with guardian := w.guardian ++ [(id, c)] }

/-- What the Guardian has for a signer. -/
def accountsOf (c : Commitment) : List AccountId :=
  (w.guardian.filter fun e => e.2 = c).map Prod.fst

/-- Behind the signer, without an `await` between. -/
def withSigner (t : Tab) (s : Secret) : World Tab Secret Commitment AccountId :=
  match w.storage.account with
  | some id => w.setTab t (some (.loading s id false))
  | none => w.setTab t (some (.recovering s))

/-- `setItem` of the account, and on to `syncState`. -/
def keep (t : Tab) (s : Secret) (id : AccountId) :
    World Tab Secret Commitment AccountId × List (WalletEvent Secret Commitment AccountId) :=
  ((w.saveAccount id).setTab t (some (.syncing s id)), [.accountSaved id])

/-- One piece of `init`, from one `await` to the next. -/
def step (a : WalletAction Tab Secret AccountId) : Option (World Tab Secret Commitment AccountId ×
    List (WalletEvent Secret Commitment AccountId)) :=
  match a with
  | .visit t =>
      match w.tabs t with
      | none => some (w.setTab t (some .opening), [])
      | some _ => none
  | .opened t fresh =>
      match w.tabs t, w.storage.signer with
      | some .opening, some item =>
          match sdk.ofItem item with
          | some s => some (w.withSigner t s, [])
          | none => some (w.setTab t none, [])
      | some .opening, none =>
          -- a new key is nobody's signer
          if w.accountsOf (sdk.commitment fresh) = [] then
            some ((w.saveSigner (sdk.item fresh)).withSigner t fresh,
              [.signerSaved (sdk.item fresh)])
          else none
      | _, _ => none
  | .loaded t =>
      match w.tabs t with
      | some (.loading s id recovered) =>
          -- the Guardian has a state for the accounts that it has, and shows it to their signer
          if id ∉ w.accountsOf (sdk.commitment s) then none
          else if recovered then some (w.keep t s id)
          else some (w.setTab t (some (.syncing s id)), [])
      | _ => none
  | .recovered t answer =>
      match w.tabs t, answer with
      | some (.recovering s), none => some (w.setTab t (some (.asking s)), [.lookupFailed])
      | some (.recovering s), some ids =>
          if ids.isPerm (w.accountsOf (sdk.commitment s)) then
            match ids with
            | id :: _ => some (w.setTab t (some (.loading s id true)), [])
            | [] => some (w.setTab t (some (.asking s)), [])
          else none
      | _, _ => none
  | .pubkey t =>
      match w.tabs t with
      | some (.asking s) => some (w.setTab t (some (.creating s)), [])
      | _ => none
  | .created t id =>
      match w.tabs t with
      | some (.creating s) =>
          if id ∉ w.guardian.map Prod.fst then some (w.setTab t (some (.registering s id)), [])
          else none
      | _ => none
  | .registered t answered =>
      match w.tabs t with
      | some (.registering s id) =>
          let c := sdk.commitment s
          let w := w.register id c
          if answered then
            let kept := w.keep t s id
            some (kept.1, .accountRegistered id c :: kept.2)
          else some (w.setTab t none, [.accountRegistered id c])
      | _ => none
  | .synced t =>
      match w.tabs t with
      | some (.syncing s id) => some (w.setTab t (some (.ready s id)), [.answered id])
      | _ => none
  | .stop t => some (w.setTab t none, [])

/-- No page has been visited. -/
def blank (guardian : List (AccountId × Commitment)) : World Tab Secret Commitment AccountId :=
  ⟨⟨none, none⟩, guardian, fun _ => none⟩

end World

/-! ## What a step does -/

section Steps

variable (sdk : SignerSdk Secret Commitment) [DecidableEq Tab] [DecidableEq Commitment]
  [DecidableEq AccountId] (w : World Tab Secret Commitment AccountId)

/-- The cases of `step`. -/
inductive Steps : WalletAction Tab Secret AccountId → World Tab Secret Commitment AccountId →
    List (WalletEvent Secret Commitment AccountId) → Prop
  | visit {t : Tab} (h : w.tabs t = none) : Steps (.visit t) (w.setTab t (some .opening)) []
  | reopened {t : Tab} {fresh s : Secret} {item : Text} (h : w.tabs t = some .opening)
      (hitem : w.storage.signer = some item) (hs : sdk.ofItem item = some s) :
      Steps (.opened t fresh) (w.withSigner t s) []
  | unreadable {t : Tab} {fresh : Secret} {item : Text} (h : w.tabs t = some .opening)
      (hitem : w.storage.signer = some item) (hs : sdk.ofItem item = none) :
      Steps (.opened t fresh) (w.setTab t none) []
  | opened {t : Tab} {fresh : Secret} (h : w.tabs t = some .opening)
      (hitem : w.storage.signer = none) (hnew : w.accountsOf (sdk.commitment fresh) = []) :
      Steps (.opened t fresh) ((w.saveSigner (sdk.item fresh)).withSigner t fresh)
        [.signerSaved (sdk.item fresh)]
  | loaded {t : Tab} {s : Secret} {id : AccountId} (h : w.tabs t = some (.loading s id false))
      (hid : id ∈ w.accountsOf (sdk.commitment s)) :
      Steps (.loaded t) (w.setTab t (some (.syncing s id))) []
  | recovered {t : Tab} {s : Secret} {id : AccountId} (h : w.tabs t = some (.loading s id true))
      (hid : id ∈ w.accountsOf (sdk.commitment s)) :
      Steps (.loaded t) (w.keep t s id).1 (w.keep t s id).2
  | lookupFailed {t : Tab} {s : Secret} (h : w.tabs t = some (.recovering s)) :
      Steps (.recovered t none) (w.setTab t (some (.asking s))) [.lookupFailed]
  | found {t : Tab} {s : Secret} {id : AccountId} {ids : List AccountId}
      (h : w.tabs t = some (.recovering s))
      (hids : (id :: ids).Perm (w.accountsOf (sdk.commitment s))) :
      Steps (.recovered t (some (id :: ids))) (w.setTab t (some (.loading s id true))) []
  | foundNone {t : Tab} {s : Secret} (h : w.tabs t = some (.recovering s))
      (hids : w.accountsOf (sdk.commitment s) = []) :
      Steps (.recovered t (some [])) (w.setTab t (some (.asking s))) []
  | pubkey {t : Tab} {s : Secret} (h : w.tabs t = some (.asking s)) :
      Steps (.pubkey t) (w.setTab t (some (.creating s))) []
  | created {t : Tab} {s : Secret} {id : AccountId} (h : w.tabs t = some (.creating s))
      (hid : id ∉ w.guardian.map Prod.fst) :
      Steps (.created t id) (w.setTab t (some (.registering s id))) []
  | registered {t : Tab} {s : Secret} {id : AccountId} (h : w.tabs t = some (.registering s id)) :
      Steps (.registered t true) ((w.register id (sdk.commitment s)).keep t s id).1
        (.accountRegistered id (sdk.commitment s) ::
          ((w.register id (sdk.commitment s)).keep t s id).2)
  | unanswered {t : Tab} {s : Secret} {id : AccountId} (h : w.tabs t = some (.registering s id)) :
      Steps (.registered t false) ((w.register id (sdk.commitment s)).setTab t none)
        [.accountRegistered id (sdk.commitment s)]
  | synced {t : Tab} {s : Secret} {id : AccountId} (h : w.tabs t = some (.syncing s id)) :
      Steps (.synced t) (w.setTab t (some (.ready s id))) [.answered id]
  | stop {t : Tab} : Steps (.stop t) (w.setTab t none) []

variable {sdk w} {a : WalletAction Tab Secret AccountId} {w' : World Tab Secret Commitment AccountId}
  {es : List (WalletEvent Secret Commitment AccountId)}

theorem steps_of_step (h : w.step sdk a = some (w', es)) : Steps sdk w a w' es := by
  cases a with
  | visit t =>
      simp only [World.step] at h
      split at h
      · next htab =>
          cases h
          exact .visit htab
      · cases h
  | opened t fresh =>
      simp only [World.step] at h
      split at h
      · next item htab hitem =>
          split at h
          · next s hs =>
              cases h
              exact .reopened htab hitem hs
          · next hs =>
              cases h
              exact .unreadable htab hitem hs
      · next htab hitem =>
          split at h
          · next hnew =>
              cases h
              exact .opened htab hitem hnew
          · cases h
      · cases h
  | loaded t =>
      simp only [World.step] at h
      split at h
      · next s id recovered htab =>
          split_ifs at h with hid hrec
          · cases h
            subst hrec
            exact .recovered htab hid
          · cases h
            obtain rfl := Bool.eq_false_iff.mpr hrec
            exact .loaded htab hid
      · cases h
  | recovered t answer =>
      simp only [World.step] at h
      split at h
      · next s htab =>
          cases h
          exact .lookupFailed htab
      · next s ids htab =>
          split at h
          · next hperm =>
              have hperm := List.isPerm_iff.mp hperm
              split at h
              · cases h
                exact .found htab hperm
              · cases h
                exact .foundNone htab (List.nil_perm.mp hperm)
          · cases h
      · cases h
  | pubkey t =>
      simp only [World.step] at h
      split at h
      · next s htab =>
          cases h
          exact .pubkey htab
      · cases h
  | created t id =>
      simp only [World.step] at h
      split at h
      · next s htab =>
          split_ifs at h with hid
          cases h
          exact .created htab hid
      · cases h
  | registered t answered =>
      simp only [World.step] at h
      split at h
      · next s id htab =>
          cases answered with
          | true =>
              cases h
              exact .registered htab
          | false =>
              cases h
              exact .unanswered htab
      · cases h
  | synced t =>
      simp only [World.step] at h
      split at h
      · next s id htab =>
          cases h
          exact .synced htab
      · cases h
  | stop t =>
      cases h
      exact .stop

end Steps

/-! ## In any order of tabs -/

/-- The account of a visit that the Guardian has to have. -/
def Visit.account : Visit Secret AccountId → Option AccountId
  | .loading _ id _ | .syncing _ id | .ready _ id => some id
  | _ => none

/-- All visits have the saved signer, and the Guardian has their accounts and the saved one
for this signer. -/
structure Rooted [DecidableEq Commitment] (sdk : SignerSdk Secret Commitment)
    (w : World Tab Secret Commitment AccountId) : Prop where
  signer : ∀ item, w.storage.signer = some item → ∃ s, item = sdk.item s
  secret : ∀ t v s, w.tabs t = some v → v.secret = some s → w.storage.signer = some (sdk.item s)
  saved : ∀ id, w.storage.account = some id →
    ∃ s, w.storage.signer = some (sdk.item s) ∧ id ∈ w.accountsOf (sdk.commitment s)
  account : ∀ t v s id, w.tabs t = some v → v.secret = some s → v.account = some id →
    id ∈ w.accountsOf (sdk.commitment s)

section Rooted

variable {sdk : SignerSdk Secret Commitment} [DecidableEq Tab] [DecidableEq Commitment]
  [DecidableEq AccountId] {w w' : World Tab Secret Commitment AccountId} {t t' : Tab}
  {v : Option (Visit Secret AccountId)} {s s' : Secret} {c c' : Commitment} {id : AccountId}
  {a : WalletAction Tab Secret AccountId} {es : List (WalletEvent Secret Commitment AccountId)}

theorem item_injective : Function.Injective sdk.item := by
  intro s s' h
  have hread := congrArg sdk.ofItem h
  rw [SignerSdk.ofItem_item, SignerSdk.ofItem_item] at hread
  exact Option.some.inj hread

theorem tabs_setTab : (w.setTab t v).tabs t' = if t' = t then v else w.tabs t' :=
  Function.update_apply w.tabs t v t'

theorem accountsOf_register : (w.register id c).accountsOf c' =
    w.accountsOf c' ++ if c = c' then [id] else [] := by
  unfold World.accountsOf World.register
  rw [List.filter_append, List.map_append]
  congr 1
  by_cases h : c = c' <;> simp [h]

theorem rooted_blank {guardian : List (AccountId × Commitment)} :
    Rooted sdk (World.blank guardian : World Tab Secret Commitment AccountId) where
  signer _ h := nomatch h
  secret _ _ _ h := nomatch h
  saved _ h := nomatch h
  account _ _ _ _ h := nomatch h

theorem Rooted.setTab (h : Rooted sdk w)
    (hsecret : ∀ x ∈ v, ∀ s, x.secret = some s → w.storage.signer = some (sdk.item s))
    (haccount : ∀ x ∈ v, ∀ s id, x.secret = some s → x.account = some id →
      id ∈ w.accountsOf (sdk.commitment s)) : Rooted sdk (w.setTab t v) where
  signer := h.signer
  secret := by
    intro t' x s hx
    rw [tabs_setTab] at hx
    split at hx
    · exact hsecret x hx s
    · exact h.secret t' x s hx
  saved := h.saved
  account := by
    intro t' x s id hx
    rw [tabs_setTab] at hx
    split at hx
    · exact haccount x hx s id
    · exact h.account t' x s id hx

theorem Rooted.clear (h : Rooted sdk w) : Rooted sdk (w.setTab t none) :=
  h.setTab (fun _ hx => nomatch hx) (fun _ hx => nomatch hx)

/-- A visit goes on with the signer it has. -/
theorem Rooted.goOn {x : Visit Secret AccountId} (h : Rooted sdk w)
    (hsigner : w.storage.signer = some (sdk.item s)) (hs : x.secret = some s)
    (haccount : ∀ id ∈ x.account, id ∈ w.accountsOf (sdk.commitment s)) :
    Rooted sdk (w.setTab t (some x)) := by
  apply h.setTab
  · rintro _ ⟨⟩ s' hs'
    obtain rfl := Option.some.inj (hs.symm.trans hs')
    exact hsigner
  · rintro _ ⟨⟩ s' id hs' hid
    obtain rfl := Option.some.inj (hs.symm.trans hs')
    exact haccount id hid

theorem Rooted.register (h : Rooted sdk w) : Rooted sdk (w.register id c) := by
  have hmore : ∀ {c' id'}, id' ∈ w.accountsOf c' → id' ∈ (w.register id c).accountsOf c' := by
    intro c' id' hid
    rw [accountsOf_register]
    exact List.mem_append_left _ hid
  constructor
  · exact h.signer
  · exact h.secret
  · intro id' hid
    obtain ⟨s, hs, hmem⟩ := h.saved id' hid
    exact ⟨s, hs, hmore hmem⟩
  · intro t v s id' hv hs hid
    exact hmore (h.account t v s id' hv hs hid)

theorem Rooted.saveAccount (h : Rooted sdk w) (hsigner : w.storage.signer = some (sdk.item s))
    (hid : id ∈ w.accountsOf (sdk.commitment s)) : Rooted sdk (w.saveAccount id) where
  signer := h.signer
  secret := h.secret
  saved := by
    intro id' hid'
    obtain rfl := Option.some.inj hid'
    exact ⟨s, hsigner, hid⟩
  account := h.account

/-- The first key; there is no visit that has another one. -/
theorem Rooted.saveSigner (h : Rooted sdk w) (hnone : w.storage.signer = none) :
    Rooted sdk (w.saveSigner (sdk.item s)) where
  signer := by
    intro item hitem
    exact ⟨s, (Option.some.inj hitem).symm⟩
  secret := by
    intro t v s' hv hs'
    have hsigner := h.secret t v s' hv hs'
    rw [hnone] at hsigner
    cases hsigner
  saved := by
    intro id hid
    obtain ⟨s', hs', -⟩ := h.saved id hid
    rw [hnone] at hs'
    cases hs'
  account := h.account

theorem Rooted.withSigner (h : Rooted sdk w) (hsigner : w.storage.signer = some (sdk.item s)) :
    Rooted sdk (w.withSigner t s) := by
  unfold World.withSigner
  split
  · next id hid =>
      apply h.goOn hsigner rfl
      rintro _ ⟨⟩
      obtain ⟨s', hs', hmem⟩ := h.saved id hid
      obtain rfl := item_injective (Option.some.inj (hsigner.symm.trans hs'))
      exact hmem
  · exact h.goOn hsigner rfl fun _ hid => nomatch hid

theorem Rooted.keep (h : Rooted sdk w) (hsigner : w.storage.signer = some (sdk.item s))
    (hid : id ∈ w.accountsOf (sdk.commitment s)) : Rooted sdk (w.keep t s id).1 := by
  apply (h.saveAccount hsigner hid).goOn hsigner rfl
  rintro _ ⟨⟩
  exact hid

theorem rooted_step (h : Rooted sdk w) (hi : w.step sdk a = some (w', es)) : Rooted sdk w' := by
  cases steps_of_step hi with
  | visit htab => exact h.setTab (by rintro _ ⟨⟩ _ ⟨⟩) (by rintro _ ⟨⟩ _ _ ⟨⟩)
  | reopened htab hitem hs =>
      obtain ⟨s', rfl⟩ := h.signer _ hitem
      rw [SignerSdk.ofItem_item] at hs
      obtain rfl := Option.some.inj hs
      exact h.withSigner hitem
  | unreadable htab hitem hs => exact h.clear
  | opened htab hitem hnew => exact (h.saveSigner hitem).withSigner rfl
  | loaded htab hid =>
      apply h.goOn (h.secret _ _ _ htab rfl) rfl
      rintro _ ⟨⟩
      exact hid
  | recovered htab hid => exact h.keep (h.secret _ _ _ htab rfl) hid
  | lookupFailed htab => exact h.goOn (h.secret _ _ _ htab rfl) rfl fun _ hid => nomatch hid
  | found htab hids =>
      apply h.goOn (h.secret _ _ _ htab rfl) rfl
      rintro _ ⟨⟩
      exact hids.subset List.mem_cons_self
  | foundNone htab hids => exact h.goOn (h.secret _ _ _ htab rfl) rfl fun _ hid => nomatch hid
  | pubkey htab => exact h.goOn (h.secret _ _ _ htab rfl) rfl fun _ hid => nomatch hid
  | created htab hid => exact h.goOn (h.secret _ _ _ htab rfl) rfl fun _ hid => nomatch hid
  | registered htab =>
      apply h.register.keep (h.secret _ _ _ htab rfl)
      rw [accountsOf_register, if_pos rfl]
      exact List.mem_append_right _ List.mem_cons_self
  | unanswered htab => exact h.register.clear
  | synced htab =>
      apply h.goOn (h.secret _ _ _ htab rfl) rfl
      rintro _ ⟨⟩
      exact h.account _ _ _ _ htab rfl rfl
  | stop => exact h.clear

end Rooted

end Bartok.Wallet
