import Bartok.Wallet.Identity
import Mathlib.Data.Fintype.Pigeonhole

/-!
# Visit after visit

What the visits of a browser come to. When they come one at a time they have one key and one
account, wherever each of them stopped; and whatever was left behind, also by tabs that ran
at once, the next visit that is not disturbed ends with a signer and an account that are
saved and that the Guardian has.
-/

namespace Bartok.Wallet

set_option linter.unusedSectionVars false

open Foundation Text

variable {Tab Secret Commitment AccountId : Type}

/-! ## One visit at a time -/

def Visit.isReady : Visit Secret AccountId → Bool
  | .ready _ _ => true
  | _ => false

/-- `init` is called when no other tab is in it. -/
def OneVisit (w : World Tab Secret Commitment AccountId) : WalletAction Tab Secret AccountId → Prop
  | .visit _ => ∀ t, (w.tabs t).all Visit.isReady = true
  | _ => True

instance [Fintype Tab] (w : World Tab Secret Commitment AccountId) :
    ∀ a : WalletAction Tab Secret AccountId, Decidable (OneVisit w a)
  | .visit _ => inferInstanceAs (Decidable (∀ t, (w.tabs t).all Visit.isReady = true))
  | .opened _ _ | .loaded _ | .recovered _ _ | .pubkey _ | .created _ _ | .registered _ _
  | .synced _ | .stop _ => inferInstanceAs (Decidable True)

/-- What a visit takes the saved account to be. -/
def Visit.Fits (account : Option AccountId) : Visit Secret AccountId → Prop
  | .opening => True
  | .loading _ id false | .syncing _ id | .ready _ id => account = some id
  | .loading _ _ true | .recovering _ | .asking _ | .creating _ | .registering _ _ => account = none

/-- The account that a visit is about to register. -/
def Visit.owed : Visit Secret AccountId → ℕ
  | .asking _ | .creating _ | .registering _ _ => 1
  | _ => 0

/-- A second account is registered for a signer only after the Guardian could not be asked. -/
structure Kept [DecidableEq Commitment] (sdk : SignerSdk Secret Commitment)
    (w : World Tab Secret Commitment AccountId) (failed : ℕ) : Prop where
  rooted : Rooted sdk w
  alone : ∀ t t' v v', w.tabs t = some v → w.tabs t' = some v' → v.isReady = false →
    v'.isReady = false → t = t'
  fits : ∀ t v, w.tabs t = some v → v.Fits w.storage.account
  owed : ∀ t v s, w.tabs t = some v → v.secret = some s →
    (w.accountsOf (sdk.commitment s)).length + v.owed ≤ 1 + failed
  count : ∀ s, w.storage.signer = some (sdk.item s) →
    (w.accountsOf (sdk.commitment s)).length ≤ 1 + failed

section Kept

variable {sdk : SignerSdk Secret Commitment} [DecidableEq Tab] [DecidableEq Commitment]
  [DecidableEq AccountId] {w w' : World Tab Secret Commitment AccountId} {t t' : Tab}
  {v x : Visit Secret AccountId} {s s' : Secret} {c : Commitment} {id : AccountId} {failed : ℕ}
  {a : WalletAction Tab Secret AccountId} {es : List (WalletEvent Secret Commitment AccountId)}

theorem Kept.mono (h : Kept sdk w failed) : Kept sdk w (failed + 1) where
  rooted := h.rooted
  alone := h.alone
  fits := h.fits
  owed := fun t v s hv hs => (h.owed t v s hv hs).trans (by omega)
  count := fun s hs => (h.count s hs).trans (by omega)

theorem Kept.clear (h : Kept sdk w failed) : Kept sdk (w.setTab t none) failed := by
  have hkeep : ∀ {t' v}, (w.setTab t none).tabs t' = some v → w.tabs t' = some v := by
    intro t' v hv
    rw [tabs_setTab] at hv
    split at hv
    · cases hv
    · exact hv
  constructor
  · exact h.rooted.clear
  · intro t₁ t₂ v₁ v₂ h₁ h₂
    exact h.alone t₁ t₂ v₁ v₂ (hkeep h₁) (hkeep h₂)
  · intro t' v hv
    exact h.fits t' v (hkeep hv)
  · intro t' v s hv
    exact h.owed t' v s (hkeep hv)
  · exact h.count

/-- The visit of a tab goes on, in a world where the other visits still fit. -/
theorem Kept.goOn (h : Kept sdk w failed) (hv : w.tabs t = some v) (hbusy : v.isReady = false)
    (hrooted : Rooted sdk (w'.setTab t (some x))) (htabs : w'.tabs = w.tabs)
    (hothers : ∀ t' v', t' ≠ t → w.tabs t' = some v' → v'.Fits w'.storage.account)
    (hfits : x.Fits w'.storage.account)
    (hcount : ∀ s, w'.storage.signer = some (sdk.item s) →
      (w'.accountsOf (sdk.commitment s)).length + x.owed ≤ 1 + failed) :
    Kept sdk (w'.setTab t (some x)) failed := by
  have hready : ∀ {t' v'}, t' ≠ t → w.tabs t' = some v' → v'.isReady = true := by
    intro t' v' hne hv'
    by_contra hnot
    exact hne (h.alone t' t v' v hv' hv (Bool.eq_false_of_not_eq_true hnot) hbusy)
  have hcases : ∀ {t' v'}, (w'.setTab t (some x)).tabs t' = some v' →
      t' = t ∧ v' = x ∨ t' ≠ t ∧ w.tabs t' = some v' := by
    intro t' v' hv'
    rw [tabs_setTab, htabs] at hv'
    split at hv'
    · next ht => exact .inl ⟨ht, (Option.some.inj hv').symm⟩
    · next ht => exact .inr ⟨ht, hv'⟩
  constructor
  · exact hrooted
  · intro t₁ t₂ v₁ v₂ h₁ h₂ hb₁ hb₂
    rcases hcases h₁ with ⟨rfl, -⟩ | ⟨hne, hv₁⟩
    · rcases hcases h₂ with ⟨rfl, -⟩ | ⟨hne, hv₂⟩
      · rfl
      · rw [hready hne hv₂] at hb₂
        cases hb₂
    · rw [hready hne hv₁] at hb₁
      cases hb₁
  · intro t' v' hv'
    rcases hcases hv' with ⟨-, rfl⟩ | ⟨hne, hv'⟩
    · exact hfits
    · exact hothers t' v' hne hv'
  · intro t' v' s hv' hs
    have hsigner := hrooted.secret t' v' s hv' hs
    rcases hcases hv' with ⟨-, rfl⟩ | ⟨hne, hv'⟩
    · exact hcount s hsigner
    · have hidle : v'.owed = 0 := by
        cases v' with
        | ready s' id => rfl
        | _ => cases hready hne hv'
      rw [hidle]
      exact le_trans (Nat.le_add_right _ _) (hcount s hsigner)
  · intro s hs
    exact le_trans (Nat.le_add_right _ _) (hcount s hs)

/-- A step of the visit that leaves the storage and the Guardian alone. -/
theorem Kept.quiet (h : Kept sdk w failed) (hv : w.tabs t = some v) (hbusy : v.isReady = false)
    (hrooted : Rooted sdk (w.setTab t (some x))) (hfits : x.Fits w.storage.account)
    (hcount : ∀ s, w.storage.signer = some (sdk.item s) →
      (w.accountsOf (sdk.commitment s)).length + x.owed ≤ 1 + failed) :
    Kept sdk (w.setTab t (some x)) failed :=
  h.goOn hv hbusy hrooted rfl (fun t' v' _ hv' => h.fits t' v' hv') hfits hcount

/-- There is no visit that has an account before the first is saved. -/
theorem Kept.others (h : Kept sdk w failed) (hv : w.tabs t = some v) (hbusy : v.isReady = false)
    (hnone : w.storage.account = none) (hne : t' ≠ t) : w.tabs t' = none := by
  cases hv' : w.tabs t' with
  | none => rfl
  | some v' =>
      cases hready : v'.isReady with
      | false => exact absurd (h.alone t' t v' v hv' hv hready hbusy) hne
      | true =>
          have hfits := h.fits t' v' hv'
          cases v' with
          | ready s id =>
              rw [Visit.Fits, hnone] at hfits
              cases hfits
          | _ => cases hready

theorem Kept.keep (h : Kept sdk w failed) (hv : w.tabs t = some v) (hbusy : v.isReady = false)
    (hnone : w.storage.account = none) (hrooted : Rooted sdk (w'.keep t s id).1)
    (htabs : w'.tabs = w.tabs)
    (hcount : ∀ s, w'.storage.signer = some (sdk.item s) →
      (w'.accountsOf (sdk.commitment s)).length ≤ 1 + failed) :
    Kept sdk (w'.keep t s id).1 failed := by
  show Kept sdk ((w'.saveAccount id).setTab t (some (.syncing s id))) failed
  apply h.goOn hv hbusy hrooted htabs
  · intro t' v' hne hv'
    rw [h.others hv hbusy hnone hne] at hv'
    cases hv'
  · rfl
  · exact hcount

theorem Kept.withSigner (h : Kept sdk w failed) (hv : w.tabs t = some .opening)
    (htabs : w'.tabs = w.tabs) (haccount : w'.storage.account = w.storage.account)
    (hrooted : Rooted sdk (w'.withSigner t s))
    (hcount : ∀ s, w'.storage.signer = some (sdk.item s) →
      (w'.accountsOf (sdk.commitment s)).length ≤ 1 + failed) :
    Kept sdk (w'.withSigner t s) failed := by
  have hothers : ∀ t' v', t' ≠ t → w.tabs t' = some v' → v'.Fits w'.storage.account := by
    intro t' v' _ hv'
    rw [haccount]
    exact h.fits t' v' hv'
  unfold World.withSigner at hrooted ⊢
  split at hrooted
  · next id hid => exact h.goOn hv rfl hrooted htabs hothers hid hcount
  · next hnone => exact h.goOn hv rfl hrooted htabs hothers hnone hcount

/-- The tab of a visit that begins. -/
theorem Kept.visit (h : Kept sdk w failed) (hone : OneVisit w (.visit t)) :
    Kept sdk (w.setTab t (some .opening)) failed := by
  have hready : ∀ {t' v'}, w.tabs t' = some v' → v'.isReady = true := by
    intro t' v' hv'
    have hall := hone t'
    rw [hv'] at hall
    exact hall
  have hcases : ∀ {t' v'}, (w.setTab t (some .opening)).tabs t' = some v' →
      t' = t ∧ v' = .opening ∨ w.tabs t' = some v' := by
    intro t' v' hv'
    rw [tabs_setTab] at hv'
    split at hv'
    · next ht => exact .inl ⟨ht, (Option.some.inj hv').symm⟩
    · exact .inr hv'
  constructor
  · exact h.rooted.setTab (by rintro _ ⟨⟩ _ ⟨⟩) (by rintro _ ⟨⟩ _ _ ⟨⟩)
  · intro t₁ t₂ v₁ v₂ h₁ h₂ hb₁ hb₂
    rcases hcases h₁ with ⟨rfl, -⟩ | hv₁
    · rcases hcases h₂ with ⟨rfl, -⟩ | hv₂
      · rfl
      · rw [hready hv₂] at hb₂
        cases hb₂
    · rw [hready hv₁] at hb₁
      cases hb₁
  · intro t' v' hv'
    rcases hcases hv' with ⟨-, rfl⟩ | hv'
    · trivial
    · exact h.fits t' v' hv'
  · intro t' v' s hv' hs
    rcases hcases hv' with ⟨-, rfl⟩ | hv'
    · cases hs
    · exact h.owed t' v' s hv' hs
  · exact h.count

/-- Of the accounts that are registered for the signer of a visit. -/
theorem Kept.counted (h : Kept sdk w failed) (hv : w.tabs t = some v) (hs : v.secret = some s)
    (howed : x.owed ≤ v.owed) : ∀ s', w.storage.signer = some (sdk.item s') →
      (w.accountsOf (sdk.commitment s')).length + x.owed ≤ 1 + failed := by
  intro s' hs'
  have hsigner := h.rooted.secret t v s hv hs
  obtain rfl := item_injective (Option.some.inj (hs'.symm.trans hsigner))
  exact le_trans (Nat.add_le_add_left howed _) (h.owed t v s' hv hs)

end Kept

section Runs

variable {sdk : SignerSdk Secret Commitment} [DecidableEq Tab] [DecidableEq Commitment]
  [DecidableEq AccountId] {w : World Tab Secret Commitment AccountId}
  {guardian : List (AccountId × Commitment)}
  {ok : World Tab Secret Commitment AccountId → WalletAction Tab Secret AccountId → Prop}
  {tr : List (WalletEvent Secret Commitment AccountId)}

theorem rooted_run (h : Trace (lts (World.step sdk) ok) (World.blank guardian) tr w) :
    Rooted sdk w := by
  refine h.stateInvariant rooted_blank ?_
  rintro w es w' hrooted ⟨a, -, hi⟩
  exact rooted_step hrooted hi

end Runs

/-! ## A visit whose calls succeed -/

/-- `init` goes on in this tab, and no call of it throws. -/
def Undisturbed (t : Tab) (_ : World Tab Secret Commitment AccountId) :
    WalletAction Tab Secret AccountId → Prop
  | .visit t' | .opened t' _ | .loaded t' | .pubkey t' | .created t' _ | .synced t' => t' = t
  | .recovered t' answer => t' = t ∧ answer ≠ none
  | .registered t' answered => t' = t ∧ answered = true
  | .stop _ => False

/-- How many calls are left. -/
def Visit.left : Visit Secret AccountId → ℕ
  | .opening => 7
  | .recovering _ => 6
  | .asking _ => 5
  | .creating _ => 4
  | .registering _ _ => 3
  | .loading _ _ _ => 2
  | .syncing _ _ => 1
  | .ready _ _ => 0

/-- What a visit has learned of the accounts that the Guardian had when it began, and which
account it has had registered since. -/
def Visit.Learned [DecidableEq Commitment] (sdk : SignerSdk Secret Commitment)
    (w₀ w : World Tab Secret Commitment AccountId) : Visit Secret AccountId → Prop
  | .opening | .recovering _ => w.guardian = w₀.guardian
  | .asking s | .creating s | .registering s _ =>
      w₀.accountsOf (sdk.commitment s) = [] ∧ w.guardian = w₀.guardian
  | .loading s id _ | .syncing s id | .ready s id =>
      id ∈ w₀.accountsOf (sdk.commitment s) ∧ w.guardian = w₀.guardian ∨
        w₀.accountsOf (sdk.commitment s) = [] ∧
          w.guardian = (w₀.register id (sdk.commitment s)).guardian

/-- An undisturbed visit from `w₀` on. -/
structure Course [DecidableEq Commitment] (sdk : SignerSdk Secret Commitment) (t : Tab)
    (w₀ w : World Tab Secret Commitment AccountId) : Prop where
  rooted : Rooted sdk w
  signer : ∀ item, w₀.storage.signer = some item → w.storage.signer = some item
  account : ∀ id, w₀.storage.account = some id → w.storage.account = some id
  begun : w.tabs t = none → w = w₀
  fits : ∀ v, w.tabs t = some v → v.Fits w.storage.account
  learned : ∀ v, w.tabs t = some v → v.Learned sdk w₀ w

section Course

variable {sdk : SignerSdk Secret Commitment} [DecidableEq Tab] [DecidableEq Commitment]
  [DecidableEq AccountId] {w₀ w w' : World Tab Secret Commitment AccountId} {t : Tab}
  {v x : Visit Secret AccountId} {s : Secret} {id : AccountId}
  {a : WalletAction Tab Secret AccountId} {es : List (WalletEvent Secret Commitment AccountId)}

theorem tabs_setTab_self {v : Option (Visit Secret AccountId)} : (w.setTab t v).tabs t = v := by
  rw [tabs_setTab, if_pos rfl]

theorem course_refl (hrooted : Rooted sdk w) (hfree : w.tabs t = none) : Course sdk t w w where
  rooted := hrooted
  signer _ h := h
  account _ h := h
  begun _ := rfl
  fits := by
    intro v hv
    rw [hfree] at hv
    cases hv
  learned := by
    intro v hv
    rw [hfree] at hv
    cases hv

/-- The visit goes on in a storage that keeps what there was. -/
theorem Course.goOn (h : Course sdk t w₀ w) (hrooted : Rooted sdk (w'.setTab t (some x)))
    (hsigner : ∀ item, w.storage.signer = some item → w'.storage.signer = some item)
    (haccount : w'.storage.account = w.storage.account ∨ w.storage.account = none)
    (hfits : x.Fits w'.storage.account) (hlearned : x.Learned sdk w₀ (w'.setTab t (some x))) :
    Course sdk t w₀ (w'.setTab t (some x)) where
  rooted := hrooted
  signer item hitem := hsigner item (h.signer item hitem)
  account := by
    intro id hid
    have hold := h.account id hid
    rcases haccount with hsame | hnone
    · exact hsame.trans hold
    · rw [hnone] at hold
      cases hold
  begun := by
    intro hnone
    rw [tabs_setTab_self] at hnone
    cases hnone
  fits := by
    intro v hv
    rw [tabs_setTab_self] at hv
    exact Option.some.inj hv ▸ hfits
  learned := by
    intro v hv
    rw [tabs_setTab_self] at hv
    exact Option.some.inj hv ▸ hlearned

theorem Course.withSigner (h : Course sdk t w₀ w) (hv : w.tabs t = some .opening)
    (haccount : w'.storage.account = w.storage.account) (hguardian : w'.guardian = w.guardian)
    (hsigner : ∀ item, w.storage.signer = some item → w'.storage.signer = some item)
    (hrooted : Rooted sdk (w'.withSigner t s)) : Course sdk t w₀ (w'.withSigner t s) := by
  have hsame : w'.guardian = w₀.guardian := hguardian.trans (h.learned _ hv)
  unfold World.withSigner at hrooted ⊢
  split at hrooted
  · next id hid =>
      refine h.goOn hrooted hsigner (.inl haccount) hid (.inl ⟨?_, hsame⟩)
      have hmem := hrooted.account t _ s id tabs_setTab_self rfl rfl
      rw [World.accountsOf, ← hsame]
      exact hmem
  · next hnone => exact h.goOn hrooted hsigner (.inl haccount) hnone hsame

theorem course_step (h : Course sdk t w₀ w) (ha : Undisturbed t w a)
    (hi : w.step sdk a = some (w', es)) : Course sdk t w₀ w' := by
  have hrooted := rooted_step h.rooted hi
  cases steps_of_step hi with
  | visit htab =>
      obtain rfl : _ = t := ha
      obtain rfl := h.begun htab
      exact h.goOn hrooted (fun _ hitem => hitem) (.inl rfl) trivial rfl
  | reopened htab hitem hs =>
      obtain rfl : _ = t := ha
      obtain ⟨s', rfl⟩ := h.rooted.signer _ hitem
      rw [SignerSdk.ofItem_item] at hs
      obtain rfl := Option.some.inj hs
      exact h.withSigner htab rfl rfl (fun _ hitem => hitem) hrooted
  | unreadable htab hitem hs =>
      obtain ⟨s', rfl⟩ := h.rooted.signer _ hitem
      rw [SignerSdk.ofItem_item] at hs
      cases hs
  | opened htab hitem hnew =>
      obtain rfl : _ = t := ha
      refine h.withSigner htab (by rfl) (by rfl) (fun item hold => ?_) hrooted
      rw [hitem] at hold
      cases hold
  | loaded htab hid =>
      obtain rfl : _ = t := ha
      have hfits := h.fits _ htab
      have hlearned := h.learned _ htab
      exact h.goOn hrooted (fun _ hitem => hitem) (.inl rfl) hfits hlearned
  | recovered htab hid =>
      obtain rfl : _ = t := ha
      have hlearned := h.learned _ htab
      exact h.goOn hrooted (fun _ hitem => hitem) (.inr (h.fits _ htab)) rfl hlearned
  | lookupFailed htab => exact absurd rfl ha.2
  | found htab hids =>
      obtain rfl := ha.1
      have hfits := h.fits _ htab
      have hguardian : w.guardian = w₀.guardian := h.learned _ htab
      refine h.goOn hrooted (fun _ hitem => hitem) (.inl rfl) hfits (.inl ⟨?_, hguardian⟩)
      rw [World.accountsOf, ← hguardian]
      exact hids.subset List.mem_cons_self
  | foundNone htab hids =>
      obtain rfl := ha.1
      have hfits := h.fits _ htab
      have hguardian : w.guardian = w₀.guardian := h.learned _ htab
      refine h.goOn hrooted (fun _ hitem => hitem) (.inl rfl) hfits ⟨?_, hguardian⟩
      rw [World.accountsOf, ← hguardian]
      exact hids
  | pubkey htab =>
      obtain rfl : _ = t := ha
      have hfits := h.fits _ htab
      have hlearned := h.learned _ htab
      exact h.goOn hrooted (fun _ hitem => hitem) (.inl rfl) hfits hlearned
  | created htab hid =>
      obtain rfl : _ = t := ha
      have hfits := h.fits _ htab
      have hlearned := h.learned _ htab
      exact h.goOn hrooted (fun _ hitem => hitem) (.inl rfl) hfits hlearned
  | registered htab =>
      obtain rfl := ha.1
      obtain ⟨hnone, hguardian⟩ := h.learned _ htab
      refine h.goOn hrooted (fun _ hitem => hitem) (.inr (h.fits _ htab)) rfl (.inr ⟨hnone, ?_⟩)
      show w.guardian ++ [_] = w₀.guardian ++ [_]
      rw [hguardian]
  | unanswered htab => exact absurd ha.2 Bool.false_ne_true
  | synced htab =>
      obtain rfl : _ = t := ha
      have hfits := h.fits _ htab
      have hlearned := h.learned _ htab
      exact h.goOn hrooted (fun _ hitem => hitem) (.inl rfl) hfits hlearned
  | stop => exact ha.elim

/-- A call that succeeds brings the visit nearer to its end. -/
theorem course_progress [Infinite AccountId]
    (hkeys : ∀ w : World Tab Secret Commitment AccountId, ∃ s, w.accountsOf (sdk.commitment s) = [])
    (h : Course sdk t w₀ w) (hv : w.tabs t = some v) (hpos : 0 < v.left) :
    ∃ a w' es v', Undisturbed t w a ∧ w.step sdk a = some (w', es) ∧ w'.tabs t = some v' ∧
      v'.left < v.left := by
  have hsigned : ∀ (w' : World Tab Secret Commitment AccountId) (s : Secret),
      ∃ v', (w'.withSigner t s).tabs t = some v' ∧ v'.left < 7 := by
    intro w' s
    unfold World.withSigner
    split
    · exact ⟨_, tabs_setTab_self, by simp [Visit.left]⟩
    · exact ⟨_, tabs_setTab_self, by simp [Visit.left]⟩
  cases v with
  | opening =>
      cases hitem : w.storage.signer with
      | none =>
          obtain ⟨s, hs⟩ := hkeys w
          obtain ⟨v', hv', hleft⟩ := hsigned (w.saveSigner (sdk.item s)) s
          refine ⟨.opened t s, (w.saveSigner (sdk.item s)).withSigner t s,
            [.signerSaved (sdk.item s)], v', rfl, ?_, hv', hleft⟩
          rw [World.step, hv, hitem]
          exact if_pos hs
      | some item =>
          obtain ⟨s, rfl⟩ := h.rooted.signer item hitem
          obtain ⟨s', -⟩ := hkeys w
          obtain ⟨v', hv', hleft⟩ := hsigned w s
          refine ⟨.opened t s', w.withSigner t s, [], v', rfl, ?_, hv', hleft⟩
          rw [World.step, hv, hitem]
          simp only [SignerSdk.ofItem_item]
  | recovering s =>
      have hperm : (w.accountsOf (sdk.commitment s)).isPerm (w.accountsOf (sdk.commitment s)) =
          true := List.isPerm_iff.mpr (List.Perm.refl _)
      cases hids : w.accountsOf (sdk.commitment s) with
      | nil =>
          rw [hids] at hperm
          refine ⟨.recovered t (some []), w.setTab t (some (.asking s)), [], .asking s,
            ⟨rfl, Option.some_ne_none _⟩, ?_, tabs_setTab_self, by simp [Visit.left]⟩
          simp only [World.step, hv, hids, hperm, if_true]
      | cons id ids =>
          rw [hids] at hperm
          refine ⟨.recovered t (some (id :: ids)), w.setTab t (some (.loading s id true)), [],
            .loading s id true, ⟨rfl, Option.some_ne_none _⟩, ?_, tabs_setTab_self, by simp [Visit.left]⟩
          simp only [World.step, hv, hids, hperm, if_true]
  | asking s =>
      refine ⟨.pubkey t, w.setTab t (some (.creating s)), [], .creating s, rfl, ?_,
        tabs_setTab_self, by simp [Visit.left]⟩
      rw [World.step, hv]
  | creating s =>
      obtain ⟨id, hid⟩ := Infinite.exists_notMem_finset (w.guardian.map Prod.fst).toFinset
      rw [List.mem_toFinset] at hid
      refine ⟨.created t id, w.setTab t (some (.registering s id)), [], .registering s id, rfl, ?_,
        tabs_setTab_self, by simp [Visit.left]⟩
      rw [World.step, hv]
      exact if_pos hid
  | registering s id =>
      refine ⟨.registered t true, ((w.register id (sdk.commitment s)).keep t s id).1,
        [.accountRegistered id (sdk.commitment s), .accountSaved id], .syncing s id, ⟨rfl, rfl⟩, ?_,
        tabs_setTab_self, by simp [Visit.left]⟩
      rw [World.step, hv]
      rfl
  | loading s id recovered =>
      have hid := h.rooted.account t _ s id hv rfl rfl
      cases recovered with
      | true =>
          refine ⟨.loaded t, (w.keep t s id).1, [.accountSaved id], .syncing s id, rfl, ?_,
            tabs_setTab_self, by simp [Visit.left]⟩
          rw [World.step, hv]
          exact if_neg (not_not.mpr hid)
      | false =>
          refine ⟨.loaded t, w.setTab t (some (.syncing s id)), [], .syncing s id, rfl, ?_,
            tabs_setTab_self, by simp [Visit.left]⟩
          rw [World.step, hv]
          exact if_neg (not_not.mpr hid)
  | syncing s id =>
      refine ⟨.synced t, w.setTab t (some (.ready s id)), [.answered id], .ready s id, rfl, ?_,
        tabs_setTab_self, by simp [Visit.left]⟩
      rw [World.step, hv]
  | ready s id => exact absurd hpos (lt_irrefl 0)

/-- From everywhere on its way the visit comes to its end. -/
theorem course_ends [Infinite AccountId]
    (hkeys : ∀ w : World Tab Secret Commitment AccountId, ∃ s, w.accountsOf (sdk.commitment s) = [])
    (h : Course sdk t w₀ w) (hv : w.tabs t = some v) :
    ∃ tr w' s id, Trace (lts (World.step sdk) (Undisturbed t)) w tr w' ∧ Course sdk t w₀ w' ∧
      w'.tabs t = some (.ready s id) := by
  induction hleft : v.left using Nat.strongRecOn generalizing w v with
  | ind n ih =>
      subst hleft
      rcases Nat.eq_zero_or_pos v.left with hzero | hpos
      · cases v with
        | ready s id => exact ⟨[], w, s, id, .refl, h, hv⟩
        | _ => cases hzero
      · obtain ⟨a, w₁, es, v₁, ha, hi, hv₁, hless⟩ := course_progress hkeys h hv hpos
        obtain ⟨tr, w', s, id, hrun, hcourse, hready⟩ :=
          ih v₁.left hless (course_step h ha hi) hv₁ rfl
        exact ⟨es ++ tr, w', s, id, (Trace.single ⟨a, ha, hi⟩).trans hrun, hcourse, hready⟩

/-- **The next visit makes good.** Whatever the tabs have done and wherever they stopped, a
visit whose calls succeed, and during which no other tab acts, comes to its end, from each
point of it. It ends with the saved signer, if there is one, and with the saved account, if
there is one. Where the Guardian had an account for the signer, the visit ends with such an
account and registers none; else it registers one, the account that it ends with. -/
theorem visit_recovers [Infinite AccountId] {guardian : List (AccountId × Commitment)}
    {ok : World Tab Secret Commitment AccountId → WalletAction Tab Secret AccountId → Prop}
    {tr tr₁ : List (WalletEvent Secret Commitment AccountId)}
    {w w₁ : World Tab Secret Commitment AccountId}
    (hkeys : ∀ w : World Tab Secret Commitment AccountId, ∃ s, w.accountsOf (sdk.commitment s) = [])
    (h : Trace (lts (World.step sdk) ok) (World.blank guardian) tr w) (hfree : w.tabs t = none)
    (hvisit : Trace (lts (World.step sdk) (Undisturbed t)) w tr₁ w₁) :
    ∃ tr₂ w₂ s id, Trace (lts (World.step sdk) (Undisturbed t)) w₁ tr₂ w₂ ∧
      w₂.tabs t = some (.ready s id) ∧ w₂.storage = ⟨some (sdk.item s), some id⟩ ∧
      id ∈ w₂.accountsOf (sdk.commitment s) ∧
      (∀ item, w.storage.signer = some item → item = sdk.item s) ∧
      (∀ id', w.storage.account = some id' → id' = id) ∧
      (id ∈ w.accountsOf (sdk.commitment s) ∧ w₂.guardian = w.guardian ∨
        w.accountsOf (sdk.commitment s) = [] ∧
          w₂.guardian = (w.register id (sdk.commitment s)).guardian) := by
  have hcourse : Course sdk t w w₁ := by
    refine hvisit.stateInvariant (course_refl (rooted_run h) hfree) ?_
    rintro w₁ es w₂ hcourse ⟨a, ha, hi⟩
    exact course_step hcourse ha hi
  have hends : ∃ tr₂ w₂ s id, Trace (lts (World.step sdk) (Undisturbed t)) w₁ tr₂ w₂ ∧
      Course sdk t w w₂ ∧ w₂.tabs t = some (.ready s id) := by
    cases hv : w₁.tabs t with
    | some v => exact course_ends hkeys hcourse hv
    | none =>
        have hi : w₁.step sdk (.visit t) = some (w₁.setTab t (some .opening), []) := by
          simp only [World.step, hv]
        obtain ⟨tr₂, w₂, s, id, hrun, hlater, hready⟩ :=
          course_ends hkeys (course_step hcourse (by rfl) hi) tabs_setTab_self
        exact ⟨[] ++ tr₂, w₂, s, id, (Trace.single ⟨.visit t, rfl, hi⟩).trans hrun, hlater, hready⟩
  obtain ⟨tr₂, w₂, s, id, hrun, hlater, hready⟩ := hends
  have hsigner := hlater.rooted.secret t _ s hready rfl
  have haccount : w₂.storage.account = some id := hlater.fits _ hready
  refine ⟨tr₂, w₂, s, id, hrun, hready, ?_, hlater.rooted.account t _ s id hready rfl rfl, ?_, ?_,
    hlater.learned _ hready⟩
  · rw [← hsigner, ← haccount]
  · intro item hitem
    exact Option.some.inj ((hlater.signer item hitem).symm.trans hsigner)
  · intro id' hid'
    exact Option.some.inj ((hlater.account id' hid').symm.trans haccount)

end Course

/-! The first visit registers an account and loses the answer; the second finds it. And two
tabs at once register two accounts, of which the saved one is not the one that the first tab
goes on with. -/

def demoSdk : SignerSdk UInt8 UInt8 where
  serialize s := [s]
  deserialize bytes := bytes.head?
  commitment s := s
  deserialize_serialize _ := rfl
  serialize_ne_nil _ := List.cons_ne_nil _ _

/-- A key that nobody has yet. -/
def natSdk : SignerSdk ℕ ℕ where
  serialize s := List.replicate (s + 1) 0
  deserialize bytes := some (bytes.length - 1)
  commitment s := s
  deserialize_serialize s := by rw [List.length_replicate, Nat.add_sub_cancel]
  serialize_ne_nil s := by simp

theorem visit_recovers_demo : ∃ (tr : List (WalletEvent ℕ ℕ ℕ)) (w : World Unit ℕ ℕ ℕ) (s id : ℕ),
    Trace (lts (World.step natSdk) (Undisturbed ())) (World.blank []) tr w ∧
      w.tabs () = some (.ready s id) := by
  have hkeys : ∀ w : World Unit ℕ ℕ ℕ, ∃ s, w.accountsOf (natSdk.commitment s) = [] := by
    intro w
    obtain ⟨s, hs⟩ := Infinite.exists_notMem_finset (w.guardian.map Prod.snd).toFinset
    refine ⟨s, List.map_eq_nil_iff.mpr (List.filter_eq_nil_iff.mpr fun e he heq => hs ?_)⟩
    rw [List.mem_toFinset]
    exact List.mem_map.mpr ⟨e, he, of_decide_eq_true heq⟩
  have hrun : Trace (lts (World.step natSdk) (Undisturbed ())) (World.blank [])
      [] (World.blank [] : World Unit ℕ ℕ ℕ) := .refl
  obtain ⟨tr, w, s, id, htr, hready, -⟩ := visit_recovers hkeys hrun (t := ()) rfl .refl
  exact ⟨tr, w, s, id, htr, hready⟩

def twoTabs : List (WalletAction Bool UInt8 ℕ) :=
  [.visit false, .visit true, .opened false 7, .opened true 9, .recovered false (some []),
    .recovered true (some []), .pubkey false, .pubkey true, .created false 3, .created true 4,
    .registered false true, .registered true true, .synced false]

theorem two_tabs_two_accounts : ¬ ∀ (tr : List (WalletEvent UInt8 UInt8 ℕ))
    (w : World Bool UInt8 UInt8 ℕ),
    Trace (lts (World.step demoSdk) fun _ _ => True) (World.blank []) tr w →
      ∀ id, .answered id ∈ tr → w.storage.account = some id := by
  intro h
  have hrun := trace_exec (World.step demoSdk) (fun _ _ => True) (World.blank []) twoTabs
    (okAlong_of_forall (fun _ _ => trivial) _ _) (by decide)
  exact absurd (h _ _ hrun 3 (by decide)) (by decide)

end Bartok.Wallet
