import Bartok.Proof.Request
import Bartok.Proof.Tiers

/-!
# The hold and one worst-case reply

A session is admitted with a hold of at least its tier's floor, and the prover caps the
tokens of a reply at `CONFIG.maxTokens`. The floor of the basic tier covers a reply of that
many tokens. That of the genius tier does not, at seven units a token.
-/

namespace Bartok.Proof

open Foundation Text Json Bridge State

/-- `CONFIG.maxTokens[tier]`. -/
def tokenLimit (tier : Tier) : ℕ := NumLit.numeral (maxTokens tier).text

/-- `/api/session/start` admits the request: an escrow of `budget` is built for it. -/
structure Admits (st : State) (req : StartRequest) (tier : Tier) (budget : ℕ) : Prop where
  own : tierEntry req.tier = .own tier
  building : st.sessionStart req =
    (st.arrive.spawn st.nextPid (.buildEscrow req.buyerId req.tier (some budget)), [])

/-- `pid` awaits the first answer of a session with this tier and hold, to a message in the
session's own tier. -/
def FirstChat (st : State) (pid : Pid) (tier : String) (budget : ℕ) : Prop :=
  ∃ sid prompt s, st.procs pid = some (.runAnswer sid prompt tier 0) ∧
    st.sessions.obj? sid = some s ∧ s.tier = tier ∧ s.budget = budget ∧ s.charges = []

def holdExhausted (pid : Pid) : Event := .done pid (.error 200 "hold_exhausted")

/-- In every run in which a start is admitted with this tier and balance, the first reply of
a session so admitted is not refused after the model has run, if its tokens stay within the
cap of the tier. -/
def PaysWorstCase (tier : Tier) (balance : JsNumber) (denom : UInt64) : Prop :=
  ∀ {disk now nextPid chain st₀ tr₀ req budget st tr},
    Trace (lts step AnyStep) (boot disk now nextPid chain) tr₀ st₀ →
    Admits st₀ req tier budget → req.balance = balance →
    Trace (lts step AnyStep) (st₀.sessionStart req).1 tr st →
    ∀ {pid w r} {crates : Crates} {c : Call crates} {a}, FirstChat st pid req.tier budget →
      c.tier = req.tier → c.env.denom = denom →
      c.outcome = .ok a → a.tokens ≤ tokenLimit tier →
      step st ⟨.answered pid c.outcome, w⟩ = some r → holdExhausted pid ∉ r.2

/-! ## What a reply may cost -/

section Charges

variable {tier : Tier} {n m x : ℕ} {d e : ℕ} {total denom : UInt64}

/-- A larger denominator does not round to a larger price. -/
theorem rounded_antitone (hd : 0 < d) (h : d ≤ e) : (x + e / 2) / e ≤ (x + d / 2) / d := by
  rw [Nat.le_div_iff_mul_le hd]
  cases hq : (x + e / 2) / e with
  | zero => omega
  | succ q =>
      -- twice the quotient, less one, fits twice the price
      have hfits : (q + 1) * e ≤ x + e / 2 := hq ▸ Nat.div_mul_le_self _ _
      have hle : (2 * q + 1) * d ≤ (2 * q + 1) * e := Nat.mul_le_mul_left _ h
      simp only [Nat.add_mul, Nat.one_mul, Nat.mul_assoc] at hfits hle ⊢
      omega

theorem exactCharge_le (hd : 0 < d) (h : d ≤ e) (htotal : n ≤ m) :
    exactCharge n x e ≤ exactCharge m x d :=
  atLeastOne_mono htotal ((rounded_antitone hd h).trans (Nat.div_le_div_right
    (Nat.add_le_add_right (Nat.mul_le_mul_right _ htotal) _)))

theorem price_eq : (UInt64.ofNat (TIERS tier).pricePerToken).toNat = (TIERS tier).pricePerToken := by
  cases tier <;> rfl

/-- The charge for a reply within the cap does not wrap. -/
theorem charge_within (h : total.toNat ≤ tokenLimit tier) :
    (charge total (UInt64.ofNat (TIERS tier).pricePerToken) denom).toNat =
      exactCharge total.toNat (TIERS tier).pricePerToken denom.toNat := by
  have hprice : total.toNat * (TIERS tier).pricePerToken ≤ 14336 := by
    have hlimit : tokenLimit tier * (TIERS tier).pricePerToken ≤ 14336 := by
      cases tier <;> decide
    exact (Nat.mul_le_mul_right _ h).trans hlimit
  have hdenom : denom.toNat < 2 ^ 64 := denom.toNat_lt
  rw [charge_exact, price_eq]
  rw [price_eq]
  change _ < 2 ^ 64
  omega

end Charges

/-! ## The hold and the refusal -/

section Refusal

variable {st : State} {req : StartRequest} {tier : Tier} {budget : ℕ} {pid : Pid} {w : Writes}
  {r : State × List Event} {name : String} {crates : Crates} {c : Call crates} {a : Answer}

/-- What is admitted holds the tier's share of the balance. -/
theorem Admits.budget_eq (h : Admits st req tier budget) :
    belowMinHold tier req.balance.units = false ∧
      budget = sessionBudget tier req.balance.units := by
  obtain ⟨hown, hstart⟩ := h
  unfold sessionStart at hstart
  simp only [hown] at hstart
  split at hstart
  · cases congrArg Prod.snd hstart
  · split at hstart
    · cases congrArg Prod.snd hstart
    · split at hstart
      · cases congrArg Prod.snd hstart
      · split at hstart
        · cases congrArg Prod.snd hstart
        · next hmin =>
            have hproc := congrArg (fun r => r.1.procs st.nextPid) hstart
            simp only [spawn, Function.update_self, Option.some.injEq, Proc.buildEscrow.injEq,
              true_and] at hproc
            exact ⟨by simpa using hmin, hproc.symm⟩

/-- The first answer is refused exactly if it costs more than the hold. -/
theorem refused_iff (h : FirstChat st pid name budget)
    (hi : step st ⟨.answered pid (.ok a), w⟩ = some r) :
    holdExhausted pid ∈ r.2 ↔ budget < a.charge := by
  obtain ⟨sid, prompt, s, hp, hs, -, rfl, -⟩ := h
  cases steps_of_step hi with
  | answered _ hp' =>
      cases hp.symm.trans hp'
      have hs : ((st.finish pid).setBusy false).sessions.obj? sid = some s := hs
      simp only [chatAnswered, hs, Nat.zero_add]
      split
      · next hlt => exact iff_of_true List.mem_cons_self hlt
      · next hle =>
          refine iff_of_false (fun hmem => ?_) hle
          split at hmem
          · simp [holdExhausted] at hmem
          · unfold deliver at hmem
            dsimp only at hmem
            split at hmem <;> simp [holdExhausted, writeError] at hmem

/-- A reply within the cap costs at most what the cap does. -/
theorem charge_le_of_ok {d : ℕ} (hown : tierEntry c.tier = .own tier) (ha : c.outcome = .ok a)
    (htokens : a.tokens ≤ tokenLimit tier) (hd : 0 < d) (hle : d ≤ c.env.denom.toNat) :
    a.charge ≤ exactCharge (tokenLimit tier) (TIERS tier).pricePerToken d := by
  obtain ⟨tier', m, line, hpaid, rfl⟩ := paidFor_of_ok (Prod.ext rfl (mapError_eq_ok.mp ha))
  cases hown.symm.trans hpaid.own
  -- so few tokens are not a rounded number
  have hexact : asDouble line.totalTokens.toNat = line.totalTokens.toNat := by
    apply eq_of_roundBits_lt (by decide)
    have hcap : tokenLimit tier < 2 ^ 53 := by cases tier <;> decide
    exact Nat.lt_of_le_of_lt htokens hcap
  have hwithin : line.totalTokens.toNat ≤ tokenLimit tier := hexact ▸ htokens
  have hcharge : line.charge.toNat =
      exactCharge line.totalTokens.toNat (TIERS tier).pricePerToken c.env.denom.toNat := by
    rw [hpaid.charge]
    exact charge_within hwithin
  have hbound : line.charge.toNat ≤ exactCharge (tokenLimit tier) (TIERS tier).pricePerToken d :=
    hcharge ▸ exactCharge_le hd hle hwithin
  have hsmall : exactCharge (tokenLimit tier) (TIERS tier).pricePerToken d < 2 ^ 53 := by
    have hone : exactCharge (tokenLimit tier) (TIERS tier).pricePerToken 1 < 2 ^ 53 := by
      cases tier <;> decide
    exact Nat.lt_of_le_of_lt (exactCharge_le one_pos hd le_rfl) hone
  have hrounded : asDouble line.charge.toNat = line.charge.toNat :=
    roundBits_eq_iff.mpr (representable_of_lt (Nat.lt_of_le_of_lt hbound hsmall))
  exact hrounded.le.trans hbound

end Refusal

/-! ## A genius session short of its first reply -/

/-- A bridge with one registered wallet. -/
def accountBoot : State :=
  boot ⟨none, some fun w => if w = "0xb0b" then some ⟨some ⟨bob, "", ""⟩, 0, none, false⟩
    else none, none⟩ 1 0 fun _ => .unfunded

/-- The escrow that is built for a budget. -/
def paramsFor (budget : ℕ) : EscrowParams :=
  { demoParams with noteB64 := { demoNote with amount := budget } }

/-- The session is opened, funded, armed and asked a question. -/
def geniusChat (budget : ℕ) : List Input :=
  written [.fundNote (paramsFor budget).noteB64, .escrow 0, .escrowVerified 1 true,
    .chat ⟨0, [0x68, 0x69], none⟩]

theorem genius_admits {balance : JsNumber} (hmin : belowMinHold .genius balance.units = false) :
    Admits accountBoot ⟨"0xb0b", "genius", balance⟩ .genius
      (sessionBudget .genius balance.units) := by
  have hown : tierEntry "genius" = .own .genius := by decide
  have haccount : accountBoot.arrive.hasAccount "0xb0b" = true := by decide
  exact ⟨hown, by simp [sessionStart, hown, hmin, haccount]⟩

theorem genius_first_chat (budget : ℕ) : ∃ tr st,
    Trace (lts step AnyStep) (accountBoot.arrive.spawn 0 (.buildEscrow "0xb0b" "genius"
      (some budget))) tr st ∧ FirstChat st 2 "genius" budget := by
  let building := accountBoot.arrive.spawn 0 (.buildEscrow "0xb0b" "genius" (some budget))
  let built := building.escrowBuilt 0 "0xb0b" "genius" 0 (some (budget, paramsFor budget)) .ok
  have hbuilt : step building ⟨.escrowBuilt 0 0 (some (paramsFor budget)), .ok⟩ = some built := by
    simp only [step, building, spawn, Function.update_self]
    exact if_pos ⟨rfl, rfl⟩
  have hchat : exec step built.1 (geniusChat budget) = some (_, _) := rfl
  exact ⟨_, _, (Trace.single ⟨_, trivial, hbuilt⟩).trans
    (trace_of_exec (okAlong_of_forall (fun _ _ => trivial) _ _) hchat),
    0, _, _, rfl, rfl, rfl, rfl, rfl⟩

/-- The first model of the tier answers with as many tokens as it may. -/
def maxedCall : Call demoCrates where
  tier := "genius"
  apiKey := true
  truncated := false
  env := demoEnv
  sessions := 0
  dir := ⟨none, none, none, none⟩
  proves _ :=
    ⟨⟨200, ("\x7b\"model\":\"meta-llama/llama-3.3-70b-instruct\",\"usage\":" ++
      "\x7b\"total_tokens\":2048\x7d\x7d").toList, some ⟨jsString "hi", none⟩⟩, 11, []⟩
  presented := 2
  oracle := ⟨true, []⟩

theorem maxedCall_ok : ∃ a, maxedCall.outcome = .ok a ∧ a.tokens = 2048 ∧ a.charge = 14336 := by
  have hreturns : maxedCall.outcome.toOption.map (fun a => (a.tokens, a.charge)) =
      some (2048, 14336) := by decide
  cases hret : maxedCall.outcome with
  | error reason => simp [hret, Except.toOption] at hreturns
  | ok a =>
      simp only [hret, Except.toOption, Option.map_some, Option.some.injEq, Prod.mk.injEq] at hreturns
      exact ⟨a, rfl, hreturns⟩

/-- A genius session with a hold below the price of that answer is refused it. -/
theorem genius_short {balance : JsNumber} {bal : ℕ} (hbal : balance.units = some bal)
    (hmin : minHoldBartok .genius ≤ bal) (hshort : bal < 14336) :
    ¬ PaysWorstCase .genius balance 1 := by
  intro h
  have hadmitted : belowMinHold .genius balance.units = false := by
    simpa [hbal, belowMinHold] using hmin
  have hbudget : sessionBudget .genius balance.units < 14336 := by
    simp only [hbal, sessionBudget]
    omega
  obtain ⟨tr, st, hrun, hchat⟩ := genius_first_chat (sessionBudget .genius balance.units)
  obtain ⟨a, ha, htokens, hcharge⟩ := maxedCall_ok
  have hadmits := genius_admits hadmitted
  obtain ⟨sid, prompt, s, hp, hrest⟩ := hchat
  have hi : step st ⟨.answered 2 (.ok a), .ok⟩ =
      some (st.chatAnswered 2 sid prompt "genius" 0 (.ok a) .ok) := by simp only [step, hp]
  have hrun : Trace (lts step AnyStep)
      (accountBoot.sessionStart ⟨"0xb0b", "genius", balance⟩).1 tr st := by
    rw [hadmits.building]
    exact hrun
  refine h .refl hadmits rfl hrun ⟨sid, prompt, s, hp, hrest⟩ rfl rfl ha
    (htokens ▸ le_rfl) (by rw [ha]; exact hi) ?_
  rw [refused_iff ⟨sid, prompt, s, hp, hrest⟩ hi, hcharge]
  exact hbudget

/-- **A hold covers one worst-case reply, except at the floor of the genius tier.** The first
reply of an admitted session is paid for whatever its tokens up to the cap, unless a genius
session at full price was admitted on less than the price of a maxed reply. -/
theorem worst_case_paid_iff (tier : Tier) (balance : JsNumber) (denom : UInt64) :
    PaysWorstCase tier balance denom ↔ tier = .basic ∨ denom ≠ 1 ∨
      ∀ bal, balance.units = some bal → bal < minHoldBartok .genius ∨ 14336 ≤ bal := by
  constructor
  · intro h
    by_contra hnot
    simp only [not_or, not_forall, not_not, Nat.not_lt, Nat.not_le] at hnot
    obtain ⟨htier, rfl, bal, hbal, hmin, hshort⟩ := hnot
    cases tier with
    | basic => exact htier rfl
    | genius => exact genius_short hbal hmin hshort h
  · intro hcond disk now nextPid chain st₀ tr₀ req budget st tr _ hadmits hbalance _ pid w r crates
      c a hchat htier hdenom ha htokens hi
    subst hbalance
    obtain ⟨hmin, hbudget⟩ := hadmits.budget_eq
    have hfloor : minHoldBartok tier ≤ budget := hbudget ▸ (sessionBudget_bounds hmin).1
    have hown : tierEntry c.tier = .own tier := htier ▸ hadmits.own
    have hpos : 0 < c.env.denom.toNat := UInt64.lt_iff_toNat_lt.mp denom_pos
    rw [ha] at hi
    rw [refused_iff hchat hi, Nat.not_lt]
    cases tier with
    | basic =>
        have hmaxed : exactCharge (tokenLimit .basic) (TIERS .basic).pricePerToken 1 ≤
            minHoldBartok .basic := by decide
        exact (charge_le_of_ok hown ha htokens one_pos hpos).trans (hmaxed.trans hfloor)
    | genius =>
        by_cases hone : c.env.denom = 1
        · -- at full price a maxed reply costs more than the floor
          have hmaxed : a.charge ≤ 14336 := charge_le_of_ok hown ha htokens one_pos hpos
          apply hmaxed.trans
          rcases hcond with hbasic | hother | hbal
          · cases hbasic
          · exact absurd (hdenom ▸ hone) hother
          · subst hbudget
            cases hunits : req.balance.units with
            | none => decide
            | some bal =>
                simp only [hunits, belowMinHold, decide_eq_false_iff_not, Nat.not_lt] at hmin
                have hbal := hbal bal hunits
                change 14336 ≤ min 200000 bal
                omega
        · have htwo : 2 ≤ c.env.denom.toNat := by
            have hne : c.env.denom.toNat ≠ 1 := fun h => hone (UInt64.toNat_inj.mp h)
            omega
          have hmaxed : exactCharge (tokenLimit .genius) (TIERS .genius).pricePerToken 2 ≤
              minHoldBartok .genius := by decide
          exact (charge_le_of_ok hown ha htokens Nat.two_pos htwo).trans (hmaxed.trans hfloor)

/-- The comment on the floors says `> one worst-case reply`. -/
theorem genius_floor_too_low : ¬ PaysWorstCase .genius (.finite 10000 0) 1 :=
  genius_short rfl (by decide) (by decide)

end Bartok.Proof
