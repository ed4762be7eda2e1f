import Mathlib.Algebra.Group.Int.Defs
import Mathlib.Data.Nat.Notation

/-!
# Tiers, prices and holds

The economics block of the bridge: the two tiers, what a session of a tier
holds, and how a self-reported balance is read. Tier names arrive from clients,
and `TIERS[name]` also finds the members that every object inherits.
-/

namespace Bartok.Bridge

inductive Tier
  | basic
  | genius
deriving DecidableEq

structure TierConfig where
  models : List String
  pricePerToken : ℕ
  requiresAccount : Bool

/-- `TIERS`. -/
def TIERS : Tier → TierConfig
  | .basic =>
      { models := ["nvidia/nemotron-nano-9b-v2:free", "openai/gpt-oss-20b:free"]
        pricePerToken := 1
        requiresAccount := false }
  | .genius =>
      { models := ["meta-llama/llama-3.3-70b-instruct:free",
          "qwen/qwen3-next-80b-a3b-instruct:free", "openai/gpt-oss-120b:free",
          "nvidia/nemotron-3-super-120b-a12b:free"]
        pricePerToken := 7
        requiresAccount := true }

/-- `CONFIG.holdBartok`. -/
def holdBartok : Tier → ℕ
  | .basic => 50000
  | .genius => 200000

/-- `CONFIG.minHoldBartok`. -/
def minHoldBartok : Tier → ℕ
  | .basic => 2500
  | .genius => 10000

/-- `CONFIG.anonSpendCapBartok`. -/
def anonSpendCapBartok : ℕ := 5000000

/-- `SWEEP_IDLE_MS`: two hours. -/
def sweepIdleMs : ℕ := 2 * 60 * 60 * 1000

/-- What `TIERS[name]` evaluates to: a tier, a member of `Object.prototype`
(truthy, but without any field of a tier), or `undefined`. -/
inductive TierEntry
  | own (tier : Tier)
  | inherited
  | missing
deriving DecidableEq

def objectPrototypeKeys : List String :=
  ["constructor", "__defineGetter__", "__defineSetter__", "hasOwnProperty", "__lookupGetter__",
    "__lookupSetter__", "isPrototypeOf", "propertyIsEnumerable", "toString", "valueOf",
    "__proto__", "toLocaleString"]

def tierEntry (name : String) : TierEntry :=
  if name = "basic" then .own .basic
  else if name = "genius" then .own .genius
  else if name ∈ objectPrototypeKeys then .inherited
  else .missing

/-- `TIERS[name].requiresAccount`; inherited members have no such field. -/
def TierEntry.requiresAccount : TierEntry → Bool
  | .own tier => (TIERS tier).requiresAccount
  | _ => false

/-- A JavaScript number, as `Number(..)` answers it: finite ones are dyadic,
`num / 2 ^ scale`. -/
inductive JsNumber
  | nan
  | infinity (negative : Bool)
  | finite (num : ℤ) (scale : ℕ)
deriving DecidableEq

/-- `Math.max(0, Math.floor(Number(balance) || 0))`, with `none` for `Infinity`. -/
def JsNumber.units : JsNumber → Option ℕ
  | .nan => some 0
  | .infinity true => some 0
  | .infinity false => none
  | .finite num scale => some (num / 2 ^ scale).toNat

/-- `bal < CONFIG.minHoldBartok[tier]`. -/
def belowMinHold (tier : Tier) : Option ℕ → Bool
  | none => false
  | some bal => bal < minHoldBartok tier

/-- `Math.min(CONFIG.holdBartok[tier], bal)`. -/
def sessionBudget (tier : Tier) : Option ℕ → ℕ
  | none => holdBartok tier
  | some bal => min (holdBartok tier) bal

/-- A session is opened with a hold between its tier's floor and cap. -/
theorem sessionBudget_bounds {tier : Tier} {bal : Option ℕ} (h : belowMinHold tier bal = false) :
    minHoldBartok tier ≤ sessionBudget tier bal ∧ sessionBudget tier bal ≤ holdBartok tier := by
  have hfloor : minHoldBartok tier ≤ holdBartok tier := by cases tier <;> decide
  cases bal with
  | none => exact ⟨hfloor, Nat.le_refl _⟩
  | some bal =>
      simp only [belowMinHold, decide_eq_false_iff_not, Nat.not_lt] at h
      simp only [sessionBudget]
      omega

end Bartok.Bridge
