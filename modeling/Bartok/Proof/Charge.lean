import Bartok.Proof.Oracle

/-!
# The price of a reply

The charge is the price of the tokens, rounded to the nearest unit, and at least one unit
for any use. The oracle computes it in 64 bits: product and sum wrap, the quotient does
not. What wraps loses a multiple of `2 ^ 64`, more than the largest denominator.
-/

namespace Bartok.Proof

open Foundation Text

/-- Any real usage costs at least one unit. -/
def atLeastOne (total c : ℕ) : ℕ := if 0 < total ∧ c = 0 then 1 else c

/-- The rounded price as an integer. -/
def exactCharge (total price denom : ℕ) : ℕ :=
  atLeastOne total ((total * price + denom / 2) / denom)

/-- The charge is the rounded price, no step on the way to it wraps, and fewer tokens do
not cost more. -/
structure ChargedExactly (total price denom : UInt64) : Prop where
  exact : (charge total price denom).toNat = exactCharge total.toNat price.toNat denom.toNat
  product : total.toNat * price.toNat < UInt64.size
  sum : total.toNat * price.toNat + denom.toNat / 2 < UInt64.size
  mono : ∀ fewer ≤ total, charge fewer price denom ≤ charge total price denom

section Charge

variable {total fewer price denom : UInt64} {n m k : ℕ}

/-- The sum wraps once, at its end. -/
theorem charge_toNat : (charge total price denom).toNat = atLeastOne total.toNat
    ((total.toNat * price.toNat + denom.toNat / 2) % UInt64.size / denom.toNat) := by
  have hquotient : ((total * price + denom / 2) / denom).toNat =
      (total.toNat * price.toNat + denom.toNat / 2) % UInt64.size / denom.toNat := by
    rw [UInt64.toNat_div, UInt64.toNat_add, UInt64.toNat_mul, UInt64.toNat_div, Nat.mod_add_mod]
    rfl
  have hpos : total > 0 ↔ 0 < total.toNat := UInt64.lt_iff_toNat_lt
  have hzero : (total * price + denom / 2) / denom = 0 ↔
      ((total * price + denom / 2) / denom).toNat = 0 := UInt64.toNat_inj.symm
  rw [charge, atLeastOne, ← hquotient]
  simp only [hpos, hzero]
  split <;> rfl

theorem atLeastOne_mono (htotal : n ≤ m) {c d : ℕ} (hc : c ≤ d) :
    atLeastOne n c ≤ atLeastOne m d := by
  unfold atLeastOne
  split <;> split <;> omega

theorem charge_exact (h : total.toNat * price.toNat + denom.toNat / 2 < UInt64.size) :
    (charge total price denom).toNat = exactCharge total.toNat price.toNat denom.toNat := by
  rw [charge_toNat, exactCharge, Nat.mod_eq_of_lt h]

theorem charge_mono (h : total.toNat * price.toNat + denom.toNat / 2 < UInt64.size)
    (hle : fewer ≤ total) : charge fewer price denom ≤ charge total price denom := by
  have htotal : fewer.toNat ≤ total.toNat := UInt64.le_iff_toNat_le.mp hle
  have hsum : fewer.toNat * price.toNat + denom.toNat / 2 ≤
      total.toNat * price.toNat + denom.toNat / 2 :=
    Nat.add_le_add_right (Nat.mul_le_mul_right _ htotal) _
  rw [UInt64.le_iff_toNat_le, charge_exact h, charge_exact (Nat.lt_of_le_of_lt hsum h)]
  exact atLeastOne_mono htotal (Nat.div_le_div_right hsum)

/-- A wrapped sum is short by more than a denominator, so that its quotient is too small,
unless the quotient is one: then the least charge makes up for it. -/
theorem charge_eq_iff (hd : 0 < denom) :
    (charge total price denom).toNat = exactCharge total.toNat price.toNat denom.toNat ↔
      total.toNat * price.toNat + denom.toNat / 2 < UInt64.size ∨
        total.toNat * price.toNat + denom.toNat / 2 < 2 * denom.toNat := by
  have hd : 0 < denom.toNat := UInt64.lt_iff_toNat_lt.mp hd
  have hsize : denom.toNat < UInt64.size := denom.toNat_lt
  by_cases hsum : total.toNat * price.toNat + denom.toNat / 2 < UInt64.size
  · exact iff_of_true (charge_exact hsum) (.inl hsum)
  · have htotal : 0 < total.toNat := by
      by_contra hzero
      obtain hzero : total.toNat = 0 := by omega
      rw [hzero, Nat.zero_mul] at hsum
      omega
    rw [charge_toNat, exactCharge]
    generalize total.toNat * price.toNat + denom.toNat / 2 = x at hsum
    have hone : 1 ≤ x / denom.toNat := (Nat.one_le_div_iff hd).mpr (by omega)
    rw [atLeastOne, atLeastOne, if_neg (show ¬(0 < total.toNat ∧ x / denom.toNat = 0) by omega),
      or_iff_right hsum]
    constructor
    · -- what remains after wrapping lacks a whole denominator
      intro heq
      by_contra htwo
      have htwo : 2 ≤ x / denom.toNat := (Nat.le_div_iff_mul_le hd).mpr (by omega)
      have hmod : x % UInt64.size + denom.toNat ≤ x := by
        have := Nat.div_add_mod x UInt64.size
        have hquot : 1 ≤ x / UInt64.size := (Nat.one_le_div_iff (by decide)).mpr (by omega)
        have := Nat.mul_le_mul_left UInt64.size hquot
        omega
      have hless : x % UInt64.size / denom.toNat + 1 ≤ x / denom.toNat := by
        rw [← Nat.add_div_right _ hd]
        exact Nat.div_le_div_right hmod
      split at heq <;> omega
    · intro htwo
      have hmod : x % UInt64.size = x - UInt64.size := by
        rw [Nat.mod_eq_sub_mod (by omega), Nat.mod_eq_of_lt (by omega)]
      have hzero : x % UInt64.size / denom.toNat = 0 := by
        rw [hmod]
        exact Nat.div_eq_of_lt (by omega)
      have hquot : x / denom.toNat < 2 := (Nat.div_lt_iff_lt_mul hd).mpr (by omega)
      rw [if_pos ⟨htotal, hzero⟩]
      omega

/-- **The charge is exact and no step wraps, exactly if the rounded price fits 64 bits.**
The number alone is right in one more case, where the price rounds to one unit. -/
theorem charged_exactly_iff (hd : 0 < denom) :
    (ChargedExactly total price denom ↔
        total.toNat * price.toNat + denom.toNat / 2 < UInt64.size) ∧
      ((charge total price denom).toNat = exactCharge total.toNat price.toNat denom.toNat ↔
        total.toNat * price.toNat + denom.toNat / 2 < UInt64.size ∨
          total.toNat * price.toNat + denom.toNat / 2 < 2 * denom.toNat) := by
  refine ⟨⟨fun h => h.sum, fun h => ?_⟩, charge_eq_iff hd⟩
  exact ⟨charge_exact h, Nat.lt_of_le_of_lt (Nat.le_add_right _ _) h, h, fun _ => charge_mono h⟩

end Charge

/-- A thousand tokens at seven units. -/
theorem charged_exactly_demo : ChargedExactly 1000 7 1 :=
  (charged_exactly_iff (by decide)).1.mpr (by decide)

/-- The product wraps to nothing, and one unit is charged. -/
theorem charge_wraps : ¬ ∀ total price denom : UInt64, 0 < denom →
    ChargedExactly total price denom := by
  intro h
  have hexact := (h 0x100000000 0x100000000 1 (by decide)).exact
  revert hexact
  decide

/-! ## The line of the oracle -/

section Line

variable {crates : Crates} {env : OracleEnv} {file : Option crates.Presentation} {line : OracleLine}

theorem denom_pos : 0 < env.denom := by
  unfold OracleEnv.denom
  cases h : (env.priceDenom.bind parseU64).filter (0 < ·) with
  | none => decide
  | some d => simpa using (Option.filter_eq_some_iff.mp h).2

/-- The charge of each line that is printed is computed so. -/
theorem charge_of_main (h : main crates env file = .ok line) :
    ∃ price, env.pricePerToken.bind parseU64 = some price ∧
      line.charge = charge line.totalTokens price env.denom := by
  obtain ⟨p, out, price, -, hprice, -, -, hline⟩ := main_eq_ok.mp h
  obtain ⟨total, model, -, rfl⟩ := chargeLine_eq_ok.mp hline
  exact ⟨price, hprice, rfl⟩

end Line

end Bartok.Proof
