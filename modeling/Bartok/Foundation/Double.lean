import Mathlib.Algebra.Group.Nat.Defs
import Mathlib.Data.Nat.Log

/-!
# Whole numbers in binary floating point

A number is kept with so many binary digits, counted from its first one; what is left is
rounded to the nearest, and to the even one of two. A number with no more digits than that
is itself, and no other falls below these.
-/

namespace Bartok.Foundation

/-- The unit in the last of `p` binary digits of `n`. -/
def ulp (p n : ℕ) : ℕ := 2 ^ (n.log2 + 1 - p)

/-- The nearest number with `p` binary digits. -/
def roundBits (p n : ℕ) : ℕ :=
  let q := n / ulp p n
  let r := n % ulp p n
  if 2 * r < ulp p n ∨ 2 * r = ulp p n ∧ q % 2 = 0 then q * ulp p n else (q + 1) * ulp p n

/-- The number has `p` binary digits, and zeros behind them. -/
def Representable (p n : ℕ) : Prop := ulp p n ∣ n

instance (p n : ℕ) : Decidable (Representable p n) := inferInstanceAs (Decidable (_ ∣ _))

section Rounding

variable {p n : ℕ}

theorem ulp_pos : 0 < ulp p n := Nat.two_pow_pos _

theorem roundBits_eq_iff : roundBits p n = n ↔ Representable p n := by
  constructor
  · intro h
    have hdvd : ulp p n ∣ roundBits p n := by
      unfold roundBits
      dsimp only
      split <;> exact Nat.dvd_mul_left _ _
    rwa [h] at hdvd
  · intro h
    have hmod : n % ulp p n = 0 := Nat.mod_eq_zero_of_dvd h
    have hsmall : 2 * (n % ulp p n) < ulp p n := by
      rw [hmod]
      exact ulp_pos
    unfold roundBits
    dsimp only
    rw [if_pos (.inl hsmall)]
    exact Nat.div_mul_cancel h

/-- So few digits are all kept. -/
theorem representable_of_lt (h : n < 2 ^ p) : Representable p n := by
  have hlog : n.log2 + 1 - p = 0 ∨ n = 0 := by
    rcases Nat.eq_zero_or_pos n with rfl | hpos
    · exact .inr rfl
    · have := (Nat.log2_lt hpos.ne').mpr h
      omega
  rcases hlog with hlog | rfl
  · rw [Representable, ulp, hlog, Nat.pow_zero]
    exact Nat.one_dvd n
  · exact Nat.dvd_zero _

/-- A number with more digits is not rounded to one with so few. -/
theorem le_roundBits (hp : 0 < p) (h : 2 ^ p ≤ n) : 2 ^ p ≤ roundBits p n := by
  have hpos : n ≠ 0 := by
    rintro rfl
    exact absurd h (Nat.not_le.mpr (Nat.two_pow_pos p))
  have hlog : p ≤ n.log2 := (Nat.le_log2 hpos).mpr h
  have hfloor : 2 ^ p ≤ n / ulp p n * ulp p n := by
    have hfirst : 2 ^ (p - 1) ≤ n / ulp p n := by
      rw [Nat.le_div_iff_mul_le ulp_pos, ulp, ← Nat.pow_add]
      exact (Nat.pow_le_pow_right Nat.two_pos (by omega)).trans (Nat.log2_self_le hpos)
    have hmul : 2 ^ (p - 1) * ulp p n ≤ n / ulp p n * ulp p n := Nat.mul_le_mul_right _ hfirst
    refine le_trans ?_ hmul
    rw [ulp, ← Nat.pow_add]
    exact Nat.pow_le_pow_right Nat.two_pos (by omega)
  unfold roundBits
  dsimp only
  split
  · exact hfloor
  · exact hfloor.trans (Nat.mul_le_mul_right _ (Nat.le_succ _))

/-- What is rounded to a number below `2 ^ p` is that number. -/
theorem eq_of_roundBits_lt (hp : 0 < p) (h : roundBits p n < 2 ^ p) : roundBits p n = n := by
  rw [roundBits_eq_iff]
  apply representable_of_lt
  by_contra hlarge
  exact absurd (le_roundBits hp (Nat.not_lt.mp hlarge)) (Nat.not_le.mpr h)

end Rounding

/-- The double nearest to a whole number: no number of 64 bits is too large for one. -/
def asDouble (n : ℕ) : ℕ := roundBits 53 n

example : asDouble 9007199254740993 = 9007199254740992 := by decide

end Bartok.Foundation
