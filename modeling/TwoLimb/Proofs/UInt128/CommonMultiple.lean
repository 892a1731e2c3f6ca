/-
# The least common multiple of two values

A value divided by the greatest common divisor leaves no remainder, and the quotient times
the other value is the least common multiple of the integers. The multiple is the only
number that can be too large: the verdict of the checked form is that of its last product,
and the wrapping form cuts nothing before it. Neither depends on which of the two values is
the one that is divided.
-/

import TwoLimb.Proofs.UInt128.CommonDivisor
import TwoLimb.Proofs.UInt128.Division
import TwoLimb.Proofs.UInt128.Overflow

namespace TwoLimb.UInt128

variable {a b : UInt128}

theorem gcd_ne_zero (ha : a.toNat ≠ 0) : a.gcd b ≠ zero := by
  intro hzero
  have hdivisor := toNat_gcd a b
  rw [hzero, toNat_zero] at hdivisor
  exact ha (Nat.eq_zero_of_gcd_eq_zero_left hdivisor.symm)

/-- The quotient by the divisor is exact, so its product with the other value is the least
common multiple. -/
theorem exists_reduced (ha : a.toNat ≠ 0) (b : UInt128) :
    ∃ reduced : UInt128, a.div? (a.gcd b) = some reduced ∧
      reduced.toNat * b.toNat = Nat.lcm a.toNat b.toNat := by
  have hdivides : (a.divMod (a.gcd b)).Divides a (a.gcd b) := divides_divMod a (gcd_ne_zero ha)
  refine ⟨(a.divMod (a.gcd b)).quotient,
    (answersEverywhere (gcd_ne_zero ha) hdivides).div?, ?_⟩
  rw [IsDivision.quotient_eq hdivides, toNat_gcd]
  exact Nat.div_mul_right_comm (Nat.gcd_dvd_left _ _) _

/-- With a value of zero there is no multiple but zero. -/
theorem integer_lcm_eq_zero (hzero : (a.isZero || b.isZero) = true) :
    Nat.lcm a.toNat b.toNat = 0 := by
  rcases (Bool.or_eq_true _ _).mp hzero with ha | hb
  · rw [(isZero_iff a).mp ha, Nat.lcm_zero_left]
  · rw [(isZero_iff b).mp hb, Nat.lcm_zero_right]

/-- Both forms read one flagged result, whose exact value is the least common multiple. -/
theorem exists_truncates_lcm (a b : UInt128) :
    ∃ result : UInt128 × Bool, Truncates result (Nat.lcm a.toNat b.toNat) ∧
      a.lcm? b = unflagged result ∧ a.lcm b = result.1 := by
  by_cases hzero : (a.isZero || b.isZero) = true
  · refine ⟨(zero, false), ?_, if_pos hzero, if_pos hzero⟩
    rw [integer_lcm_eq_zero hzero]
    exact ⟨rfl, rfl⟩
  · have ha : a.toNat ≠ 0 := by
      intro ha
      rw [(isZero_iff a).mpr ha, Bool.true_or] at hzero
      exact hzero rfl
    obtain ⟨reduced, hreduced, hproduct⟩ := exists_reduced ha b
    refine ⟨reduced.overflowingMul b, hproduct ▸ truncates_overflowingMul reduced b, ?_, ?_⟩
    · rw [lcm?, if_neg hzero, hreduced]
      rfl
    · rw [lcm, if_neg hzero, hreduced]
      rfl

theorem lcm?_eq_some_iff (a b c : UInt128) :
    a.lcm? b = some c ↔ c.toNat = Nat.lcm a.toNat b.toNat := by
  obtain ⟨result, hresult, hchecked, _⟩ := exists_truncates_lcm a b
  rw [hchecked, hresult.reduces.unflagged_eq_some_iff]
  exact Int.ofNat_inj

theorem lcm?_eq_none_iff (a b : UInt128) :
    a.lcm? b = none ↔ 2 ^ 128 ≤ Nat.lcm a.toNat b.toNat := by
  obtain ⟨result, hresult, hchecked, _⟩ := exists_truncates_lcm a b
  rw [hchecked, hresult.reduces.unflagged_eq_none_iff, ← hresult.reduces.flag, hresult.flag,
    decide_eq_true_iff]

theorem toNat_lcm (a b : UInt128) :
    (a.lcm b).toNat = Nat.lcm a.toNat b.toNat % 2 ^ 128 := by
  obtain ⟨result, hresult, _, hwrapping⟩ := exists_truncates_lcm a b
  rw [hwrapping, hresult.value]

/-- The checked form has the least common multiple of the integers exactly when it fits, and
the wrapping form has it modulo `2^128`. Zero has no multiple but zero, and the order of the
values does not matter. -/
theorem lcm_is_integer_lcm (a b : UInt128) :
    (∀ c : UInt128, a.lcm? b = some c ↔ c.toNat = Nat.lcm a.toNat b.toNat) ∧
      (a.lcm? b = none ↔ 2 ^ 128 ≤ Nat.lcm a.toNat b.toNat) ∧
      (a.lcm b).toNat = Nat.lcm a.toNat b.toNat % 2 ^ 128 ∧
      (a = zero ∨ b = zero → a.lcm? b = some zero ∧ a.lcm b = zero) ∧
      a.lcm? b = b.lcm? a ∧ a.lcm b = b.lcm a := by
  refine ⟨lcm?_eq_some_iff a b, lcm?_eq_none_iff a b, toNat_lcm a b, ?_, ?_, ?_⟩
  · intro hzero
    have hzero : (a.isZero || b.isZero) = true := by
      rcases hzero with rfl | rfl
      · rfl
      · exact Bool.or_true _
    exact ⟨if_pos hzero, if_pos hzero⟩
  · apply Option.ext
    intro c
    rw [lcm?_eq_some_iff, lcm?_eq_some_iff, Nat.lcm_comm]
  · apply ext_toNat
    rw [toNat_lcm, toNat_lcm, Nat.lcm_comm]

end TwoLimb.UInt128
