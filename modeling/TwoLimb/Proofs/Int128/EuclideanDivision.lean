/-
# Euclidean division

A Euclidean division leaves a remainder that is not negative, whatever the signs. It is got
from the truncated division by a correction. A negative remainder is raised by the magnitude
of the divisor, and the quotient moves by one so that nothing is lost: up if the divisor is
negative, and down if it is not.

Quotient and remainder are corrected apart from each other, in arithmetic that wraps. The
magnitude of the least value is no signed value, yet added to a negative remainder it gives
one, and the reduction of the sum is all that is left to see. So the remainder is exact for
every divisor. The quotient is reduced only where the truncated one is.
-/

import TwoLimb.Proofs.Int128.Division

namespace TwoLimb

/-- Quotient and remainder of a Euclidean division: together they give the dividend back, and
the remainder is below the divisor and never negative. -/
def IsEuclideanDivision (dividend divisor quotient remainder : Int) : Prop :=
  dividend = quotient * divisor + remainder ∧ 0 ≤ remainder ∧ remainder < divisor.natAbs

/-- There is one Euclidean division by a divisor that is not zero. -/
theorem isEuclideanDivision_iff {dividend divisor quotient remainder : Int}
    (hdivisor : divisor ≠ 0) :
    IsEuclideanDivision dividend divisor quotient remainder ↔
      quotient = dividend / divisor ∧ remainder = dividend % divisor := by
  constructor
  · rintro ⟨hvalue, hnonneg, hlt⟩
    rw [Int.mul_comm] at hvalue
    rcases Int.lt_or_gt_of_ne hdivisor with hnegative | hpositive
    · obtain ⟨hquotient, hremainder⟩ := (Int.ediv_emod_unique' hnegative).mpr
        ⟨(by omega : remainder + divisor * quotient = dividend), hnonneg, by omega⟩
      exact ⟨hquotient.symm, hremainder.symm⟩
    · obtain ⟨hquotient, hremainder⟩ := (Int.ediv_emod_unique hpositive).mpr
        ⟨(by omega : remainder + divisor * quotient = dividend), hnonneg, by omega⟩
      exact ⟨hquotient.symm, hremainder.symm⟩
  · rintro ⟨rfl, rfl⟩
    exact ⟨(Int.ediv_mul_add_emod dividend divisor).symm, Int.emod_nonneg dividend hdivisor,
      Int.emod_lt dividend hdivisor⟩

/-- The correction of a truncated division is the Euclidean one. -/
theorem IsTruncatedDivision.corrected {dividend divisor quotient remainder : Int}
    (hdivision : IsTruncatedDivision dividend divisor quotient remainder) :
    IsEuclideanDivision dividend divisor
      (if remainder < 0 then if divisor < 0 then quotient + 1 else quotient - 1 else quotient)
      (if remainder < 0 then remainder + divisor.natAbs else remainder) := by
  obtain ⟨hvalue, hlt, _⟩ := hdivision
  by_cases hremainder : remainder < 0
  · rw [if_pos hremainder, if_pos hremainder]
    refine ⟨?_, by omega, by omega⟩
    by_cases hdivisor : divisor < 0
    · rw [if_pos hdivisor, Int.add_mul]
      omega
    · rw [if_neg hdivisor, Int.sub_mul]
      omega
  · rw [if_neg hremainder, if_neg hremainder]
    exact ⟨hvalue, by omega, by omega⟩

namespace Int128

/-- The quotient and the remainder that the correction of the exact truncated division owes. -/
theorem corrected_eq (a : Int128) {b : Int128} (hb : b ≠ zero) :
    (if a.toInt.tmod b.toInt < 0 then
        if b.toInt < 0 then a.toInt.tdiv b.toInt + 1 else a.toInt.tdiv b.toInt - 1
      else a.toInt.tdiv b.toInt) = a.toInt / b.toInt ∧
      (if a.toInt.tmod b.toInt < 0 then a.toInt.tmod b.toInt + b.toInt.natAbs
        else a.toInt.tmod b.toInt) = a.toInt % b.toInt :=
  (isEuclideanDivision_iff (toInt_ne_zero hb)).mp
    (isTruncatedDivision_tdiv_tmod a.toInt (toInt_ne_zero hb)).corrected

theorem remainder_isNegative_iff (a : Int128) {b : Int128} (hb : b ≠ zero) :
    (a.divMod b).remainder.isNegative = true ↔ a.toInt.tmod b.toInt < 0 := by
  rw [isNegative_iff_toInt_neg, (a.toInt_divMod hb).2, bmod_of_inRange (a.inRange_tmod hb)]

/-- Read as a signed value, the magnitude wraps if it is that of the least value. -/
theorem toInt_mk_unsignedAbs (b : Int128) :
    toInt ⟨b.unsignedAbs⟩ = (b.toInt.natAbs : Int).bmod (2 ^ 128) := by
  rw [toInt_eq_bmod, toNat_unsignedAbs]

/-- A remainder below the magnitude of a signed value is a signed value. -/
theorem inRange_emod (a : Int128) {b : Int128} (hb : b ≠ zero) :
    InRange (a.toInt % b.toInt) := by
  have hbounds := b.toInt_bounds
  have hnonneg := Int.emod_nonneg a.toInt (toInt_ne_zero hb)
  have hlt := Int.emod_lt a.toInt (toInt_ne_zero hb)
  rw [InRange]
  omega

/-- Only the quotient of the least value by minus one is no signed value. -/
theorem inRange_quotient {a b : Int128} (hb : b ≠ zero) (hpair : ¬(a = min ∧ b = negOne)) :
    InRange (a.toInt / b.toInt) := by
  have ha := a.toInt_bounds
  have hle := Int.natAbs_ediv_le_natAbs a.toInt b.toInt
  have hvalue := Int.ediv_mul_add_emod a.toInt b.toInt
  have hnonneg := Int.emod_nonneg a.toInt (toInt_ne_zero hb)
  have hlt := Int.emod_lt a.toInt (toInt_ne_zero hb)
  -- A quotient is no larger than its dividend, so one value is left to exclude.
  have hquotient : a.toInt / b.toInt ≠ 2 ^ 127 := by
    intro hlimit
    rw [hlimit] at hvalue
    apply hpair
    rw [eq_min_iff, ← toInt_inj (b := negOne), toInt_negOne]
    omega
  rw [InRange]
  omega

theorem divEuclid_of_ne_zero (a : Int128) {b : Int128} (hb : b ≠ zero) :
    a.divEuclid b = .ok (if (a.divMod b).remainder.isNegative = true then
      if b.isNegative = true then (a.divMod b).quotient + one else (a.divMod b).quotient - one
      else (a.divMod b).quotient) := by
  rw [divEuclid, (a.answersWrapped hb).divModOrError]
  exact (apply_ite Except.ok _ _ _).symm

theorem remEuclid_of_ne_zero (a : Int128) {b : Int128} (hb : b ≠ zero) :
    a.remEuclid b = .ok (if (a.divMod b).remainder.isNegative = true then
      (a.divMod b).remainder + ⟨b.unsignedAbs⟩ else (a.divMod b).remainder) := by
  rw [remEuclid, (a.answersWrapped hb).divModOrError]
  exact (apply_ite Except.ok _ _ _).symm

/-- The quotient is exact up to one reduction. -/
theorem exists_divEuclid (a : Int128) {b : Int128} (hb : b ≠ zero) :
    ∃ quotient : Int128, a.divEuclid b = .ok quotient ∧
      quotient.toInt = (a.toInt / b.toInt).bmod (2 ^ 128) := by
  have hquotient := (a.toInt_divMod hb).1
  refine ⟨_, a.divEuclid_of_ne_zero hb, ?_⟩
  rw [← (a.corrected_eq hb).1]
  by_cases hsign : (a.divMod b).remainder.isNegative = true
  · rw [if_pos hsign, if_pos ((a.remainder_isNegative_iff hb).mp hsign)]
    by_cases hdivisor : b.isNegative = true
    · rw [if_pos hdivisor, if_pos (b.isNegative_iff_toInt_neg.mp hdivisor), toInt_add, hquotient,
        toInt_one, Int.bmod_add_bmod]
    · rw [if_neg hdivisor, if_neg (mt b.isNegative_iff_toInt_neg.mpr hdivisor), toInt_sub,
        hquotient, toInt_one, Int.bmod_sub_bmod]
  · rw [if_neg hsign, if_neg (mt (a.remainder_isNegative_iff hb).mpr hsign)]
    exact hquotient

/-- The remainder is exact, for the least value as divisor too. -/
theorem exists_remEuclid (a : Int128) {b : Int128} (hb : b ≠ zero) :
    ∃ remainder : Int128, a.remEuclid b = .ok remainder ∧
      remainder.toInt = a.toInt % b.toInt := by
  have hremainder := (a.toInt_divMod hb).2
  refine ⟨_, a.remEuclid_of_ne_zero hb, ?_⟩
  rw [← bmod_of_inRange (a.inRange_emod hb), ← (a.corrected_eq hb).2]
  by_cases hsign : (a.divMod b).remainder.isNegative = true
  · rw [if_pos hsign, if_pos ((a.remainder_isNegative_iff hb).mp hsign), toInt_add, hremainder,
      toInt_mk_unsignedAbs, Int.bmod_add_bmod, Int.add_bmod_bmod]
  · rw [if_neg hsign, if_neg (mt (a.remainder_isNegative_iff hb).mpr hsign)]
    exact hremainder

/-- Division by a divisor that is not zero leaves a remainder that is not negative and is below
the magnitude of the divisor. With the quotient it makes the one Euclidean division there is,
except that the least value divided by minus one wraps to itself. Divisor zero is an error of
both parts. -/
theorem euclidean_division_of_integers (a b : Int128) :
    (b ≠ zero → ∃ quotient remainder : Int128,
      a.divEuclid b = .ok quotient ∧ a.remEuclid b = .ok remainder ∧
        0 ≤ remainder.toInt ∧ remainder.toInt < b.toInt.natAbs ∧
        (¬(a = min ∧ b = negOne) → ∀ q r : Int,
          IsEuclideanDivision a.toInt b.toInt q r ↔
            q = quotient.toInt ∧ r = remainder.toInt)) ∧
      (a = min → b = negOne → a.divEuclid b = .ok min ∧ a.remEuclid b = .ok zero) ∧
      (b = zero → a.divEuclid b = .error .divideByZero ∧
        a.remEuclid b = .error .divideByZero) := by
  refine ⟨?_, ?_, ?_⟩
  · intro hb
    have hne := toInt_ne_zero hb
    obtain ⟨quotient, hdiv, hquotient⟩ := a.exists_divEuclid hb
    obtain ⟨remainder, hrem, hremainder⟩ := a.exists_remEuclid hb
    refine ⟨quotient, remainder, hdiv, hrem, ?_, ?_, ?_⟩
    · rw [hremainder]
      exact Int.emod_nonneg a.toInt hne
    · rw [hremainder]
      exact Int.emod_lt a.toInt hne
    · intro hpair q r
      rw [hquotient, bmod_of_inRange (inRange_quotient hb hpair), hremainder]
      exact isEuclideanDivision_iff hne
  · rintro rfl rfl
    have hdivision := (min.answersWrapped (show negOne ≠ zero by decide)).divModOrError
    rw [divMod_min_negOne] at hdivision
    rw [divEuclid, remEuclid, hdivision]
    exact ⟨rfl, rfl⟩
  · rintro rfl
    rw [divEuclid, remEuclid, a.refuses_zero.divModOrError]
    exact ⟨rfl, rfl⟩

end Int128

end TwoLimb
