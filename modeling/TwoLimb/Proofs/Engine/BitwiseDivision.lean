/-
# Division of a pair bit by bit

The dividend is read from its topmost bit downwards. What has been read at any time
is divided exactly by what has been computed, and that is all a step relies on. For
divisors above `2^63` the doubled remainder can need a 65th bit; since it is below
twice the divisor, one wrapping subtraction still gives the exact remainder.
-/

import TwoLimb.Engine.Portable
import TwoLimb.Proofs.Engine.Exact

namespace TwoLimb.Engine.Portable

/-- A limb moved up by one place with a bit brought down into the free place. -/
theorem toNat_shl_one_or (x bit : Limb) (hbit : bit.toNat < 2) :
    (x.shl 1 ||| bit).toNat = 2 * x.toNat % 2 ^ 64 + bit.toNat := by
  rw [UInt64.toNat_or, Limb.toNat_shl x (show 1 < 64 by decide),
    mul_two_pow_mod_two_pow x.toNat (show 1 ≤ 64 by decide), mul_two_pow_or hbit]
  omega

theorem toNat_shr_and_one (x : Limb) {place : Nat} (hplace : place < 64) :
    (x.shr place &&& 1).toNat = x.toNat / 2 ^ place % 2 := by
  rw [UInt64.toNat_and, Limb.toNat_shr x hplace]
  exact Nat.and_one_is_mod _

namespace Bitwise

/-- The numbers after the bits of the dividend from the topmost one down to bit `place`
have been brought down: the part of the dividend that has been read is divided
exactly, and the quotient has as many bits as have been read. -/
structure Invariant (high low divisor : Limb) (place : Nat) (s : Bitwise) : Prop where
  value : high.toNat * 2 ^ (64 - place) + low.toNat / 2 ^ place =
    s.quotient.toNat * divisor.toNat + s.remainder.toNat
  remainder_lt : s.remainder.toNat < divisor.toNat
  quotient_lt : s.quotient.toNat < 2 ^ (64 - place)

variable {high low divisor bit : Limb} {s : Bitwise}

/-- The comparison of a step, spilled bit included, is that of the doubled remainder
with all its bits. -/
theorem fits_iff (hremainder : s.remainder.toNat < divisor.toNat) (hbit : bit.toNat < 2) :
    (s.remainder.shr (Limb.bits - 1) ≠ 0 ∨ divisor ≤ s.remainder.shl 1 ||| bit) ↔
      divisor.toNat ≤ 2 * s.remainder.toNat + bit.toNat := by
  have hdivisor := divisor.toNat_lt
  rw [ne_eq, ← UInt64.toNat_inj, Limb.toNat_shr _ (show Limb.bits - 1 < 64 by decide),
    UInt64.toNat_zero, show Limb.bits - 1 = 63 from rfl, UInt64.le_iff_toNat_le,
    toNat_shl_one_or _ _ hbit]
  omega

/-- The wrapping difference restores the remainder, with or without a spilled bit. -/
theorem toNat_doubled_sub (hremainder : s.remainder.toNat < divisor.toNat)
    (hbit : bit.toNat < 2) (hfits : divisor.toNat ≤ 2 * s.remainder.toNat + bit.toNat) :
    ((s.remainder.shl 1 ||| bit) - divisor).toNat =
      2 * s.remainder.toNat + bit.toNat - divisor.toNat := by
  have hdivisor := divisor.toNat_lt
  rw [UInt64.toNat_sub, toNat_shl_one_or _ _ hbit]
  omega

/-- A step whose doubled remainder holds the divisor takes it off once. -/
theorem step_of_fits (hremainder : s.remainder.toNat < divisor.toNat)
    (hquotient : s.quotient.toNat < 2 ^ 63) (hbit : bit.toNat < 2)
    (hfits : divisor.toNat ≤ 2 * s.remainder.toNat + bit.toNat) :
    (step divisor bit s).quotient.toNat = 2 * s.quotient.toNat + 1 ∧
      (step divisor bit s).remainder.toNat =
        2 * s.remainder.toNat + bit.toNat - divisor.toNat := by
  have hstep : step divisor bit s =
      ⟨s.quotient.shl 1 ||| 1, (s.remainder.shl 1 ||| bit) - divisor⟩ :=
    if_pos ((fits_iff hremainder hbit).mpr hfits)
  rw [hstep]
  constructor
  · rw [toNat_shl_one_or _ 1 (by decide), UInt64.toNat_one]
    omega
  · exact toNat_doubled_sub hremainder hbit hfits

/-- A step whose doubled remainder is below the divisor keeps it. -/
theorem step_of_not_fits (hremainder : s.remainder.toNat < divisor.toNat)
    (hquotient : s.quotient.toNat < 2 ^ 63) (hbit : bit.toNat < 2)
    (hfits : 2 * s.remainder.toNat + bit.toNat < divisor.toNat) :
    (step divisor bit s).quotient.toNat = 2 * s.quotient.toNat ∧
      (step divisor bit s).remainder.toNat = 2 * s.remainder.toNat + bit.toNat := by
  have hdivisor := divisor.toNat_lt
  have hstep : step divisor bit s = ⟨s.quotient.shl 1, s.remainder.shl 1 ||| bit⟩ :=
    if_neg fun hcomparison =>
      Nat.not_le.mpr hfits ((fits_iff hremainder hbit).mp hcomparison)
  rw [hstep]
  constructor
  · rw [Limb.toNat_shl _ (show 1 < 64 by decide)]
    omega
  · rw [toNat_shl_one_or _ _ hbit]
    omega

/-- The division starts with the high limb read: it is below the divisor. -/
theorem Invariant.start (hhigh : high.toNat < divisor.toNat) :
    Invariant high low divisor 64 ⟨0, high⟩ where
  value := by
    have hlow := low.toNat_lt
    simp only [UInt64.toNat_zero]
    omega
  remainder_lt := hhigh
  quotient_lt := by simp

/-- Bringing down one more bit keeps the division of what has been read exact. -/
theorem Invariant.step {place : Nat} (hplace : place < 64)
    (hinvariant : Invariant high low divisor (place + 1) s) :
    Invariant high low divisor place (step divisor (low.shr place &&& 1) s) := by
  obtain ⟨hvalue, hremainder, hquotient⟩ := hinvariant
  have hbit : (low.shr place &&& 1).toNat = low.toNat / 2 ^ place % 2 :=
    toNat_shr_and_one low hplace
  have hbitLt : (low.shr place &&& 1).toNat < 2 := by omega
  have hpower : 2 ^ (64 - place) = 2 * 2 ^ (64 - (place + 1)) := by
    rw [show 64 - place = 64 - (place + 1) + 1 by omega, Nat.pow_succ, Nat.mul_comm]
  have hquotientLt : s.quotient.toNat < 2 ^ 63 :=
    Nat.lt_of_lt_of_le hquotient (Nat.pow_le_pow_right (by decide) (by omega))
  -- Doubling what has been read and adding the bit reads one bit more.
  have hread : high.toNat * 2 ^ (64 - place) + low.toNat / 2 ^ place =
      2 * (s.quotient.toNat * divisor.toNat) +
        (2 * s.remainder.toNat + (low.shr place &&& 1).toNat) := by
    have hhalf : low.toNat / 2 ^ (place + 1) = low.toNat / 2 ^ place / 2 := by
      rw [Nat.pow_succ, Nat.div_div_eq_div_mul]
    rw [hhalf] at hvalue
    rw [hpower, hbit, Nat.mul_left_comm]
    omega
  by_cases hfits : divisor.toNat ≤
      2 * s.remainder.toNat + (low.shr place &&& 1).toNat
  · obtain ⟨hnextQuotient, hnextRemainder⟩ :=
      step_of_fits hremainder hquotientLt hbitLt hfits
    refine ⟨?_, by omega, by omega⟩
    rw [hread, hnextQuotient, hnextRemainder, Nat.add_mul, Nat.mul_assoc]
    omega
  · obtain ⟨hnextQuotient, hnextRemainder⟩ :=
      step_of_not_fits hremainder hquotientLt hbitLt (Nat.lt_of_not_le hfits)
    refine ⟨?_, by omega, by omega⟩
    rw [hread, hnextQuotient, hnextRemainder, Nat.mul_assoc]

/-- Bringing down all the bits that are left divides the whole dividend. -/
theorem Invariant.run {place : Nat} (hplace : place ≤ 64)
    (hinvariant : Invariant high low divisor place s) :
    Invariant high low divisor 0 (run low divisor place s) := by
  induction place generalizing s with
  | zero => exact hinvariant
  | succ place ih =>
      rw [Bitwise.run]
      exact ih (by omega) (hinvariant.step (by omega))

end Bitwise

/-- The bitwise division of a pair by a limb above its high limb is exact. -/
theorem isDivision_divPair {high low divisor : Limb} (hhigh : high < divisor) :
    IsDivision (high.toNat * 2 ^ 64 + low.toNat) divisor.toNat
      (divPair high low divisor).1.toNat (divPair high low divisor).2.toNat := by
  have hstart : Bitwise.Invariant high low divisor 64 ⟨0, high⟩ :=
    .start (UInt64.lt_iff_toNat_lt.mp hhigh)
  obtain ⟨hvalue, hremainder, -⟩ := hstart.run (Nat.le_refl 64)
  rw [Nat.pow_zero, Nat.div_one] at hvalue
  exact ⟨hvalue, hremainder⟩

end TwoLimb.Engine.Portable
