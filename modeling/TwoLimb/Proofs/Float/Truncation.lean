/-
# The integer part of a float

A float is truncated by its fields: the significand is moved by the distance of its
exponent from that of the ones. In units this is one division. The magnitude of a float
is a significand times a power of two, the units of one are a power of two as well, and
the two powers cancel as far as the smaller one reaches. Below one the quotient is zero,
and below `2^128` nothing moves out of the high limb.
-/

import TwoLimb.Proofs.Float.Integer

namespace TwoLimb

open BinaryFormat

/-- The integer part of a finite float: its value without the digits below the point. -/
def BinaryFloat.integerPart {f : BinaryFormat} (x : BinaryFloat f) : Int :=
  x.value.tdiv (2 ^ f.unitExponent)

namespace BinaryFloat

variable {f : BinaryFormat} {x : BinaryFloat f}

theorem value_nonneg (hlower : ¬x.LtInt 0) : 0 ≤ x.value := by
  rw [LtInt, Int.zero_mul] at hlower
  exact Int.not_lt.mp hlower

/-- A float that is not below zero has its magnitude as its value; the negative zero too. -/
theorem value_eq_units (hnonneg : 0 ≤ x.value) : x.value = x.units := by
  unfold value at hnonneg ⊢
  split
  · rename_i hnegative
    rw [if_pos hnegative] at hnonneg
    omega
  · rfl

theorem ltInt_two_pow_iff (hnonneg : 0 ≤ x.value) (k : Nat) :
    x.LtInt (2 ^ k) ↔ x.units < 2 ^ k * 2 ^ f.unitExponent := by
  rw [LtInt, value_eq_units hnonneg, ← Int.ofNat_lt, Int.natCast_mul, Int.natCast_pow,
    Int.natCast_pow]
  rfl

theorem integerPart_eq (hnonneg : 0 ≤ x.value) :
    x.integerPart = (x.units / 2 ^ f.unitExponent : Nat) := by
  rw [integerPart, value_eq_units hnonneg, Int.natCast_ediv, Int.natCast_pow]
  exact Int.tdiv_eq_ediv_of_nonneg (Int.natCast_nonneg _)

/-- Below zero the integer part is that of the magnitude with the sign. -/
theorem integerPart_of_ltInt (hbelow : x.LtInt 0) :
    x.integerPart = -(x.units / 2 ^ f.unitExponent : Nat) := by
  have hvalue : x.value = -x.units := by
    apply if_pos
    apply Decidable.not_not.mp
    intro hpositive
    rw [LtInt, Int.zero_mul, value, if_neg hpositive] at hbelow
    exact Int.not_lt.mpr (Int.natCast_nonneg _) hbelow
  rw [integerPart, hvalue, Int.neg_tdiv, Int.natCast_ediv, Int.natCast_pow]
  exact congrArg _ (Int.tdiv_eq_ediv_of_nonneg (Int.natCast_nonneg _))

end BinaryFloat

/-- The powers of two of a scaled number and of its divisor cancel. -/
theorem mul_two_pow_div_two_pow (n i j : Nat) :
    n * 2 ^ i / 2 ^ j = if j ≤ i then n * 2 ^ (i - j) else n / 2 ^ (j - i) := by
  split
  · rename_i hle
    obtain ⟨k, rfl⟩ := Nat.le.dest hle
    rw [Nat.add_sub_cancel_left, Nat.add_comm, Nat.pow_add, ← Nat.mul_assoc,
      Nat.mul_div_cancel _ (Nat.two_pow_pos j)]
  · rename_i hlt
    obtain ⟨k, rfl⟩ := Nat.le.dest (Nat.le_of_not_le hlt)
    rw [Nat.add_sub_cancel_left, Nat.pow_add, Nat.mul_comm n,
      Nat.mul_div_mul_left _ _ (Nat.two_pow_pos i)]

/-! ### Fields of a pattern -/

/-- The exponent field of a pattern with its sign bit. -/
theorem toNat_exponentField (bits : Limb) :
    (bits.shr 52 &&& 0x7ff).toNat = bits.toNat % 2 ^ 63 / 2 ^ 52 := by
  have hmask : (0x7ff : Limb).toNat = 2 ^ 11 - 1 := rfl
  rw [UInt64.toNat_and, hmask, Nat.and_two_pow_sub_one_eq_mod, Limb.toNat_shr bits (by decide)]
  omega

/-- The fraction field with the leading one restored. -/
theorem toNat_significand (bits : Limb) :
    (bits &&& 0xfffffffffffff ||| 0x10000000000000).toNat =
      2 ^ 52 + bits.toNat % 2 ^ 63 % 2 ^ 52 := by
  have hmask : (0xfffffffffffff : Limb).toNat = 2 ^ 52 - 1 := rfl
  have hleading : (0x10000000000000 : Limb).toNat = 1 * 2 ^ 52 := rfl
  have hfraction := Nat.mod_lt bits.toNat (Nat.two_pow_pos 52)
  rw [UInt64.toNat_or, UInt64.toNat_and, hmask, hleading, Nat.and_two_pow_sub_one_eq_mod,
    Nat.or_comm, mul_two_pow_or hfraction]
  omega

/-- A pattern with a leading one counts its significand. -/
theorem units_of_le_exponent {f : BinaryFormat} {pattern : Nat}
    (hexponent : 1 ≤ pattern / 2 ^ f.fractionBits) :
    f.units pattern = (2 ^ f.fractionBits + pattern % 2 ^ f.fractionBits) *
      2 ^ (pattern / 2 ^ f.fractionBits - 1) :=
  if_neg (Nat.ne_of_gt hexponent)

/-- The exponent field bounds the magnitude. -/
theorem units_lt_two_pow (f : BinaryFormat) {pattern k : Nat}
    (hexponent : pattern / 2 ^ f.fractionBits ≤ k) :
    f.units pattern < 2 ^ (f.fractionBits + k) := by
  have hpositive := Nat.two_pow_pos f.fractionBits
  have hpattern : pattern < k * 2 ^ f.fractionBits + 2 ^ f.fractionBits := by
    rw [← Nat.succ_mul, ← Nat.div_lt_iff_lt_mul hpositive]
    exact Nat.lt_succ_of_le hexponent
  calc f.units pattern
      < f.units (k * 2 ^ f.fractionBits + 2 ^ f.fractionBits) := f.units_strictMono hpattern
    _ = 2 ^ (f.fractionBits + k) := by
        rw [f.units_add k (Nat.le_refl _) (by omega), Nat.pow_add]

namespace UInt128

/-- Truncation divides the magnitude by that of one, where the quotient has 128 bits. -/
theorem toNat_truncateBinary64 {x : Binary64}
    (hfits : x.units < 2 ^ 128 * 2 ^ binary64.unitExponent) :
    (truncateBinary64 x).toNat = x.units / 2 ^ binary64.unitExponent := by
  have hexponentField := toNat_exponentField (UInt64.ofBitVec x.bits)
  have hsignificand := toNat_significand (UInt64.ofBitVec x.bits)
  have hpattern : (UInt64.ofBitVec x.bits).toNat % 2 ^ 63 = x.pattern := rfl
  have hfraction := Nat.mod_lt x.pattern (Nat.two_pow_pos 52)
  rw [hpattern] at hexponentField hsignificand
  unfold truncateBinary64
  simp only [hexponentField]
  split
  · rename_i hsmall
    have hone : binary64.fractionBits + 1022 = binary64.unitExponent := rfl
    have hbelow := units_lt_two_pow binary64 (Nat.le_of_lt_succ hsmall)
    exact (Nat.div_eq_of_lt (hone ▸ hbelow)).symm
  · rename_i hlarge
    have hunits : x.units =
        (2 ^ 52 + x.pattern % 2 ^ 52) * 2 ^ (x.pattern / 2 ^ 52 - 1) :=
      units_of_le_exponent (f := binary64) (show 1 ≤ x.pattern / 2 ^ 52 by omega)
    rw [← Nat.div_lt_iff_lt_mul (Nat.two_pow_pos _), hunits, mul_two_pow_div_two_pow,
      unitExponent_binary64] at hfits
    rw [hunits, mul_two_pow_div_two_pow, unitExponent_binary64]
    generalize x.pattern / 2 ^ 52 = biased at *
    generalize x.pattern % 2 ^ 52 = fraction at *
    split
    · rename_i hbeyond
      rw [if_pos (by omega), show biased - 1 - 1074 = biased - 1075 by omega] at hfits ⊢
      have hamount : biased - 1075 < 128 := by
        refine (Nat.pow_lt_pow_iff_right (by decide : 1 < 2)).mp (Nat.lt_of_le_of_lt ?_ hfits)
        exact Nat.le_mul_of_pos_left _ (by omega)
      rw [toNat_shl _ hamount, toNat_ofLimb, hsignificand, Nat.mod_eq_of_lt hfits]
    · rename_i hwithin
      rw [toNat_ofLimb, Limb.toNat_shr _ (by omega), hsignificand, if_neg (by omega),
        show 1074 - (biased - 1) = 1075 - biased by omega]

/-- Without regard to its sign, a float truncates to its magnitude divided by that of one. -/
theorem truncateBinary64_eq {x : Binary64}
    (hfits : x.units < 2 ^ 128 * 2 ^ binary64.unitExponent) :
    truncateBinary64 x = ofNat (x.units / 2 ^ binary64.unitExponent) :=
  ext_toNat (by
    rw [toNat_ofNat, toNat_truncateBinary64 hfits, Nat.mod_eq_of_lt]
    exact (Nat.div_lt_iff_lt_mul (Nat.two_pow_pos _)).mpr hfits)

/-- A finite float that is not below zero becomes its integer part, or is out of range. -/
theorem ofBinary64_eq {x : Binary64} (hnumber : x.isNaN = false) (hfinite : x.isInfinite = false)
    (hnonneg : 0 ≤ x.value) :
    ofBinary64 x = if x.units < 2 ^ 128 * 2 ^ binary64.unitExponent
      then .ok (ofNat (x.units / 2 ^ binary64.unitExponent)) else .error .outOfRange := by
  have hzero : ¬x.LtInt 0 := by
    rw [BinaryFloat.LtInt, Int.zero_mul]
    exact Int.not_lt.mpr hnonneg
  rw [ofBinary64, hnumber, hfinite, if_neg Bool.false_ne_true, if_neg Bool.false_ne_true,
    if_neg hzero]
  have hlimit := BinaryFloat.ltInt_two_pow_iff hnonneg 128
  by_cases hfits : x.units < 2 ^ 128 * 2 ^ binary64.unitExponent
  · rw [if_neg (not_not_intro (hlimit.mpr hfits)), if_pos hfits, truncateBinary64_eq hfits]
  · rw [if_pos (mt hlimit.mp hfits), if_neg hfits]

end UInt128

end TwoLimb
