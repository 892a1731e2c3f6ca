/-
# Integers round to the nearest float

Only the topmost limb of an integer is rounded, with its lowest bit set when any bit
below was. That bit decides as the bits it stands for: it is at least two places below
the position of rounding, so it makes a rest more than one half that otherwise would be
just one half, and it never makes a rest one half. The float that puts the result back in
place is a power of two, so the product with it is exact, and the step from one format to
another rounds nothing but what is infinite in the narrower one.
-/

import TwoLimb.Float.Integer
import TwoLimb.Proofs.Float.Encoding
import TwoLimb.Proofs.Int128.TwosComplement
import TwoLimb.Proofs.UInt128.Bits

namespace TwoLimb

open BinaryFormat

theorem or_one_eq (n : Nat) : n ||| 1 = 2 * (n / 2) + 1 := by
  have hhalf : (n ||| 1) / 2 = n / 2 := by rw [Nat.or_div_two, Nat.or_zero]
  have hodd : (n ||| 1) % 2 = 1 := Nat.or_mod_two_eq_one.mpr (Or.inr rfl)
  omega

theorem or_one_div_two_pow (n : Nat) {k : Nat} (hk : 1 ≤ k) : (n ||| 1) / 2 ^ k = n / 2 ^ k := by
  rw [Nat.or_div_two_pow, Nat.div_eq_of_lt (Nat.one_lt_two_pow (by omega)), Nat.or_zero]

theorem or_one_mod_two_pow (n : Nat) {k : Nat} (hk : 1 ≤ k) :
    (n ||| 1) % 2 ^ k = 2 * (n % 2 ^ k / 2) + 1 := by
  rw [Nat.or_mod_two_pow, Nat.mod_eq_of_lt (Nat.one_lt_two_pow (by omega)), or_one_eq]

theorem roundHalfEven_of_lt {n places : Nat} (hrest : 2 * (n % 2 ^ places) < 2 ^ places) :
    roundHalfEven n places = n / 2 ^ places := by
  unfold roundHalfEven
  exact if_neg (by omega)

theorem roundHalfEven_of_gt {n places : Nat} (hrest : 2 ^ places < 2 * (n % 2 ^ places)) :
    roundHalfEven n places = n / 2 ^ places + 1 := by
  unfold roundHalfEven
  exact if_pos (Or.inl hrest)

/-- The topmost digits of a number, the lowest of them set when a digit below was, round
as the number does. -/
theorem roundHalfEven_sticky (n discarded : Nat) {places : Nat} (hplaces : 2 ≤ places) :
    roundHalfEven (n / 2 ^ discarded ||| (n % 2 ^ discarded != 0).toNat) places =
      roundHalfEven n (places + discarded) := by
  by_cases hexact : n % 2 ^ discarded = 0
  · have hmoved := roundHalfEven_mul_two_pow (n / 2 ^ discarded) places discarded
    rw [Nat.div_mul_cancel (Nat.dvd_of_mod_eq_zero hexact)] at hmoved
    rw [hmoved, bne_eq_false_iff_eq.mpr hexact, Bool.toNat_false, Nat.or_zero]
  · obtain ⟨k, rfl⟩ := Nat.exists_eq_add_of_le' hplaces
    have hbelow := Nat.mod_lt n (Nat.two_pow_pos discarded)
    have hfour : 2 ^ (k + 2) = 2 * (2 * 2 ^ k) := by rw [Nat.pow_succ', Nat.pow_succ']
    have hquotient : n / 2 ^ (k + 2 + discarded) = n / 2 ^ discarded / 2 ^ (k + 2) := by
      rw [Nat.add_comm, Nat.pow_add, Nat.div_div_eq_div_mul]
    have hrest : n % 2 ^ (k + 2 + discarded) =
        n % 2 ^ discarded + 2 ^ discarded * (n / 2 ^ discarded % 2 ^ (k + 2)) := by
      rw [Nat.add_comm, Nat.pow_add, Nat.mod_mul]
    have htopRest := or_one_mod_two_pow (n / 2 ^ discarded) (show 1 ≤ k + 2 by omega)
    have hpower : 2 ^ (k + 2 + discarded) = 2 * (2 ^ discarded * (2 * 2 ^ k)) := by
      rw [Nat.pow_add, hfour]
      ac_rfl
    rw [bne_iff_ne.mpr hexact, Bool.toNat_true]
    -- With a bit lost below, both rests are on one side of one half, and neither is there.
    rcases Nat.lt_or_ge (n / 2 ^ discarded % 2 ^ (k + 2)) (2 * 2 ^ k) with hlt | hge
    · have hsmall := Nat.mul_le_mul_left (2 ^ discarded) (Nat.succ_le_of_lt hlt)
      rw [Nat.mul_succ] at hsmall
      rw [roundHalfEven_of_lt (by omega), roundHalfEven_of_lt (by omega), hquotient,
        or_one_div_two_pow _ (by omega)]
    · have hlarge := Nat.mul_le_mul_left (2 ^ discarded) hge
      rw [roundHalfEven_of_gt (by omega), roundHalfEven_of_gt (by omega), hquotient,
        or_one_div_two_pow _ (by omega)]

/-! ### Powers of two -/

namespace BinaryFloat

theorem ofBits_eq (bits : Limb) : ofBits bits = ofPattern false bits.toNat := by
  rw [ofBits, ofPattern, Bool.toNat_false, Nat.zero_mul, Nat.zero_add]

/-- The bits of a power of two are an exponent field with nothing else. -/
theorem powerOfTwo_eq {exponent : Nat} (hexponent : exponent < 1024) :
    powerOfTwo exponent = ofPattern false ((1022 + exponent) * 2 ^ 52 + 2 ^ 52) := by
  have hbiased : (UInt64.ofNat (1023 + exponent)).toNat = 1023 + exponent := by
    rw [UInt64.toNat_ofNat']
    exact Nat.mod_eq_of_lt (by omega)
  have hbits : (Limb.shl (.ofNat (1023 + exponent)) 52).toNat =
      (1022 + exponent) * 2 ^ 52 + 2 ^ 52 := by
    rw [Limb.toNat_shl _ (by decide), hbiased]
    omega
  rw [powerOfTwo, ofBits_eq, hbits]

/-- Exponents below 1024 are those of finite floats. -/
theorem hasUnits_powerOfTwo {exponent : Nat} (hexponent : exponent < 1024) :
    (powerOfTwo exponent).HasUnits (2 ^ (exponent + binary64.unitExponent)) := by
  have hsum : exponent + binary64.unitExponent = 52 + (1022 + exponent) := by
    rw [unitExponent_binary64]
    omega
  have hunits : binary64.units ((1022 + exponent) * 2 ^ 52 + 2 ^ 52) =
      2 ^ (exponent + binary64.unitExponent) := by
    -- One of the 1023 is the leading digit of the significand, which has no bit of its own.
    rw [hsum, Nat.pow_add]
    exact binary64.units_add (1022 + exponent) (Nat.le_refl _) (by decide)
  rw [powerOfTwo_eq hexponent, ← hunits]
  refine hasUnits_ofPattern isProper_binary64 ?_
  change _ < 2047 * 2 ^ 52
  omega

end BinaryFloat

namespace UInt128

/-! ### The topmost limb -/

theorem bitWidth_eq (a : UInt128) : a.bitWidth = bitLength a.toNat := by
  by_cases ha : a.toNat = 0
  · rw [show a = zero from ext_toNat ha]
    decide
  · have hlog : a.toNat.log2 < 128 := (Nat.log2_lt ha).mpr a.toNat_lt
    rw [bitWidth, leadingZeros_eq ha, bitLength, if_neg ha, bits]
    omega

/-- The mask below a place keeps the remainder, also where the place is the end of the
limb. -/
theorem toNat_and_mask (x : Limb) {discarded : Nat} (hdiscarded : discarded ≤ 64) :
    (x &&& if discarded ≥ Limb.bits then Limb.max else Limb.shl 1 discarded - 1).toNat =
      x.toNat % 2 ^ discarded := by
  have hmask : (if discarded ≥ Limb.bits then Limb.max else Limb.shl 1 discarded - 1).toNat =
      2 ^ discarded - 1 := by
    split
    · obtain rfl : discarded = 64 := Nat.le_antisymm hdiscarded ‹_›
      rfl
    · rename_i hsmall
      have hlt : discarded < 64 := Nat.lt_of_not_le hsmall
      have hpower : 2 ^ discarded < 2 ^ 64 := Nat.pow_lt_pow_right (by decide) hlt
      have hshifted : (Limb.shl 1 discarded).toNat = 2 ^ discarded := by
        rw [Limb.toNat_shl 1 hlt, UInt64.toNat_one, Nat.one_mul, Nat.mod_eq_of_lt hpower]
      have hone : (1 : Limb) ≤ Limb.shl 1 discarded := by
        rw [UInt64.le_iff_toNat_le, hshifted]
        exact Nat.two_pow_pos discarded
      rw [UInt64.toNat_sub_of_le _ _ hone, hshifted, UInt64.toNat_one]
  rw [UInt64.toNat_and, hmask, Nat.and_two_pow_sub_one_eq_mod]

theorem topLimb_of_le {a : UInt128} (hwidth : bitLength a.toNat ≤ 64) :
    a.topLimb = (a.low, 0) ∧ a.low.toNat = a.toNat := by
  have hlt := lt_two_pow_of_bitLength_le hwidth
  refine ⟨?_, ?_⟩
  · unfold topLimb
    simp only [bitWidth_eq]
    exact if_pos hwidth
  · unfold toNat at hlt ⊢
    omega

theorem topLimb_snd_le (a : UInt128) : a.topLimb.2 ≤ 64 := by
  have hwidth : a.bitWidth ≤ 128 := Nat.sub_le _ _
  unfold topLimb Limb.bits
  simp only
  split
  · exact Nat.zero_le 64
  · simp only
    omega

theorem low_and_mask_bne_zero (a : UInt128) {discarded : Nat} (hdiscarded : discarded ≤ 64) :
    (a.low &&& (if discarded ≥ Limb.bits then Limb.max else Limb.shl 1 discarded - 1) != 0) =
      (a.toNat % 2 ^ discarded != 0) := by
  have hmasked := toNat_and_mask a.low hdiscarded
  have hlow : a.toNat % 2 ^ discarded = a.low.toNat % 2 ^ discarded := by
    obtain ⟨k, hk⟩ := Nat.le.dest hdiscarded
    rw [toNat, ← hk, Nat.pow_add, Nat.mul_left_comm, Nat.mul_add_mod]
  rw [Bool.eq_iff_iff, bne_iff_ne, bne_iff_ne, hlow, ← hmasked, ne_eq, ← UInt64.toNat_inj,
    UInt64.toNat_zero]

theorem toNat_low_shr {a : UInt128} {discarded : Nat} (hdiscarded : discarded < 128)
    (hwidth : bitLength a.toNat ≤ 64 + discarded) :
    (a.shr discarded).low.toNat = a.toNat / 2 ^ discarded := by
  have hvalue := toNat_shr a hdiscarded
  have hfits : a.toNat / 2 ^ discarded < 2 ^ 64 := by
    rw [Nat.div_lt_iff_lt_mul (Nat.two_pow_pos _), ← Nat.pow_add]
    exact lt_two_pow_of_bitLength_le hwidth
  rw [← hvalue] at hfits ⊢
  unfold toNat at hfits ⊢
  omega

/-- A value of more than 64 digits gives its topmost 64 and marks a lost one. -/
theorem topLimb_of_lt {a : UInt128} (hwidth : 64 < bitLength a.toNat) :
    a.topLimb.2 = bitLength a.toNat - 64 ∧
      a.topLimb.1.toNat = (a.toNat / 2 ^ (bitLength a.toNat - 64) |||
        (a.toNat % 2 ^ (bitLength a.toNat - 64) != 0).toNat) := by
  have hlength : bitLength a.toNat ≤ 128 := bitLength_le_of_lt a.toNat_lt
  generalize hdiscarded : bitLength a.toNat - 64 = discarded
  have hpair : a.topLimb = ((a.shr discarded).low ||| .ofFlag
      (a.low &&& (if discarded ≥ Limb.bits then Limb.max else Limb.shl 1 discarded - 1) != 0),
      discarded) := by
    rw [topLimb, bitWidth_eq]
    simp only [Limb.bits, hdiscarded]
    exact if_neg (Nat.not_le.mpr hwidth)
  rw [hpair]
  refine ⟨rfl, ?_⟩
  simp only
  rw [UInt64.toNat_or, Limb.toNat_ofFlag, toNat_low_shr (by omega) (by omega),
    low_and_mask_bne_zero a (by omega)]

/-- Rounding the topmost limb and putting it back in place rounds the value. -/
theorem roundTo_topLimb (a : UInt128) {precision : Nat} (hlower : 2 ≤ precision)
    (hupper : precision ≤ 62) :
    roundTo precision a.topLimb.1.toNat * 2 ^ a.topLimb.2 = roundTo precision a.toNat := by
  rcases Nat.lt_or_ge 64 (bitLength a.toNat) with hwide | hnarrow
  · obtain ⟨hdiscarded, htop⟩ := topLimb_of_lt hwide
    have hlength : bitLength a.topLimb.1.toNat = 64 := by
      refine bitLength_eq ?_ a.topLimb.1.toNat_lt
      rw [htop]
      refine Nat.le_trans ?_ Nat.left_le_or
      rw [Nat.le_div_iff_mul_le (Nat.two_pow_pos _), ← Nat.pow_add]
      exact two_pow_le_of_lt_bitLength (by omega)
    rw [roundTo, hlength, htop, hdiscarded, roundHalfEven_sticky _ _ (by omega), Nat.mul_assoc,
      ← Nat.pow_add, roundTo]
    congr 2 <;> omega
  · obtain ⟨hpair, hlow⟩ := topLimb_of_le hnarrow
    rw [hpair]
    simp only
    rw [hlow, Nat.pow_zero, Nat.mul_one]

/-- The same in units of a format. -/
theorem roundTo_topLimb_mul (a : UInt128) {precision : Nat} (hlower : 2 ≤ precision)
    (hupper : precision ≤ 62) (k : Nat) :
    roundTo precision (a.topLimb.1.toNat * 2 ^ k) * 2 ^ a.topLimb.2 =
      roundTo precision (a.toNat * 2 ^ k) := by
  rw [roundTo_mul_two_pow hlower, roundTo_mul_two_pow hlower, Nat.mul_right_comm,
    roundTo_topLimb a hlower hupper]

/-! ### Floats of unsigned integers -/

section Magnitude

variable {f : BinaryFormat} (hf : f.IsProper)

include hf

/-- An integer below the limit of the exponents stays finite, at whatever precision. -/
theorem roundTo_lt_units_infinity {precision n k : Nat} (hprecision : 2 ≤ precision)
    (hn : n ≤ 2 ^ k) (hk : k < 2 ^ (f.exponentBits - 1)) :
    roundTo precision (n * 2 ^ f.unitExponent) < f.units f.infinity := by
  have hle : n * 2 ^ f.unitExponent ≤ 2 ^ (k + f.unitExponent) := by
    rw [Nat.pow_add]
    exact Nat.mul_le_mul_right _ hn
  rw [units_infinity hf]
  exact Nat.lt_of_le_of_lt (roundTo_le_two_pow hprecision hle)
    (Nat.pow_lt_pow_right (by decide) (by omega))

theorem hasUnits_ofNat_topLimb (a : UInt128) (hexponents : 64 < 2 ^ (f.exponentBits - 1)) :
    (BinaryFloat.ofNat a.topLimb.1.toNat : BinaryFloat f).HasUnits
      (roundTo f.precision (a.topLimb.1.toNat * 2 ^ f.unitExponent)) :=
  BinaryFloat.hasUnits_ofNat hf (roundTo_lt_units_infinity hf hf.two_le_precision
    (Nat.le_of_lt a.topLimb.1.toNat_lt) hexponents)

end Magnitude

/-- The float that puts the topmost limb back in place. -/
theorem hasUnits_factor (a : UInt128) : (BinaryFloat.powerOfTwo a.topLimb.2).HasUnits
    (2 ^ (a.topLimb.2 + binary64.unitExponent)) :=
  BinaryFloat.hasUnits_powerOfTwo (Nat.lt_of_le_of_lt a.topLimb_snd_le (by decide))

/-- The 64-bit float of a value has the magnitude of the rounded value. -/
theorem hasUnits_toBinary64 (a : UInt128) : a.toBinary64.HasUnits
    (roundTo binary64.precision (a.toNat * 2 ^ binary64.unitExponent)) := by
  have hrounded := hasUnits_ofNat_topLimb isProper_binary64 a (by decide)
  have hfits := roundTo_lt_units_infinity isProper_binary64 isProper_binary64.two_le_precision
    (Nat.le_of_lt a.toNat_lt) (by decide)
  rw [← roundTo_topLimb_mul a (by decide) (by decide)] at hfits ⊢
  change ((BinaryFloat.ofNat a.topLimb.1.toNat).mul (.powerOfTwo a.topLimb.2)).HasUnits _
  exact hrounded.mul_two_pow isProper_binary64 a.hasUnits_factor
    (hasSignificand_roundTo (by decide) _) hfits

/-- The 64-bit float that the 32-bit one is made from has the magnitude of the value,
rounded to the narrow precision: the wide format holds all that the narrow one does. -/
theorem hasUnits_mul_convert (a : UInt128) :
    (((BinaryFloat.ofNat a.topLimb.1.toNat : Binary32).convert binary64).mul
      (.powerOfTwo a.topLimb.2)).HasUnits
      (roundTo binary32.precision (a.toNat * 2 ^ binary64.unitExponent)) := by
  have hsignificand (n : Nat) :
      HasSignificand binary64.precision (roundTo binary32.precision n) :=
    (hasSignificand_roundTo (by decide) n).mono (by decide)
  have hfits {n : Nat} (hn : n < 2 ^ 128) :
      roundTo binary32.precision (n * 2 ^ binary64.unitExponent) <
        binary64.units binary64.infinity :=
    roundTo_lt_units_infinity isProper_binary64 (by decide) (Nat.le_of_lt hn) (by decide)
  have htop : a.topLimb.1.toNat < 2 ^ 128 := Nat.lt_trans a.topLimb.1.toNat_lt (by decide)
  have hconverted := (hasUnits_ofNat_topLimb isProper_binary32 a (by decide)).convert
    isProper_binary64 (roundTo_change_units (by decide) _ _ _) (hsignificand _) (hfits htop)
  have hlimit := hfits a.toNat_lt
  rw [← roundTo_topLimb_mul a (by decide) (by decide)] at hlimit ⊢
  exact hconverted.mul_two_pow isProper_binary64 a.hasUnits_factor (hsignificand _) hlimit

/-- The narrow format has its infinity at `2^128`. -/
theorem units_infinity_le_iff (a : UInt128) :
    binary32.units binary32.infinity ≤
        roundTo binary32.precision (a.toNat * 2 ^ binary32.unitExponent) ↔
      2 ^ 128 - 2 ^ 103 ≤ a.toNat := by
  rw [units_infinity isProper_binary32, roundTo_mul_two_pow (by decide), Nat.pow_add,
    Nat.mul_le_mul_right_iff (Nat.two_pow_pos _)]
  exact two_pow_le_roundTo_iff (by decide) (by decide) a.toNat_lt

/-- The 32-bit float of a value has the magnitude of the rounded value where that is below
infinity. -/
theorem hasUnits_toBinary32 {a : UInt128} (hfits : a.toNat < 2 ^ 128 - 2 ^ 103) :
    a.toBinary32.HasUnits
      (roundTo binary32.precision (a.toNat * 2 ^ binary32.unitExponent)) := by
  have hbelow := mt (units_infinity_le_iff a).mp (Nat.not_le.mpr hfits)
  exact (hasUnits_mul_convert a).convert isProper_binary32
    (roundTo_change_units (by decide) _ _ _) (hasSignificand_roundTo (by decide) _)
    (Nat.lt_of_not_le hbelow)

theorem toBinary32_eq_infinity {a : UInt128} (hexceeds : 2 ^ 128 - 2 ^ 103 ≤ a.toNat) :
    a.toBinary32 = .ofPattern false binary32.infinity :=
  (hasUnits_mul_convert a).convert_of_le isProper_binary32
    (roundTo_change_units (by decide) _ _ _) (hasSignificand_roundTo (by decide) _)
    ((units_infinity_le_iff a).mpr hexceeds)

end UInt128

namespace Int128

/-- A signed value rounds as its magnitude does. -/
theorem isRoundingOf_toInt {f : BinaryFormat} (hf : f.IsProper) (a : Int128)
    {x : BinaryFloat f} (hx : x.HasUnits
      (roundTo f.precision (a.unsignedAbs.toNat * 2 ^ f.unitExponent))) :
    BinaryFloat.IsRoundingOf (if a.isNegative = true then x.neg else x) a.toInt := by
  have hvalue := a.toInt_eq_magnitude
  have hsign := a.isNegative_iff_toInt_neg
  split
  · rename_i hnegative
    have hbelow := hsign.mp hnegative
    rw [if_pos hnegative] at hvalue
    rw [hvalue]
    exact hx.isRoundingOf_neg hf (by omega)
  · rename_i hnonneg
    rw [if_neg hnonneg] at hvalue
    rw [hvalue]
    exact hx.isRoundingOf hf

theorem isRoundingOf_toBinary64 (a : Int128) : a.toBinary64.IsRoundingOf a.toInt :=
  isRoundingOf_toInt isProper_binary64 a a.unsignedAbs.hasUnits_toBinary64

/-- No magnitude of a signed value is near the infinity of the narrow format. -/
theorem isRoundingOf_toBinary32 (a : Int128) : a.toBinary32.IsRoundingOf a.toInt := by
  have hbounds := a.toInt_bounds
  have hmagnitude := a.toNat_unsignedAbs
  exact isRoundingOf_toInt isProper_binary32 a (UInt128.hasUnits_toBinary32 (by omega))

end Int128

/-- Every integer becomes the float nearest to it, ties to even, with its sign and without
one for zero. Only a 32-bit float of an unsigned value can be infinite, and it is so
exactly from half a step below `2^128` on. -/
theorem BinaryFloat.integers_round_to_nearest :
    (∀ (a : UInt128) (x : Binary64), x = a.toBinary64 ↔ x.IsRoundingOf a.toNat) ∧
    (∀ (a : UInt128) (x : Binary32), x = a.toBinary32 ↔
      if 2 ^ 128 - 2 ^ 103 ≤ a.toNat then x.isInfinite = true ∧ x.isNegative = false
      else x.IsRoundingOf a.toNat) ∧
    (∀ (a : Int128) (x : Binary64), x = a.toBinary64 ↔ x.IsRoundingOf a.toInt) ∧
    (∀ (a : Int128) (x : Binary32), x = a.toBinary32 ↔ x.IsRoundingOf a.toInt) ∧
    Int128.zero.toBinary64 = .ofPattern false 0 ∧
    Int128.zero.toBinary32 = .ofPattern false 0 := by
  have hzero := Int128.toInt_zero
  refine ⟨fun a x => ?_, fun a x => ?_, fun a x => ?_, fun a x => ?_, ?_, ?_⟩
  · exact (a.hasUnits_toBinary64.isRoundingOf isProper_binary64).eq_iff isProper_binary64
  · split
    · rename_i hexceeds
      rw [UInt128.toBinary32_eq_infinity hexceeds]
      exact BinaryFloat.eq_infinity_iff isProper_binary32
    · rename_i hfits
      have hunits := UInt128.hasUnits_toBinary32 (Nat.lt_of_not_le hfits)
      exact (hunits.isRoundingOf isProper_binary32).eq_iff isProper_binary32
  · exact a.isRoundingOf_toBinary64.eq_iff isProper_binary64
  · exact a.isRoundingOf_toBinary32.eq_iff isProper_binary32
  · exact (hzero ▸ Int128.isRoundingOf_toBinary64 .zero).unique isProper_binary64
      (isRoundingOf_zero isProper_binary64)
  · exact (hzero ▸ Int128.isRoundingOf_toBinary32 .zero).unique isProper_binary32
      (isRoundingOf_zero isProper_binary32)

end TwoLimb
