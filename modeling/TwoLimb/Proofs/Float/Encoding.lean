/-
# Patterns and the numbers they stand for

Patterns without a sign count upwards with their magnitudes, also where the exponent
field steps on. So a float is determined by its sign and its magnitude, a magnitude is
finite exactly when it lies below the one that infinity would have, and rounding to a
pattern is rounding to the precision of the format followed by that comparison.
-/

import TwoLimb.Float.Format
import TwoLimb.Proofs.Float.Nearest
import Mathlib.Order.Monotone.Basic

namespace TwoLimb

namespace BinaryFormat

/-- A format with a fraction field and with exponents beside those of the least floats and
of infinity. -/
structure IsProper (f : BinaryFormat) : Prop where
  two_le_precision : 2 ≤ f.precision
  two_le_exponentBits : 2 ≤ f.exponentBits

theorem isProper_binary64 : binary64.IsProper := ⟨by decide, by decide⟩

theorem isProper_binary32 : binary32.IsProper := ⟨by decide, by decide⟩

theorem unitExponent_binary64 : binary64.unitExponent = 1074 := rfl

variable (f : BinaryFormat)

/-- A pattern with a leading one stands for its significand at its exponent, and so does
one whose significand has carried. -/
theorem units_add (exponent : Nat) {significand : Nat}
    (hlower : 2 ^ f.fractionBits ≤ significand) (hupper : significand ≤ 2 * 2 ^ f.fractionBits) :
    f.units (exponent * 2 ^ f.fractionBits + significand) = significand * 2 ^ exponent := by
  have hpositive := Nat.two_pow_pos f.fractionBits
  obtain ⟨fraction, rfl⟩ := Nat.le.dest hlower
  have hpattern : exponent * 2 ^ f.fractionBits + (2 ^ f.fractionBits + fraction) =
      (exponent + 1) * 2 ^ f.fractionBits + fraction := by
    rw [Nat.succ_mul, Nat.add_assoc]
  unfold units
  simp only [hpattern]
  rcases Nat.lt_or_ge fraction (2 ^ f.fractionBits) with hlt | hge
  · rw [Nat.mul_comm, Nat.mul_add_div hpositive, Nat.mul_add_mod, Nat.div_eq_of_lt hlt,
      Nat.mod_eq_of_lt hlt, if_neg (by omega)]
    rfl
  · obtain rfl : fraction = 2 ^ f.fractionBits := by omega
    rw [← Nat.succ_mul, Nat.mul_div_cancel _ hpositive, Nat.mul_mod_left, if_neg (by omega),
      Nat.add_zero, ← Nat.two_mul, Nat.mul_comm 2, Nat.mul_assoc, ← Nat.pow_succ']
    rfl

/-- The least patterns, those without a leading one and the next, count units. -/
theorem units_of_le {pattern : Nat} (hle : pattern ≤ 2 * 2 ^ f.fractionBits) :
    f.units pattern = pattern := by
  rcases Nat.lt_or_ge pattern (2 ^ f.fractionBits) with hlt | hge
  · unfold units
    simp only [Nat.div_eq_of_lt hlt, Nat.mod_eq_of_lt hlt, if_true]
  · have hunits := f.units_add 0 hge hle
    rwa [Nat.zero_mul, Nat.zero_add, Nat.pow_zero, Nat.mul_one] at hunits

theorem units_lt_succ (pattern : Nat) : f.units pattern < f.units (pattern + 1) := by
  have hpositive := Nat.two_pow_pos f.fractionBits
  rcases Nat.lt_or_ge pattern (2 ^ f.fractionBits) with hlt | hge
  · rw [f.units_of_le (by omega), f.units_of_le (by omega)]
    exact Nat.lt_succ_self pattern
  · -- The exponent is the same on both sides, since a carried significand may stand there.
    have hsplit := Nat.div_add_mod' (pattern - 2 ^ f.fractionBits) (2 ^ f.fractionBits)
    have hfraction := Nat.mod_lt (pattern - 2 ^ f.fractionBits) hpositive
    generalize (pattern - 2 ^ f.fractionBits) / 2 ^ f.fractionBits = exponent at *
    generalize (pattern - 2 ^ f.fractionBits) % 2 ^ f.fractionBits = fraction at *
    have hpattern : pattern = exponent * 2 ^ f.fractionBits + (2 ^ f.fractionBits + fraction) := by
      omega
    rw [hpattern, Nat.add_assoc, f.units_add exponent (by omega) (by omega),
      f.units_add exponent (by omega) (by omega)]
    exact Nat.mul_lt_mul_of_pos_right (Nat.lt_succ_self _) (Nat.two_pow_pos exponent)

/-- Patterns count upwards with their magnitudes. -/
theorem units_strictMono : StrictMono f.units := strictMono_nat_of_lt_succ f.units_lt_succ

variable {f} (hf : f.IsProper)

include hf

theorem two_pow_precision : 2 ^ f.precision = 2 * 2 ^ f.fractionBits := by
  have hprecision := hf.two_le_precision
  rw [← Nat.pow_succ', fractionBits]
  congr 1
  omega

theorem hasSignificand_units (pattern : Nat) : HasSignificand f.precision (f.units pattern) := by
  have hfraction := Nat.mod_lt pattern (Nat.two_pow_pos f.fractionBits)
  have hdouble := two_pow_precision hf
  unfold units
  simp only
  split
  · exact hasSignificand_of_lt (by omega)
  · exact (hasSignificand_of_lt (by omega)).mul_two_pow _

/-- The magnitude at which the floats give way to infinity. -/
theorem units_infinity :
    f.units f.infinity = 2 ^ (2 ^ (f.exponentBits - 1) + f.unitExponent) := by
  have hwidth := hf.two_le_exponentBits
  have hexponents : 2 ^ 1 ≤ 2 ^ (f.exponentBits - 1) :=
    Nat.pow_le_pow_right (by decide) (by omega)
  have hdouble : 2 ^ f.exponentBits = 2 * 2 ^ (f.exponentBits - 1) := by
    rw [← Nat.pow_succ']
    congr 1
    omega
  have hinfinity : f.infinity =
      (2 ^ f.exponentBits - 2) * 2 ^ f.fractionBits + 2 ^ f.fractionBits := by
    rw [infinity, ← Nat.succ_mul]
    congr 1
    omega
  rw [hinfinity, f.units_add _ (Nat.le_refl _) (by omega), ← Nat.pow_add, unitExponent]
  congr 1
  omega

/-- The pattern of a rounded number, before the comparison with infinity. -/
theorem units_excess_add (n : Nat) :
    f.units ((bitLength n - f.precision) * 2 ^ f.fractionBits +
      roundHalfEven n (bitLength n - f.precision)) = roundTo f.precision n := by
  have hprecision := hf.two_le_precision
  have hdouble := two_pow_precision hf
  by_cases hexcess : f.precision < bitLength n
  · obtain ⟨hlower, hupper⟩ := roundHalfEven_excess_bounds (by omega) hexcess
    exact f.units_add _ (by omega) (by omega)
  · have hlt := lt_two_pow_of_bitLength_le (Nat.le_of_not_lt hexcess)
    rw [roundTo, Nat.sub_eq_zero_of_le (Nat.le_of_not_lt hexcess), roundHalfEven_zero,
      Nat.zero_mul, Nat.zero_add, f.units_of_le (by omega), Nat.mul_one]

/-- A number that rounds to a magnitude below that of infinity has the pattern of that
magnitude. -/
theorem nearest_of_lt {n : Nat} (hfits : roundTo f.precision n < f.units f.infinity) :
    f.nearest n 0 < f.infinity ∧ f.units (f.nearest n 0) = roundTo f.precision n := by
  have hunits := units_excess_add hf n
  have hlt := f.units_strictMono.lt_iff_lt.mp (hunits ▸ hfits)
  have hnearest : f.nearest n 0 = (bitLength n - f.precision) * 2 ^ f.fractionBits +
      roundHalfEven n (bitLength n - f.precision) := by
    unfold nearest
    simp only [Nat.sub_zero, Nat.zero_add]
    exact if_pos hlt
  rw [hnearest]
  exact ⟨hlt, hunits⟩

/-- A number that rounds to the magnitude of infinity or beyond has its pattern. -/
theorem nearest_of_le {n : Nat} (hexceeds : f.units f.infinity ≤ roundTo f.precision n) :
    f.nearest n 0 = f.infinity := by
  have hunits := units_excess_add hf n
  have hle := f.units_strictMono.le_iff_le.mp (hunits ▸ hexceeds)
  unfold nearest
  simp only [Nat.sub_zero, Nat.zero_add]
  exact if_neg (Nat.not_lt.mpr hle)

omit hf in
/-- Whole numbers of units need no places. -/
theorem nearest_mul_two_pow (n places : Nat) :
    f.nearest (n * 2 ^ places) places = f.nearest n 0 := by
  by_cases hn : n = 0
  · simp [hn, nearest, bitLength, roundHalfEven]
  · unfold nearest
    simp only [bitLength_mul_two_pow hn, Nat.add_sub_cancel, Nat.sub_zero, Nat.zero_add,
      Nat.add_comm places, roundHalfEven_mul_two_pow]

/-- With all exponent bits set there is room for any fraction. -/
theorem infinity_add_lt {fraction : Nat} (hfraction : fraction < 2 ^ f.fractionBits) :
    f.infinity + fraction < 2 ^ (f.width - 1) := by
  have hprecision := hf.two_le_precision
  have hwidth : f.width - 1 = f.exponentBits + f.fractionBits := by
    unfold width fractionBits
    omega
  rw [hwidth, Nat.pow_add, infinity]
  calc
    (2 ^ f.exponentBits - 1) * 2 ^ f.fractionBits + fraction
        < (2 ^ f.exponentBits - 1) * 2 ^ f.fractionBits + 2 ^ f.fractionBits :=
      Nat.add_lt_add_left hfraction _
    _ = 2 ^ f.exponentBits * 2 ^ f.fractionBits := by
      rw [← Nat.succ_mul, Nat.succ_eq_add_one, Nat.sub_add_cancel (Nat.two_pow_pos _)]

theorem infinity_lt : f.infinity < 2 ^ (f.width - 1) :=
  infinity_add_lt hf (Nat.two_pow_pos f.fractionBits)

/-- The pattern that stands for no number has its place above infinity. -/
theorem quietNaN_bounds : f.infinity < f.quietNaN ∧ f.quietNaN < 2 ^ (f.width - 1) := by
  have hfraction : 2 ^ (f.fractionBits - 1) < 2 ^ f.fractionBits :=
    Nat.pow_lt_pow_right (by decide) (Nat.sub_one_lt_of_lt (Nat.sub_pos_of_lt hf.two_le_precision))
  exact ⟨Nat.lt_add_of_pos_right (Nat.two_pow_pos _), infinity_add_lt hf hfraction⟩

theorem two_pow_width : 2 ^ f.width = 2 * 2 ^ (f.width - 1) := by
  have hprecision := hf.two_le_precision
  rw [← Nat.pow_succ', width]
  congr 1
  omega

end BinaryFormat

namespace BinaryFloat

variable {f : BinaryFormat}

/-! ### Fields of a float -/

section Fields

variable (hf : f.IsProper)

include hf

theorem toNat_bits_ofPattern (negative : Bool) {pattern : Nat}
    (hpattern : pattern < 2 ^ (f.width - 1)) :
    (ofPattern negative pattern : BinaryFloat f).bits.toNat =
      negative.toNat * 2 ^ (f.width - 1) + pattern := by
  have hwidth := BinaryFormat.two_pow_width hf
  rw [ofPattern, BitVec.toNat_ofNat, Nat.mod_eq_of_lt]
  cases negative
  · rw [Bool.toNat_false]
    omega
  · rw [Bool.toNat_true]
    omega

theorem pattern_ofPattern (negative : Bool) {pattern : Nat}
    (hpattern : pattern < 2 ^ (f.width - 1)) :
    (ofPattern negative pattern : BinaryFloat f).pattern = pattern := by
  rw [BinaryFloat.pattern, toNat_bits_ofPattern hf negative hpattern, Nat.mul_comm,
    Nat.mul_add_mod, Nat.mod_eq_of_lt hpattern]

theorem isNegative_ofPattern (negative : Bool) {pattern : Nat}
    (hpattern : pattern < 2 ^ (f.width - 1)) :
    (ofPattern negative pattern : BinaryFloat f).isNegative = negative := by
  rw [isNegative, BitVec.msb_eq_decide, toNat_bits_ofPattern hf negative hpattern]
  cases negative
  · rw [Bool.toNat_false, decide_eq_false_iff_not]
    omega
  · rw [Bool.toNat_true, decide_eq_true_iff]
    omega

/-- A float is its sign and its pattern. -/
theorem ext_pattern {x y : BinaryFloat f} (hsign : x.isNegative = y.isNegative)
    (hpattern : x.pattern = y.pattern) : x = y := by
  have hwidth := BinaryFormat.two_pow_width hf
  have hbits (z : BinaryFloat f) :
      z.bits.toNat = z.isNegative.toNat * 2 ^ (f.width - 1) + z.pattern := by
    have hlt := z.bits.isLt
    rw [isNegative, BitVec.msb_eq_decide, pattern]
    by_cases hnegative : 2 ^ (f.width - 1) ≤ z.bits.toNat
    · rw [decide_eq_true hnegative, Bool.toNat_true, Nat.mod_eq_sub_mod hnegative,
        Nat.mod_eq_of_lt (by omega)]
      omega
    · rw [decide_eq_false hnegative, Bool.toNat_false, Nat.mod_eq_of_lt (by omega)]
      omega
  have hequal : x.bits = y.bits :=
    BitVec.eq_of_toNat_eq (by rw [hbits x, hbits y, hsign, hpattern])
  cases x
  cases y
  exact congrArg _ hequal

end Fields

theorem pattern_lt_infinity {x : BinaryFloat f} (hnumber : x.isNaN = false)
    (hfinite : x.isInfinite = false) : x.pattern < f.infinity := by
  have hle : x.pattern ≤ f.infinity := Nat.not_lt.mp (of_decide_eq_false hnumber)
  exact Nat.lt_of_le_of_ne hle (ne_of_beq_false hfinite)

/-! ### Rounding to a float -/

/-- `x` is the finite float that an integer rounds to, with the sign of the integer. Its
exact value and the integer are compared in units, and so are all their competitors. -/
structure IsRoundingOf (x : BinaryFloat f) (n : Int) : Prop where
  notNaN : x.isNaN = false
  finite : x.isInfinite = false
  sign : x.isNegative = decide (n < 0)
  nearest : IsNearest f.precision (n * 2 ^ f.unitExponent) x.value

/-- `x` is the finite float without a sign whose magnitude is the given number of units. -/
structure HasUnits (x : BinaryFloat f) (units : Nat) : Prop where
  sign : x.isNegative = false
  finite : x.pattern < f.infinity
  units : x.units = units

namespace HasUnits

variable {x : BinaryFloat f} {units : Nat}

theorem notNaN (hx : x.HasUnits units) : x.isNaN = false :=
  decide_eq_false (Nat.lt_asymm hx.finite)

theorem notInfinite (hx : x.HasUnits units) : x.isInfinite = false :=
  beq_false_of_ne (Nat.ne_of_lt hx.finite)

end HasUnits

variable (hf : f.IsProper)

include hf

theorem hasUnits_ofPattern {pattern : Nat} (hfinite : pattern < f.infinity) :
    (ofPattern false pattern : BinaryFloat f).HasUnits (f.units pattern) := by
  have hpattern := Nat.lt_trans hfinite (BinaryFormat.infinity_lt hf)
  have hfield := pattern_ofPattern hf false hpattern
  refine ⟨isNegative_ofPattern hf false hpattern, ?_, congrArg f.units hfield⟩
  rwa [hfield]

/-- A number that stays below infinity is encoded by what it rounds to. -/
theorem hasUnits_ofPattern_nearest {n : Nat}
    (hfits : roundTo f.precision n < f.units f.infinity) :
    (ofPattern false (f.nearest n 0) : BinaryFloat f).HasUnits (roundTo f.precision n) := by
  obtain ⟨hfinite, hunits⟩ := BinaryFormat.nearest_of_lt hf hfits
  exact hunits ▸ hasUnits_ofPattern hf hfinite

theorem hasUnits_ofNat {n : Nat}
    (hfits : roundTo f.precision (n * 2 ^ f.unitExponent) < f.units f.infinity) :
    (ofNat n : BinaryFloat f).HasUnits (roundTo f.precision (n * 2 ^ f.unitExponent)) :=
  hasUnits_ofPattern_nearest hf hfits

/-- A magnitude of the precision below infinity is encoded as it is. -/
theorem hasUnits_of_hasSignificand {units : Nat} (hunits : HasSignificand f.precision units)
    (hfits : units < f.units f.infinity) :
    (ofPattern false (f.nearest units 0) : BinaryFloat f).HasUnits units := by
  have hexact := roundTo_eq_self hf.two_le_precision hunits
  have hencoded := hasUnits_ofPattern_nearest hf (hexact.symm ▸ hfits)
  rwa [hexact] at hencoded

/-- A product is exact where it is a magnitude of the precision below infinity. -/
theorem HasUnits.mul {x y : BinaryFloat f} {units other target : Nat} (hx : x.HasUnits units)
    (hy : y.HasUnits other) (htarget : units * other = target * 2 ^ f.unitExponent)
    (hunits : HasSignificand f.precision target) (hfits : target < f.units f.infinity) :
    (x.mul y).HasUnits target := by
  rw [BinaryFloat.mul, hx.sign, hy.sign, hx.notNaN, hy.notNaN, hx.notInfinite, hy.notInfinite,
    hx.units, hy.units, htarget, BinaryFormat.nearest_mul_two_pow]
  exact hasUnits_of_hasSignificand hf hunits hfits

/-- A product with a power of two is exact below infinity. -/
theorem HasUnits.mul_two_pow {x y : BinaryFloat f} {units exponent : Nat} (hx : x.HasUnits units)
    (hy : y.HasUnits (2 ^ (exponent + f.unitExponent)))
    (hunits : HasSignificand f.precision units)
    (hfits : units * 2 ^ exponent < f.units f.infinity) :
    (x.mul y).HasUnits (units * 2 ^ exponent) := by
  have htarget : units * 2 ^ (exponent + f.unitExponent) =
      units * 2 ^ exponent * 2 ^ f.unitExponent := by
    rw [Nat.pow_add, Nat.mul_assoc]
  exact hx.mul hf hy htarget (hunits.mul_two_pow exponent) hfits

omit hf in
/-- Conversion of a float whose magnitude is a whole number of units of the new format
rounds that number. -/
theorem HasUnits.convert_eq {g : BinaryFormat} {x : BinaryFloat g} {units target : Nat}
    (hx : x.HasUnits units) (htarget : units * 2 ^ f.unitExponent = target * 2 ^ g.unitExponent) :
    x.convert f = ofPattern false (f.nearest target 0) := by
  rw [BinaryFloat.convert, hx.notNaN, hx.notInfinite, hx.sign, hx.units, htarget,
    BinaryFormat.nearest_mul_two_pow]
  rfl

/-- Conversion is exact for a magnitude of the new precision below the new infinity. -/
theorem HasUnits.convert {g : BinaryFormat} {x : BinaryFloat g} {units target : Nat}
    (hx : x.HasUnits units) (htarget : units * 2 ^ f.unitExponent = target * 2 ^ g.unitExponent)
    (hunits : HasSignificand f.precision target) (hfits : target < f.units f.infinity) :
    (x.convert f).HasUnits target := by
  rw [hx.convert_eq htarget]
  exact hasUnits_of_hasSignificand hf hunits hfits

/-- Conversion of a magnitude at the new infinity or beyond is infinite. -/
theorem HasUnits.convert_of_le {g : BinaryFormat} {x : BinaryFloat g} {units target : Nat}
    (hx : x.HasUnits units) (htarget : units * 2 ^ f.unitExponent = target * 2 ^ g.unitExponent)
    (hunits : HasSignificand f.precision target) (hexceeds : f.units f.infinity ≤ target) :
    x.convert f = ofPattern false f.infinity := by
  have hexact := roundTo_eq_self hf.two_le_precision hunits
  rw [hx.convert_eq htarget, BinaryFormat.nearest_of_le hf (hexact.symm ▸ hexceeds)]

/-- The float that rounds a natural number, from its magnitude. -/
theorem HasUnits.isRoundingOf {x : BinaryFloat f} {n : Nat}
    (hx : x.HasUnits (roundTo f.precision (n * 2 ^ f.unitExponent))) : x.IsRoundingOf n where
  notNaN := hx.notNaN
  finite := hx.notInfinite
  sign := by
    rw [hx.sign]
    exact (decide_eq_false (Int.not_lt.mpr (Int.natCast_nonneg n))).symm
  nearest := by
    have hnearest := isNearest_roundTo hf.two_le_precision (n * 2 ^ f.unitExponent)
    rw [value, hx.sign, hx.units]
    rwa [Int.natCast_mul, Int.natCast_pow] at hnearest

/-- Zero has a float without a sign, the pattern without a bit. -/
theorem isRoundingOf_zero : (ofPattern false 0 : BinaryFloat f).IsRoundingOf 0 := by
  have hinfinity := BinaryFormat.units_infinity hf
  have hunits : f.units 0 = 0 := f.units_of_le (Nat.zero_le _)
  have hfinite : 0 < f.infinity := by
    rw [← f.units_strictMono.lt_iff_lt, hinfinity, hunits]
    exact Nat.two_pow_pos _
  have hzero := hunits ▸ hasUnits_ofPattern hf hfinite
  refine HasUnits.isRoundingOf hf (n := 0) ?_
  rwa [Nat.zero_mul, roundTo_eq_self hf.two_le_precision (hasSignificand_zero _)]

/-- The float of opposite sign rounds the opposite number. -/
theorem HasUnits.isRoundingOf_neg {x : BinaryFloat f} {n : Nat} (hn : n ≠ 0)
    (hx : x.HasUnits (roundTo f.precision (n * 2 ^ f.unitExponent))) :
    x.neg.IsRoundingOf (-n) := by
  have hpattern := Nat.lt_trans hx.finite (BinaryFormat.infinity_lt hf)
  have hsign : x.neg.isNegative = true := by
    rw [neg, isNegative_ofPattern hf _ hpattern, hx.sign]
    rfl
  have hfield : x.neg.pattern = x.pattern := pattern_ofPattern hf _ hpattern
  refine ⟨?_, ?_, ?_, ?_⟩
  · rw [isNaN, hfield]
    exact hx.notNaN
  · rw [isInfinite, hfield]
    exact hx.notInfinite
  · rw [hsign]
    exact (decide_eq_true (by omega)).symm
  · have hnearest := (isNearest_roundTo hf.two_le_precision (n * 2 ^ f.unitExponent)).neg
    rw [value, hsign, BinaryFloat.units, hfield, ← BinaryFloat.units, hx.units]
    rwa [Int.natCast_mul, Int.natCast_pow, ← Int.neg_mul] at hnearest

/-- An integer has one rounding in a format. -/
theorem IsRoundingOf.unique {x y : BinaryFloat f} {n : Int} (hx : x.IsRoundingOf n)
    (hy : y.IsRoundingOf n) : x = y := by
  have hsign : x.isNegative = y.isNegative := hx.sign.trans hy.sign.symm
  have hvalue : x.value = y.value := hx.nearest.unique hy.nearest
  have hunits : x.units = y.units := by
    rw [value, value, hsign] at hvalue
    split at hvalue <;> omega
  exact ext_pattern hf hsign (f.units_strictMono.injective hunits)

/-- The value of a rounding is the rounded integer, in units. -/
theorem IsRoundingOf.value_eq {x : BinaryFloat f} {n : Nat} (hx : x.IsRoundingOf n) :
    x.value = (roundTo f.precision n * 2 ^ f.unitExponent : Nat) := by
  have hnearest := isNearest_roundTo hf.two_le_precision (n * 2 ^ f.unitExponent)
  rw [roundTo_mul_two_pow hf.two_le_precision, Int.natCast_mul, Int.natCast_pow] at hnearest
  exact hx.nearest.unique hnearest

theorem IsRoundingOf.eq_iff {x y : BinaryFloat f} {n : Int} (hx : x.IsRoundingOf n) :
    y = x ↔ y.IsRoundingOf n :=
  ⟨fun heq => heq ▸ hx, fun hy => hy.unique hf hx⟩

/-- Sign and magnitude determine an infinity. -/
theorem eq_infinity_iff {x : BinaryFloat f} :
    x = ofPattern false f.infinity ↔ x.isInfinite = true ∧ x.isNegative = false := by
  have hpattern := BinaryFormat.infinity_lt hf
  have hfield := pattern_ofPattern hf false hpattern
  have hsign := isNegative_ofPattern hf false hpattern
  constructor
  · rintro rfl
    exact ⟨beq_iff_eq.mpr hfield, hsign⟩
  · rintro ⟨hinfinite, hpositive⟩
    exact ext_pattern hf (hpositive.trans hsign.symm)
      ((beq_iff_eq.mp hinfinite).trans hfield.symm)

end BinaryFloat

namespace BinaryFormat

/-! ### Magnitudes in a wider format -/

section Wider

variable {narrow wide : BinaryFormat} (hprecision : narrow.precision ≤ wide.precision)
  (hexponents : narrow.exponentBits ≤ wide.exponentBits)

include hprecision hexponents

/-- The unit of a wider format is not larger. -/
theorem unitExponent_le : narrow.unitExponent ≤ wide.unitExponent := by
  have hpower : 2 ^ (narrow.exponentBits - 1) ≤ 2 ^ (wide.exponentBits - 1) :=
    Nat.pow_le_pow_right (by decide) (Nat.sub_le_sub_right hexponents 1)
  exact Nat.add_le_add (Nat.sub_le_sub_right hpower 2) (Nat.sub_le_sub_right hprecision 1)

/-- A finite magnitude has a pattern in a wider format, and nothing is rounded away. -/
theorem units_nearest_wide (hnarrow : narrow.IsProper) (hwide : wide.IsProper) {pattern : Nat}
    (hfinite : pattern < narrow.infinity) :
    wide.nearest (narrow.units pattern * 2 ^ wide.unitExponent) narrow.unitExponent <
        wide.infinity ∧
      wide.units (wide.nearest (narrow.units pattern * 2 ^ wide.unitExponent)
        narrow.unitExponent) * 2 ^ narrow.unitExponent =
          narrow.units pattern * 2 ^ wide.unitExponent := by
  obtain ⟨finer, hfiner⟩ := Nat.exists_eq_add_of_le (unitExponent_le hprecision hexponents)
  have htarget : narrow.units pattern * 2 ^ wide.unitExponent =
      narrow.units pattern * 2 ^ finer * 2 ^ narrow.unitExponent := by
    rw [hfiner, Nat.pow_add, Nat.mul_assoc, Nat.mul_comm (2 ^ narrow.unitExponent)]
  have hexact : roundTo wide.precision (narrow.units pattern * 2 ^ finer) =
      narrow.units pattern * 2 ^ finer :=
    roundTo_eq_self hwide.two_le_precision
      (((hasSignificand_units hnarrow pattern).mono hprecision).mul_two_pow finer)
  have hfits : roundTo wide.precision (narrow.units pattern * 2 ^ finer) <
      wide.units wide.infinity := by
    have hbelow := narrow.units_strictMono hfinite
    have hlimits : 2 ^ (narrow.exponentBits - 1) ≤ 2 ^ (wide.exponentBits - 1) :=
      Nat.pow_le_pow_right (by decide) (Nat.sub_le_sub_right hexponents 1)
    rw [units_infinity hnarrow] at hbelow
    rw [hexact, units_infinity hwide, hfiner, ← Nat.add_assoc, Nat.pow_add _ _ finer]
    calc
      narrow.units pattern * 2 ^ finer
          < 2 ^ (2 ^ (narrow.exponentBits - 1) + narrow.unitExponent) * 2 ^ finer :=
        Nat.mul_lt_mul_of_pos_right hbelow (Nat.two_pow_pos finer)
      _ ≤ 2 ^ (2 ^ (wide.exponentBits - 1) + narrow.unitExponent) * 2 ^ finer :=
        Nat.mul_le_mul_right _
          (Nat.pow_le_pow_right (by decide) (Nat.add_le_add_right hlimits _))
  obtain ⟨hlt, hunits⟩ := nearest_of_lt hwide hfits
  rw [htarget, nearest_mul_two_pow, hunits, hexact]
  exact ⟨hlt, rfl⟩

end Wider

end BinaryFormat

end TwoLimb
