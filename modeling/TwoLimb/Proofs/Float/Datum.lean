/-
# What a float stands for

The patterns of a binary interchange format are read here by their fields, as the format
defines them: no number, an infinity, or a sign with a rational magnitude. Nothing is said
of units. That the units of a format count the same magnitudes is the first result, and the
comparison of a float with an integer is then the comparison of rational numbers.

A wider format has all data of a narrower one, so a conversion into it keeps the datum. This
includes the sign of zero.
-/

import Mathlib.Data.Rat.Floor
import TwoLimb.Proofs.Float.Encoding

namespace TwoLimb

/-- What a pattern of a binary format stands for. The two zeros are different data with the
same value. -/
inductive Datum
  | notANumber
  | infinite (negative : Bool)
  | finite (negative : Bool) (magnitude : ℚ)
deriving DecidableEq

namespace Datum

/-- The rational number with the given sign and magnitude. -/
def signed (negative : Bool) (magnitude : ℚ) : ℚ := if negative then -magnitude else magnitude

/-- The value of what is a number and finite. -/
def value? : Datum → Option ℚ
  | .notANumber => none
  | .infinite _ => none
  | .finite negative magnitude => some (signed negative magnitude)

/-- The datum is a number that is at least `lower` and less than `upper`. -/
def IsWithin (datum : Datum) (lower upper : Int) : Prop :=
  ∃ q, datum.value? = some q ∧ lower ≤ q ∧ q < upper

end Datum

namespace BinaryFormat

variable (f : BinaryFormat)

/-- What the exponent field of one exceeds its exponent by. -/
def bias : Nat := 2 ^ (f.exponentBits - 1) - 1

/-- The magnitude with the given fields. With exponent field zero there is no leading one, and
the exponent is that of the field after it. -/
def magnitude (exponent fraction : Nat) : ℚ :=
  if exponent = 0 then fraction / 2 ^ f.fractionBits * 2 ^ (1 - f.bias : ℤ)
  else (1 + fraction / 2 ^ f.fractionBits) * 2 ^ (exponent - f.bias : ℤ)

/-- The datum with the given fields. The last exponent field is that of infinities and of what
is no number. -/
def datum (negative : Bool) (exponent fraction : Nat) : Datum :=
  if exponent = 2 ^ f.exponentBits - 1 then
    if fraction = 0 then .infinite negative else .notANumber
  else .finite negative (f.magnitude exponent fraction)

end BinaryFormat

namespace BinaryFloat

variable {f : BinaryFormat}

/-- The bits between the sign and the fraction. -/
def exponentField (x : BinaryFloat f) : Nat :=
  x.bits.toNat / 2 ^ f.fractionBits % 2 ^ f.exponentBits

def fractionField (x : BinaryFloat f) : Nat := x.bits.toNat % 2 ^ f.fractionBits

/-- What a float stands for. -/
def datum (x : BinaryFloat f) : Datum := f.datum x.isNegative x.exponentField x.fractionField

end BinaryFloat

/-! ### Magnitudes in units -/

namespace BinaryFormat

variable {f : BinaryFormat} (hf : f.IsProper)

include hf

theorem unitExponent_add_one : f.unitExponent + 1 = f.fractionBits + f.bias := by
  have hwidth := hf.two_le_exponentBits
  have hexponents : 2 ^ 1 ≤ 2 ^ (f.exponentBits - 1) :=
    Nat.pow_le_pow_right (by decide) (by omega)
  rw [unitExponent, bias]
  omega

/-- A number of units with the powers of the fields in place of that of the unit. -/
theorem div_two_pow_unitExponent (n : ℚ) :
    n / 2 ^ f.unitExponent = n * 2 / (2 ^ f.fractionBits * 2 ^ f.bias) := by
  rw [← pow_add, ← unitExponent_add_one hf, pow_succ, mul_div_mul_right _ _ two_ne_zero]

/-- The units of a format count its magnitudes. -/
theorem units_div_two_pow (pattern : Nat) :
    (f.units pattern : ℚ) / 2 ^ f.unitExponent =
      f.magnitude (pattern / 2 ^ f.fractionBits) (pattern % 2 ^ f.fractionBits) := by
  rw [div_two_pow_unitExponent hf, units, magnitude]
  cases pattern / 2 ^ f.fractionBits with
  | zero =>
      rw [if_pos rfl, if_pos rfl, zpow_sub₀ two_ne_zero, zpow_one, zpow_natCast,
        div_mul_div_comm]
  | succ exponent =>
      rw [if_neg (Nat.succ_ne_zero _), if_neg (Nat.succ_ne_zero _), zpow_sub₀ two_ne_zero,
        zpow_natCast, zpow_natCast, one_add_div (pow_ne_zero _ two_ne_zero), div_mul_div_comm,
        Nat.add_sub_cancel, pow_succ]
      push_cast
      rw [mul_assoc]

end BinaryFormat

namespace BinaryFloat

/-! ### Data of patterns -/

variable {f : BinaryFormat} {x : BinaryFloat f}

/-- The units of a float with their sign, as a rational number. -/
theorem signed_units : Datum.signed x.isNegative (x.units / 2 ^ f.unitExponent) =
    (x.value : ℚ) / 2 ^ f.unitExponent := by
  rw [Datum.signed, value]
  split
  · rw [Int.cast_neg, neg_div, Int.cast_natCast]
  · rw [Int.cast_natCast]

/-- The comparison of a float with an integer is that of its value. -/
theorem value_div_lt_iff (n : Int) : (x.value : ℚ) / 2 ^ f.unitExponent < n ↔ x.LtInt n := by
  rw [div_lt_iff₀ (pow_pos two_pos _), LtInt]
  exact_mod_cast Iff.rfl

theorem le_value_div_iff (n : Int) : n ≤ (x.value : ℚ) / 2 ^ f.unitExponent ↔ ¬x.LtInt n := by
  rw [← value_div_lt_iff, not_lt]

variable (hf : f.IsProper)

include hf

/-- The sign lies above both fields. -/
theorem pattern_eq_mod :
    x.pattern = x.bits.toNat % (2 ^ f.fractionBits * 2 ^ f.exponentBits) := by
  have hprecision := hf.two_le_precision
  have hwidth : f.width - 1 = f.fractionBits + f.exponentBits := by
    rw [BinaryFormat.width, BinaryFormat.fractionBits]
    omega
  rw [pattern, hwidth, Nat.pow_add]

theorem pattern_div : x.pattern / 2 ^ f.fractionBits = x.exponentField := by
  rw [pattern_eq_mod hf, Nat.mod_mul_right_div_self, exponentField]

theorem pattern_mod : x.pattern % 2 ^ f.fractionBits = x.fractionField := by
  rw [pattern_eq_mod hf, Nat.mod_mul_right_mod, fractionField]

/-- A pattern below that of infinity stands for its magnitude, with its sign. -/
theorem datum_of_lt (hfinite : x.pattern < f.infinity) :
    x.datum = .finite x.isNegative (x.units / 2 ^ f.unitExponent) := by
  have hexponent : x.exponentField < 2 ^ f.exponentBits - 1 := by
    rw [← pattern_div hf, Nat.div_lt_iff_lt_mul (Nat.two_pow_pos _)]
    exact hfinite
  rw [datum, BinaryFormat.datum, if_neg (Nat.ne_of_lt hexponent), units,
    BinaryFormat.units_div_two_pow hf, pattern_div hf, pattern_mod hf]

theorem datum_of_isInfinite (hinfinite : x.isInfinite = true) :
    x.datum = .infinite x.isNegative := by
  have hpattern : x.pattern = f.infinity := beq_iff_eq.mp hinfinite
  have hexponent : x.exponentField = 2 ^ f.exponentBits - 1 := by
    rw [← pattern_div hf, hpattern, BinaryFormat.infinity, Nat.mul_div_cancel _ (Nat.two_pow_pos _)]
  have hfraction : x.fractionField = 0 := by
    rw [← pattern_mod hf, hpattern, BinaryFormat.infinity, Nat.mul_mod_left]
  rw [datum, BinaryFormat.datum, if_pos hexponent, if_pos hfraction]

theorem datum_of_isNaN (hnan : x.isNaN = true) : x.datum = .notANumber := by
  have hlt : f.infinity < x.pattern := of_decide_eq_true hnan
  have hexponent : x.exponentField = 2 ^ f.exponentBits - 1 := by
    have hupper : x.exponentField < 2 ^ f.exponentBits := Nat.mod_lt _ (Nat.two_pow_pos _)
    have hlower : 2 ^ f.exponentBits - 1 ≤ x.exponentField := by
      rw [← pattern_div hf, Nat.le_div_iff_mul_le (Nat.two_pow_pos _)]
      exact Nat.le_of_lt hlt
    exact Nat.le_antisymm (Nat.le_sub_one_of_lt hupper) hlower
  have hfraction : x.fractionField ≠ 0 := by
    intro hzero
    have hpattern := Nat.div_add_mod' x.pattern (2 ^ f.fractionBits)
    rw [pattern_div hf, pattern_mod hf, hexponent, hzero] at hpattern
    exact Nat.ne_of_lt hlt hpattern
  rw [datum, BinaryFormat.datum, if_pos hexponent, if_neg hfraction]

/-- A finite float stands for its value. -/
theorem value?_datum (hnumber : x.isNaN = false) (hfinite : x.isInfinite = false) :
    x.datum.value? = some ((x.value : ℚ) / 2 ^ f.unitExponent) := by
  rw [datum_of_lt hf (pattern_lt_infinity hnumber hfinite), Datum.value?, signed_units]

end BinaryFloat

/-! ### Conversion into a wider format -/

section Wider

variable {narrow wide : BinaryFormat} (hnarrow : narrow.IsProper) (hwide : wide.IsProper)
  (hprecision : narrow.precision ≤ wide.precision)
  (hexponents : narrow.exponentBits ≤ wide.exponentBits)

include hnarrow hwide hprecision hexponents

namespace BinaryFloat

variable {x : BinaryFloat narrow}

/-- Conversion into a wider format keeps what a float stands for, the sign of zero too. -/
theorem datum_convert : (x.convert wide).datum = x.datum := by
  have hinfinity := BinaryFormat.infinity_lt hwide
  by_cases hnan : x.isNaN = true
  · obtain ⟨habove, hpattern⟩ := BinaryFormat.quietNaN_bounds hwide
    have hconverted : (x.convert wide).isNaN = true := by
      rw [convert, if_pos hnan, isNaN, pattern_ofPattern hwide _ hpattern]
      exact decide_eq_true habove
    rw [datum_of_isNaN hnarrow hnan, datum_of_isNaN hwide hconverted]
  have hnumber : x.isNaN = false := Bool.eq_false_iff.mpr hnan
  by_cases hinfinite : x.isInfinite = true
  · have hconverted : x.convert wide = ofPattern x.isNegative wide.infinity := by
      rw [convert, hnumber, hinfinite]
      rfl
    have hpattern : (x.convert wide).isInfinite = true := by
      rw [hconverted, isInfinite, pattern_ofPattern hwide _ hinfinity]
      exact beq_self_eq_true _
    rw [datum_of_isInfinite hnarrow hinfinite, datum_of_isInfinite hwide hpattern, hconverted,
      isNegative_ofPattern hwide _ hinfinity]
  · have hfinite := pattern_lt_infinity hnumber (Bool.eq_false_iff.mpr hinfinite)
    obtain ⟨hlt, hunits⟩ :=
      BinaryFormat.units_nearest_wide hprecision hexponents hnarrow hwide hfinite
    rw [← units] at hlt hunits
    have hpattern := Nat.lt_trans hlt hinfinity
    have hconverted : x.convert wide = ofPattern x.isNegative
        (wide.nearest (x.units * 2 ^ wide.unitExponent) narrow.unitExponent) := by
      rw [convert, hnumber, Bool.eq_false_iff.mpr hinfinite]
      rfl
    have hmagnitude : ((x.convert wide).units : ℚ) / 2 ^ wide.unitExponent =
        x.units / 2 ^ narrow.unitExponent := by
      rw [div_eq_div_iff (pow_ne_zero _ two_ne_zero) (pow_ne_zero _ two_ne_zero), hconverted,
        units, pattern_ofPattern hwide _ hpattern]
      exact_mod_cast hunits
    rw [datum_of_lt hnarrow hfinite, datum_of_lt hwide, hmagnitude, hconverted,
      isNegative_ofPattern hwide _ hpattern]
    rwa [hconverted, pattern_ofPattern hwide _ hpattern]

end BinaryFloat

end Wider

end TwoLimb
