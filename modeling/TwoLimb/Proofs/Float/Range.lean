/-
# Floats between two integers

A conversion to integers asks whether a float lies between two of them. What the float
stands for decides this, so a conversion into a wider format changes nothing about it. A
format has limits of its own: its finite floats lie below the power of two at which infinity
would stand.
-/

import TwoLimb.Proofs.Float.Datum
import TwoLimb.Proofs.Float.RoundTrip

namespace TwoLimb

open BinaryFormat

namespace BinaryFloat

variable {f : BinaryFormat} {x : BinaryFloat f}

theorem IsWithin.units_lt {k : Nat} (hx : x.IsWithin 0 (2 ^ k)) :
    x.units < 2 ^ k * 2 ^ f.unitExponent :=
  (ltInt_two_pow_iff (value_nonneg hx.lower) k).mp hx.upper

theorem HasUnits.isWithin {units k : Nat} (hx : x.HasUnits units)
    (hlt : units < 2 ^ k * 2 ^ f.unitExponent) : x.IsWithin 0 (2 ^ k) := by
  have hnonneg : 0 ≤ x.value := by
    rw [hx.value_eq]
    exact Int.natCast_nonneg units
  refine ⟨hx.notNaN, hx.notInfinite, ?_, (ltInt_two_pow_iff hnonneg k).mpr (hx.units ▸ hlt)⟩
  rw [LtInt, Int.zero_mul]
  exact Int.not_lt.mpr hnonneg

section Format

variable (hf : f.IsProper)

include hf

/-- The magnitude of a finite float without its sign. -/
theorem hasUnits_abs (hnumber : x.isNaN = false) (hfinite : x.isInfinite = false) :
    x.abs.HasUnits x.units :=
  hasUnits_ofPattern hf (pattern_lt_infinity hnumber hfinite)

/-- The magnitude of a float on one side of zero or the other. -/
theorem IsWithin.abs {k : Nat} (hx : x.IsWithin (-2 ^ k) (2 ^ k)) :
    x.abs.IsWithin 0 (2 ^ (k + 1)) := by
  refine (hasUnits_abs hf hx.notNaN hx.finite).isWithin ?_
  have hlower := hx.lower
  have hupper := hx.upper
  have hlimit : (2 ^ k * 2 ^ f.unitExponent : Int) = (2 ^ k * 2 ^ f.unitExponent : Nat) := by
    rw [Nat.cast_mul, Nat.cast_pow, Nat.cast_pow]
    rfl
  have hpos : 0 < 2 ^ k * 2 ^ f.unitExponent :=
    Nat.mul_pos (Nat.two_pow_pos k) (Nat.two_pow_pos _)
  rw [LtInt, Int.neg_mul, hlimit] at hlower
  rw [LtInt, hlimit] at hupper
  rw [Nat.pow_succ, Nat.mul_right_comm]
  unfold value at hlower hupper
  by_cases hnegative : x.isNegative = true
  · rw [if_pos hnegative] at hlower hupper
    omega
  · rw [if_neg hnegative] at hlower hupper
    omega

/-- A float lies between two integers when its value does. -/
theorem isWithin_datum_iff {lower upper : Int} :
    x.datum.IsWithin lower upper ↔ x.IsWithin lower upper := by
  constructor
  · rintro ⟨q, hvalue, hlower, hupper⟩
    have hnumber : x.isNaN = false := by
      apply Bool.eq_false_iff.mpr
      intro hnan
      rw [datum_of_isNaN hf hnan] at hvalue
      cases hvalue
    have hfinite : x.isInfinite = false := by
      apply Bool.eq_false_iff.mpr
      intro hinfinite
      rw [datum_of_isInfinite hf hinfinite] at hvalue
      cases hvalue
    obtain rfl : x.value / 2 ^ f.unitExponent = q := by
      rw [value?_datum hf hnumber hfinite] at hvalue
      exact Option.some.inj hvalue
    exact ⟨hnumber, hfinite, (le_value_div_iff lower).mp hlower, (value_div_lt_iff upper).mp hupper⟩
  · intro hx
    exact ⟨_, value?_datum hf hx.notNaN hx.finite, (le_value_div_iff lower).mpr hx.lower,
      (value_div_lt_iff upper).mpr hx.upper⟩

/-- A finite float that is not below zero stays below the limit of its exponents. -/
theorem isWithin_of_not_ltInt (hnumber : x.isNaN = false) (hfinite : x.isInfinite = false)
    (hlower : ¬x.LtInt 0) : x.IsWithin 0 (2 ^ 2 ^ (f.exponentBits - 1)) := by
  refine ⟨hnumber, hfinite, hlower, (ltInt_two_pow_iff (value_nonneg hlower) _).mpr ?_⟩
  rw [← Nat.pow_add, ← units_infinity hf]
  exact f.units_strictMono (pattern_lt_infinity hnumber hfinite)

end Format

/-- A conversion into a wider format does not move a float. -/
theorem isWithin_convert_iff {wide : BinaryFormat} (hf : f.IsProper) (hwide : wide.IsProper)
    (hprecision : f.precision ≤ wide.precision) (hexponents : f.exponentBits ≤ wide.exponentBits)
    {lower upper : Int} :
    (x.convert wide).IsWithin lower upper ↔ x.IsWithin lower upper := by
  rw [← isWithin_datum_iff hwide, datum_convert hf hwide hprecision hexponents,
    isWithin_datum_iff hf]

/-- A 32-bit float that is finite and not below zero becomes a 64-bit float below `2^128`. -/
theorem isWithin_convert {x : Binary32} (hnumber : x.isNaN = false)
    (hfinite : x.isInfinite = false) (hlower : ¬x.LtInt 0) :
    (x.convert binary64).IsWithin 0 (2 ^ 128) := by
  apply (isWithin_convert_iff isProper_binary32 isProper_binary64 (by decide) (by decide)).mpr
  exact isWithin_of_not_ltInt isProper_binary32 hnumber hfinite hlower

end BinaryFloat

end TwoLimb
