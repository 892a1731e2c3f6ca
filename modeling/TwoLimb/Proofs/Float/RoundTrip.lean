/-
# Integers through floats and back

An integer that becomes a float and then an integer again has been rounded to the digits
of a significand, and nothing else has happened to it: the float is a whole number, so
truncation takes nothing away. It is refused where the rounding has left the range, which
begins half a unit of the last place below the first power of two out of range. A signed
value leaves its range only at the upper end, since the lower end is itself a power of two
and needs no rounding. A float that becomes an integer has its digits below the point
dropped, and the integer has few enough digits to become a float without rounding.
-/

import TwoLimb.Proofs.Float.Truncation

namespace TwoLimb

open BinaryFormat

namespace BinaryFloat

variable {f : BinaryFormat}

/-- `x` is a finite float whose value is the integer, nothing rounded away. -/
structure IsExactly (x : BinaryFloat f) (n : Int) : Prop where
  notNaN : x.isNaN = false
  finite : x.isInfinite = false
  value : x.value = n * 2 ^ f.unitExponent

/-- `x` is a finite float that is at least `lower` and less than `upper`. -/
structure IsWithin (x : BinaryFloat f) (lower upper : Int) : Prop where
  notNaN : x.isNaN = false
  finite : x.isInfinite = false
  lower : ¬x.LtInt lower
  upper : x.LtInt upper

theorem HasUnits.value_eq {x : BinaryFloat f} {units : Nat} (hx : x.HasUnits units) :
    x.value = units := by
  rw [value, hx.sign, hx.units]
  rfl

section Limits

variable (hf : f.IsProper) {x : BinaryFloat f}

include hf

/-- A rounding lies below a power of two when the rounded integer does. -/
theorem IsRoundingOf.ltInt_two_pow_iff {n : Nat} (hx : x.IsRoundingOf n) {k : Nat} :
    x.LtInt (2 ^ k) ↔ roundTo f.precision n < 2 ^ k := by
  have hvalue := hx.value_eq hf
  have hnonneg : 0 ≤ x.value := hvalue ▸ Int.natCast_nonneg _
  rw [value_eq_units hnonneg, Int.natCast_inj] at hvalue
  rw [BinaryFloat.ltInt_two_pow_iff hnonneg, hvalue, Nat.mul_lt_mul_right (Nat.two_pow_pos _)]

/-- No rounding passes the lower end of a signed range, which is a power of two. -/
theorem IsRoundingOf.not_ltInt_neg_two_pow {n : Int} (hx : x.IsRoundingOf n) {k : Nat}
    (hn : -2 ^ k ≤ n) : ¬x.LtInt (-2 ^ k) := by
  have hend := hasSignificand_two_pow (Nat.le_of_succ_le hf.two_le_precision) (k + f.unitExponent)
  rw [Nat.pow_add, Int.natCast_mul, Int.natCast_pow, Int.natCast_pow] at hend
  have hle : -(n * 2 ^ f.unitExponent) ≤ 2 ^ k * 2 ^ f.unitExponent := by
    rw [← Int.neg_mul]
    exact Int.mul_le_mul_of_nonneg_right (Int.neg_le_of_neg_le hn) (Int.pow_nonneg (by decide))
  have hbound := hx.nearest.neg.le_of_le hend hle
  rw [LtInt, Int.neg_mul]
  exact Int.not_lt.mpr (Int.neg_le_of_neg_le hbound)

omit hf in
theorem IsRoundingOf.ltInt_two_pow_of_nonpos {n : Int} (hx : x.IsRoundingOf n) (k : Nat)
    (hn : n ≤ 0) : x.LtInt (2 ^ k) := by
  have hle : n * 2 ^ f.unitExponent ≤ 0 :=
    Int.mul_nonpos_of_nonpos_of_nonneg hn (Int.pow_nonneg (by decide))
  have hbound := hx.nearest.le_of_le (hasSignificand_zero _) hle
  exact Int.lt_of_le_of_lt hbound (Int.mul_pos (Int.pow_pos (by decide)) (Int.pow_pos (by decide)))

end Limits

end BinaryFloat

namespace UInt128

/-- A value is rounded on its way through a float, and out of range where it rounds up to
the modulus. -/
theorem ofBinary64_toBinary64 (a : UInt128) :
    ofBinary64 a.toBinary64 = if roundTo binary64.precision a.toNat < 2 ^ 128
      then .ok (ofNat (roundTo binary64.precision a.toNat)) else .error .outOfRange := by
  have hunits := a.hasUnits_toBinary64
  rw [roundTo_mul_two_pow (by decide)] at hunits
  have hnonneg : 0 ≤ a.toBinary64.value := by
    rw [hunits.value_eq]
    exact Int.natCast_nonneg _
  rw [ofBinary64_eq hunits.notNaN hunits.notInfinite hnonneg, hunits.units]
  simp only [Nat.mul_lt_mul_right (Nat.two_pow_pos _), Nat.mul_div_cancel _ (Nat.two_pow_pos _)]

theorem two_pow_le_roundTo_toNat_iff (a : UInt128) :
    2 ^ 128 ≤ roundTo binary64.precision a.toNat ↔ 2 ^ 128 - 2 ^ 74 ≤ a.toNat :=
  two_pow_le_roundTo_iff (by decide) (by decide) a.toNat_lt

theorem ofBinary64_toBinary64_eq_outOfRange_iff (a : UInt128) :
    ofBinary64 a.toBinary64 = .error .outOfRange ↔ 2 ^ 128 - 2 ^ 74 ≤ a.toNat := by
  rw [ofBinary64_toBinary64, ← two_pow_le_roundTo_toNat_iff]
  split
  · rename_i hfits
    exact iff_of_false (fun hequal => nomatch hequal) (Nat.not_le.mpr hfits)
  · rename_i hexceeds
    exact iff_of_true rfl (Nat.not_lt.mp hexceeds)

theorem exists_ofBinary64_toBinary64 {a : UInt128} (hfits : a.toNat < 2 ^ 128 - 2 ^ 74) :
    ∃ b, ofBinary64 a.toBinary64 = .ok b ∧ b.toNat = roundTo binary64.precision a.toNat := by
  have hrounded : roundTo binary64.precision a.toNat < 2 ^ 128 :=
    Nat.lt_of_not_le (mt a.two_pow_le_roundTo_toNat_iff.mp (Nat.not_le.mpr hfits))
  refine ⟨ofNat (roundTo binary64.precision a.toNat), ?_, ?_⟩
  · rw [ofBinary64_toBinary64, if_pos hrounded]
  · rw [toNat_ofNat, Nat.mod_eq_of_lt hrounded]

/-- The narrow format refuses as infinite what became infinite there. -/
theorem ofBinary32_toBinary32_eq_infinite_iff (a : UInt128) :
    ofBinary32 a.toBinary32 = .error .infinite ↔ 2 ^ 128 - 2 ^ 103 ≤ a.toNat := by
  rcases Nat.lt_or_ge a.toNat (2 ^ 128 - 2 ^ 103) with hfits | hexceeds
  · have hunits := hasUnits_toBinary32 hfits
    refine iff_of_false (fun hinfinite => ?_) (Nat.not_le.mpr hfits)
    rw [ofBinary32, hunits.notNaN, hunits.notInfinite, if_neg Bool.false_ne_true,
      if_neg Bool.false_ne_true] at hinfinite
    split at hinfinite <;> nomatch hinfinite
  · refine iff_of_true ?_ hexceeds
    rw [toBinary32_eq_infinity hexceeds]
    decide

/-- Between the topmost and the lowest set bit there are no more digits than a significand
has. -/
theorem hasSignificand_toNat {a : UInt128} {precision : Nat}
    (hdigits : a.bitWidth ≤ a.trailingZeros + precision) : HasSignificand precision a.toNat := by
  obtain ⟨significand, hvalue⟩ := a.two_pow_trailingZeros_dvd
  rw [bitWidth_eq] at hdigits
  have hlt := lt_two_pow_of_bitLength_le hdigits
  rw [hvalue, Nat.pow_add, Nat.mul_lt_mul_left (Nat.two_pow_pos _)] at hlt
  rw [hvalue, Nat.mul_comm]
  exact (hasSignificand_of_lt hlt).mul_two_pow _

/-- A float between zero and the modulus becomes its integer part, and that becomes a float
again without rounding. -/
theorem ofBinary64_of_isWithin {x : Binary64} (hx : x.IsWithin 0 (2 ^ 128)) :
    ∃ b, ofBinary64 x = .ok b ∧ (b.toNat : Int) = x.integerPart ∧
      b.toBinary64.IsExactly x.integerPart := by
  have hnonneg := BinaryFloat.value_nonneg hx.lower
  have hfits := (BinaryFloat.ltInt_two_pow_iff hnonneg 128).mp hx.upper
  have hquotient : (ofNat (x.units / 2 ^ binary64.unitExponent)).toNat =
      x.units / 2 ^ binary64.unitExponent := by
    rw [← truncateBinary64_eq hfits, toNat_truncateBinary64 hfits]
  have hdigits : HasSignificand binary64.precision
      (x.units / 2 ^ binary64.unitExponent * 2 ^ binary64.unitExponent : Nat) :=
    ((hasSignificand_units isProper_binary64 x.pattern).div_two_pow _).mul_two_pow _
  have hunits := hasUnits_toBinary64 (ofNat (x.units / 2 ^ binary64.unitExponent))
  rw [hquotient, roundTo_eq_self (by decide) hdigits] at hunits
  refine ⟨ofNat (x.units / 2 ^ binary64.unitExponent), ?_, ?_, ?_⟩
  · rw [ofBinary64_eq hx.notNaN hx.finite hnonneg, if_pos hfits]
  · rw [hquotient, BinaryFloat.integerPart_eq hnonneg]
  · refine ⟨hunits.notNaN, hunits.notInfinite, ?_⟩
    rw [hunits.value_eq, BinaryFloat.integerPart_eq hnonneg, Int.natCast_mul, Int.natCast_pow]
    rfl

end UInt128

namespace Int128

theorem ofBinary64_eq_outOfRange_iff {x : Binary64} (hnumber : x.isNaN = false)
    (hfinite : x.isInfinite = false) :
    ofBinary64 x = .error .outOfRange ↔ ¬x.LtInt (2 ^ 127) ∨ x.LtInt (-2 ^ 127) := by
  rw [ofBinary64, hnumber, hfinite, if_neg Bool.false_ne_true, if_neg Bool.false_ne_true]
  split
  · rename_i hrange
    exact iff_of_true rfl hrange
  · rename_i hrange
    exact iff_of_false (fun hequal => nomatch hequal) hrange

/-- A signed value is out of range after rounding only where it rounds up to `2^127`. -/
theorem ofBinary64_toBinary64_eq_outOfRange_iff (a : Int128) :
    ofBinary64 a.toBinary64 = .error .outOfRange ↔ 2 ^ 127 - 2 ^ 73 ≤ a.toInt := by
  have hrounding := a.isRoundingOf_toBinary64
  have hbounds := a.toInt_bounds
  rw [ofBinary64_eq_outOfRange_iff hrounding.notNaN hrounding.finite, or_iff_left
    (hrounding.not_ltInt_neg_two_pow isProper_binary64 hbounds.1)]
  rcases Int.le_total a.toInt 0 with hnonpos | hnonneg
  · have hbelow := hrounding.ltInt_two_pow_of_nonpos 127 hnonpos
    exact iff_of_false (not_not_intro hbelow) (by omega)
  · obtain ⟨n, hn⟩ := Int.eq_ofNat_of_zero_le hnonneg
    have hlimit : 2 ^ 127 ≤ roundTo binary64.precision n ↔ 2 ^ 127 - 2 ^ 73 ≤ n :=
      two_pow_le_roundTo_iff (by decide) (by decide) (by omega)
    rw [hn] at hrounding ⊢
    rw [hrounding.ltInt_two_pow_iff isProper_binary64, Nat.not_lt, hlimit]
    omega

end Int128

/-- Every integer survives the way through a float up to the rounding to its significand,
and is refused only where the rounding leaves the range: from half a unit of the last place
below the end of the range on. The value is the same when its set bits span no more digits
than a significand has, and otherwise off by at most half a unit. Every float in the range
becomes its integer part, which is a float without rounding. -/
theorem BinaryFloat.integers_round_trip :
    (∀ a : UInt128,
      (UInt128.ofBinary64 a.toBinary64 = .error .outOfRange ↔ 2 ^ 128 - 2 ^ 74 ≤ a.toNat) ∧
      (a.toNat < 2 ^ 128 - 2 ^ 74 → ∃ b, UInt128.ofBinary64 a.toBinary64 = .ok b ∧
        if a.bitWidth ≤ a.trailingZeros + 53 then b = a
        else ((b.toNat : Int) - a.toNat).natAbs ≤ 2 ^ (a.bitWidth - 54)) ∧
      (UInt128.ofBinary32 a.toBinary32 = .error .infinite ↔ 2 ^ 128 - 2 ^ 103 ≤ a.toNat)) ∧
    (∀ a : Int128,
      Int128.ofBinary64 a.toBinary64 = .error .outOfRange ↔ 2 ^ 127 - 2 ^ 73 ≤ a.toInt) ∧
    (∀ x : Binary64, x.IsWithin 0 (2 ^ 128) → ∃ b, UInt128.ofBinary64 x = .ok b ∧
      (b.toNat : Int) = x.integerPart ∧ b.toBinary64.IsExactly x.integerPart) := by
  refine ⟨fun a => ⟨a.ofBinary64_toBinary64_eq_outOfRange_iff, fun hfits => ?_,
    a.ofBinary32_toBinary32_eq_infinite_iff⟩, Int128.ofBinary64_toBinary64_eq_outOfRange_iff,
    fun x => UInt128.ofBinary64_of_isWithin⟩
  obtain ⟨b, hb, hvalue⟩ := UInt128.exists_ofBinary64_toBinary64 hfits
  refine ⟨b, hb, ?_⟩
  split
  · rename_i hdigits
    have hexact : roundTo binary64.precision a.toNat = a.toNat :=
      roundTo_eq_self (by decide) (UInt128.hasSignificand_toNat hdigits)
    exact UInt128.ext_toNat (hvalue.trans hexact)
  · rename_i hdigits
    have hlong : binary64.precision < bitLength a.toNat := by
      have hwidth := a.bitWidth_eq
      change 53 < _
      omega
    rw [hvalue, a.bitWidth_eq]
    exact natAbs_roundTo_sub_le hlong

end TwoLimb
