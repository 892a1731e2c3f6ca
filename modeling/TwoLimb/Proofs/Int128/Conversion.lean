/-
# Exact conversions of signed integers

A signed value is its low limb and as many whole limbs as its high limb counts, which may be
a negative number. A limb with a sign is made of the same parts: its bits, and minus one
whole limb where the sign is set. So a value is that of its low limb, read with the sign,
exactly when its high limb is the sign filled in. The test of the signed types compares these
two limbs first, and everything else about the value is then read off the low one.

The last theorem gathers the conversions of both 128-bit types, to and from the machine's
types and between each other.
-/

import TwoLimb.Proofs.UInt128.Conversion
import TwoLimb.Int128.Conversion

namespace TwoLimb

namespace Limb

theorem toInt_toInt64 (x : Limb) :
    x.toInt64.toInt = if x.toNat < 2 ^ 63 then (x.toNat : Int) else x.toNat - 2 ^ 64 := by
  rw [← Int64.toInt_toBitVec, UInt64.toBitVec_toInt64, BitVec.toInt_eq_toNat_cond,
    UInt64.toNat_toBitVec]
  split <;> split <;> omega

/-- A signed limb is its bits above the limbs that its sign counts. -/
theorem toInt_eq_sign (x : Limb) :
    x.toInt64.toInt = (x.toInt64 >>> 63).toInt * 2 ^ 64 + x.toNat := by
  have hx := x.toNat_lt
  have hsign : (x.toInt64 >>> 63).toInt = x.toInt64.toInt / 2 ^ 63 := by
    rw [← Int64.toInt_toBitVec, Int64.toBitVec_shiftRight, BitVec.toInt_sshiftRight']
    exact Int.shiftRight_eq_div_pow _ 63
  rw [hsign, toInt_toInt64]
  split <;> omega

end Limb

namespace Int128

theorem toInt_eq_parts (a : Int128) : a.toInt = a.high.toInt * 2 ^ 64 + a.low.toNat := by
  have hhigh := a.bits.high.toNat_lt
  have hlow := a.bits.low.toNat_lt
  have hparts : a.bits.toNat = a.bits.high.toNat * 2 ^ 64 + a.bits.low.toNat := rfl
  rw [toInt, high, low, Limb.toInt_toInt64]
  split <;> split <;> omega

theorem toInt_ofParts (high : Int64) (low : Limb) :
    (ofParts high low).toInt = high.toInt * 2 ^ 64 + low.toNat := by
  rw [toInt_eq_parts]
  rfl

theorem toInt_injective : Function.Injective toInt := fun _ _ => toInt_inj.mp

theorem inRange_iff_exists (n : Int) : InRange n ↔ ∃ a : Int128, a.toInt = n := by
  constructor
  · rintro ⟨hlower, hupper⟩
    refine ⟨ofInt n, ?_⟩
    rw [toInt_ofInt]
    omega
  · rintro ⟨a, rfl⟩
    exact a.toInt_bounds

theorem inRange_iff_exists_wide (n : Int) : InRange n ↔ ∃ w : BitVec 128, w.toInt = n := by
  constructor
  · intro hrange
    refine ⟨BitVec.ofInt 128 n, ?_⟩
    rw [BitVec.toInt_ofInt]
    exact bmod_of_inRange hrange
  · rintro ⟨w, rfl⟩
    exact ⟨w.le_toInt, w.toInt_lt⟩

def reading : IntegerReading Int128 where
  value := toInt
  Holds := InRange
  value_injective := toInt_injective
  holds_iff_exists := inRange_iff_exists

/-- Words of 128 bits in two's complement. -/
def wideReading : IntegerReading (BitVec 128) where
  value := BitVec.toInt
  Holds := InRange
  value_injective _ _ := BitVec.toInt_inj.mp
  holds_iff_exists := inRange_iff_exists_wide

/-- The conversions of signed integers. Those from machine integers refuse nothing. -/
def conversions : ConversionFamily Int128 where
  ofFixedWidth t x := .ok (ofFixedWidth t x)
  toFixedWidth := toFixedWidth
  truncate := truncate
  ofFlag := ofFlag
  ofWide := ofWide
  toWide := toWide

theorem toInt_truncate (t : FixedWidth) (a : Int128) :
    t.toInt (a.truncate t) = t.reduce a.toInt := by
  rw [truncate, t.toInt_truncate]
  apply t.reduce_congr_limb
  rw [toInt_eq_parts]
  omega

/-- A machine integer keeps its value above copies of its sign, or above zeros. -/
theorem toInt_ofFixedWidth (t : FixedWidth) (x : t.Value) :
    (ofFixedWidth t x).toInt = t.toInt x := by
  obtain ⟨hleast, hgreatest⟩ := t.holds_toInt x
  rw [ofFixedWidth]
  by_cases hsigned : t.signed = true
  · rw [if_pos hsigned, toInt_ofParts, ← Limb.toInt_eq_sign, t.toInt_widen hsigned]
  · have hwide := t.greatest_lt
    rw [t.least_of_unsigned hsigned] at hleast
    rw [if_neg hsigned, toInt_ofParts, t.toNat_widen, Int64.toInt_zero, Int.zero_mul,
      Int.zero_add]
    exact Int.emod_eq_of_lt hleast (by omega)

theorem isExact_ofFixedWidth (t : FixedWidth) :
    IsExactConversion t.reading reading (conversions.ofFixedWidth t) := by
  apply isExact_of_test (fun _ => False) (ofFixedWidth t)
  case hconvert => exact fun x => rfl
  case hrefused =>
    intro x
    obtain ⟨hleast, hgreatest⟩ := t.holds_toInt x
    have hlower := t.le_least
    have hupper := t.greatest_lt
    refine iff_of_false id (not_not.mpr ?_)
    change InRange (t.toInt x)
    rw [InRange]
    omega
  case himage => exact fun x _ => toInt_ofFixedWidth t x

/-- A value fits a signed type when it is its low limb, read with the sign, and that fits. -/
theorem isExact_toFixedWidth_of_signed (t : FixedWidth) (hsigned : t.signed = true) :
    IsExactConversion reading t.reading (toFixedWidth t) := by
  have hlower := t.le_least
  have hupper := t.greatest_lt_of_signed hsigned
  apply isExact_of_test (fun a : Int128 => a.high ≠ a.low.toInt64 >>> 63 ∨
    a.low.toInt64.toInt < t.least ∨ t.greatest < a.low.toInt64.toInt) (truncate t)
  case hconvert => exact fun a => if_pos hsigned
  case hrefused =>
    intro a
    have hparts := a.toInt_eq_parts
    have hlow := Limb.toInt_eq_sign a.low
    have hleast := a.low.toInt64.le_toInt
    have hgreatest := a.low.toInt64.toInt_lt
    -- Where the high limbs differ, the value is a whole limb or more away from the low one,
    -- and that is beyond every signed type.
    change _ ↔ ¬t.Holds a.toInt
    rw [ne_eq, ← Int64.toInt_inj, FixedWidth.Holds]
    omega
  case himage =>
    intro a hholds
    exact (toInt_truncate t a).trans (t.reduce_of_holds hholds)

/-- A value fits an unsigned type when its high limb is zero and the low one fits. -/
theorem isExact_toFixedWidth_of_unsigned (t : FixedWidth) (hsigned : ¬t.signed = true) :
    IsExactConversion reading t.reading (toFixedWidth t) := by
  have hleast := t.least_of_unsigned hsigned
  have hupper := t.greatest_lt
  apply isExact_of_test (fun a => a.high ≠ 0 ∨ t.greatest < a.low.toNat) (truncate t)
  case hconvert => exact fun a => if_neg hsigned
  case hrefused =>
    intro a
    have hparts := a.toInt_eq_parts
    have hlow := a.low.toNat_lt
    change _ ↔ ¬t.Holds a.toInt
    rw [ne_eq, ← Int64.toInt_inj, Int64.toInt_zero, FixedWidth.Holds]
    omega
  case himage =>
    intro a hholds
    exact (toInt_truncate t a).trans (t.reduce_of_holds hholds)

theorem toInt_ofWide (w : BitVec 128) : (ofWide w).toInt = w.toInt := by
  rw [toInt_eq_bmod, ofWide, UInt128.toNat_ofWide, BitVec.toInt_eq_toNat_bmod]

theorem toInt_toWide (a : Int128) : a.toWide.toInt = a.toInt := by
  rw [toInt_eq_bmod, toWide, BitVec.toInt_eq_toNat_bmod, UInt128.toNat_toWide]

theorem conversions_agreeWithIntegers : conversions.AgreesWithIntegers reading wideReading := by
  apply ConversionFamily.agreesWithIntegers
  case hin => exact isExact_ofFixedWidth
  case hout =>
    intro t
    by_cases hsigned : t.signed = true
    · exact isExact_toFixedWidth_of_signed t hsigned
    · exact isExact_toFixedWidth_of_unsigned t hsigned
  case htruncate => exact toInt_truncate
  case hflag =>
    intro flag
    cases flag <;> decide
  case hofWide => exact toInt_ofWide
  case htoWide => exact toInt_toWide

/-! ### Between signed and unsigned integers -/

/-- The lower half of the unsigned values have the bits of a signed one. -/
theorem isExact_ofUInt128 : IsExactConversion UInt128.reading reading ofUInt128 := by
  apply isExact_of_test (fun a => a.high &&& Limb.signBit ≠ 0) Int128.mk
  case hconvert => exact fun a => rfl
  case hrefused =>
    intro a
    have hlow := a.low.toNat_lt
    change _ ↔ ¬InRange a.toNat
    rw [Limb.and_signBit_ne_zero_iff, InRange, UInt128.toNat]
    omega
  case himage =>
    rintro a ⟨-, hupper⟩
    exact if_pos (Int.ofNat_lt.mp hupper)

theorem isExact_toUInt128 : IsExactConversion reading UInt128.reading toUInt128 := by
  apply isExact_of_test (fun a => a.isNegative = true) bits
  case hconvert => exact fun a => rfl
  case hrefused =>
    intro a
    have ha := a.toInt_bounds
    change _ ↔ ¬UInt128.InRange a.toInt
    rw [isNegative_iff_toInt_neg, UInt128.InRange]
    omega
  case himage =>
    rintro a ⟨hnonneg, -⟩
    have ha := a.bits.toNat_lt
    change (a.bits.toNat : Int) = a.toInt
    change 0 ≤ a.toInt at hnonneg
    by_cases hsmall : a.bits.toNat < 2 ^ 127
    · rw [toInt, if_pos hsmall]
    · rw [toInt, if_neg hsmall] at hnonneg
      omega

/-- A word whose sign is clear is the unsigned value of its bits. -/
theorem isExact_ofSignedWide :
    IsExactConversion wideReading UInt128.reading UInt128.ofSignedWide := by
  apply isExact_of_test (fun w => w.msb = true) UInt128.ofWide
  case hconvert => exact fun w => rfl
  case hrefused =>
    intro w
    have hupper : w.toInt < 2 ^ 127 := w.toInt_lt
    change _ ↔ ¬UInt128.InRange w.toInt
    rw [BitVec.msb_eq_toInt, decide_eq_true_iff, UInt128.InRange]
    omega
  case himage =>
    rintro w ⟨hnonneg, -⟩
    have hclear : w.msb = false := by
      rw [BitVec.msb_eq_toInt]
      exact decide_eq_false (Int.not_lt.mpr hnonneg)
    change ((UInt128.ofWide w).toNat : Int) = w.toInt
    rw [UInt128.toNat_ofWide, BitVec.toInt_eq_toNat_of_msb hclear]

/-- Every conversion keeps the integer it is given, and is refused exactly where the target
does not hold it. What is refused on the way into the unsigned type are the negative
integers; the signed type refuses no machine integer. -/
theorem conversions_keep_integers :
    UInt128.conversions.AgreesWithIntegers UInt128.reading UInt128.wideReading ∧
      conversions.AgreesWithIntegers reading wideReading ∧
      (∀ (t : FixedWidth) (x : t.Value), (ofFixedWidth t x).toInt = t.toInt x) ∧
      IsExactConversion UInt128.reading reading ofUInt128 ∧
      IsExactConversion reading UInt128.reading toUInt128 ∧
      (∀ (a : UInt128) (b : Int128), ofUInt128 a = .ok b ↔ toUInt128 b = .ok a) ∧
      IsExactConversion wideReading UInt128.reading UInt128.ofSignedWide ∧
      (∀ (t : FixedWidth) (x : t.Value),
        UInt128.ofFixedWidth t x = .error .outOfRange ↔ t.toInt x < 0) ∧
      ∀ w : BitVec 128, UInt128.ofSignedWide w = .error .outOfRange ↔ w.toInt < 0 := by
  refine ⟨UInt128.conversions_agreeWithIntegers, conversions_agreeWithIntegers,
    toInt_ofFixedWidth, isExact_ofUInt128, isExact_toUInt128,
    isExact_ofUInt128.round_trip isExact_toUInt128, isExact_ofSignedWide, ?_, ?_⟩
  · exact fun t x => refused_iff
  · intro w
    have hsign : w.msb = true ↔ w.toInt < 0 := by rw [BitVec.msb_eq_toInt, decide_eq_true_iff]
    exact refused_iff.trans hsign

end Int128

end TwoLimb
