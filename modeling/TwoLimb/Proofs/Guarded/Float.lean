/-
# Guarded conversions from and to floats

At most 64 bits lie below the topmost 64, so the mask for them is a shift by less than 64
or the full limb. The exponent of a float below `2^128` is at most 75 above that of its
significand, which bounds the shift of the pair, and a float that is not below one has an
exponent at least 52 below, which bounds the shift of the limb.

A conversion asserts once more what its refusals have established. For the 32-bit formats
this depends on the conversion into the wide format being exact, down to the negative zero.
-/

import TwoLimb.Proofs.Float.Range
import TwoLimb.Proofs.Guarded.Unsigned

namespace TwoLimb

open BinaryFormat

namespace BinaryFloat

instance {f : BinaryFormat} (x : BinaryFloat f) (lower upper : Int) :
    Decidable (x.IsWithin lower upper) :=
  decidable_of_iff
    (x.isNaN = false ∧ x.isInfinite = false ∧ ¬x.LtInt lower ∧ x.LtInt upper)
    ⟨fun ⟨hnumber, hfinite, hlower, hupper⟩ => ⟨hnumber, hfinite, hlower, hupper⟩,
      fun hx => ⟨hx.notNaN, hx.finite, hx.lower, hx.upper⟩⟩

end BinaryFloat

/-- The exponent field of a float below `2^128`. -/
theorem UInt128.exponentField_lt {x : Binary64}
    (hfits : x.units < 2 ^ 128 * 2 ^ binary64.unitExponent) : x.pattern / 2 ^ 52 < 1151 := by
  by_cases hfield : x.pattern / 2 ^ 52 = 0
  · omega
  · have hunits : x.units = (2 ^ 52 + x.pattern % 2 ^ 52) * 2 ^ (x.pattern / 2 ^ 52 - 1) :=
      units_of_le_exponent (f := binary64) (Nat.pos_of_ne_zero hfield)
    have hle : 2 ^ 52 * 2 ^ (x.pattern / 2 ^ 52 - 1) ≤ x.units := by
      rw [hunits]
      exact Nat.mul_le_mul_right _ (Nat.le_add_right _ _)
    have hlt := Nat.lt_of_le_of_lt hle hfits
    rw [← Nat.pow_add, ← Nat.pow_add, Nat.pow_lt_pow_iff_right (by decide),
      unitExponent_binary64] at hlt
    omega

namespace Guarded

/-! ### From integers -/

/-- The topmost limb of a value with the mark for what is lost below. -/
def topLimb (a : UInt128) : Guarded (Limb × Nat) := do
  let width ← bitWidth a
  if width ≤ Limb.bits then .ok (a.low, 0)
  else
    let discarded ← difference width Limb.bits
    let top ← shiftBy a .right (.word (.ofNat discarded))
    let mask ← (if discarded ≥ Limb.bits then .ok Limb.max else lowMask discarded)
    .ok (top.low ||| .ofFlag (a.low &&& mask != 0), discarded)

theorem topLimb_eq (a : UInt128) : topLimb a = .ok a.topLimb := by
  unfold topLimb UInt128.topLimb
  rw [bitWidth_eq, ok_bind]
  simp only
  by_cases hnarrow : a.bitWidth ≤ Limb.bits
  · rw [if_pos hnarrow, if_pos hnarrow]
  · have hwidth : a.bitWidth ≤ 128 := Nat.sub_le _ _
    have hdiscarded : a.bitWidth - Limb.bits < 128 := by
      simp only [Limb.bits]
      omega
    rw [if_neg hnarrow, if_neg hnarrow, difference_eq (Nat.le_of_not_le hnarrow), ok_bind,
      shiftBy_word_eq a .right hdiscarded, ok_bind]
    by_cases hfull : a.bitWidth - Limb.bits ≥ Limb.bits
    · rw [if_pos hfull, if_pos hfull, ok_bind]
      rfl
    · rw [if_neg hfull, if_neg hfull, lowMask_eq (Nat.lt_of_not_le hfull), ok_bind]
      rfl

/-- The float `2^exponent`, put together from its exponent field. -/
def powerOfTwo (exponent : Nat) : Guarded Binary64 := do
  let biased ← sum 32 1023 exponent
  let pattern ← limbShl (.ofNat biased) 52
  .ok (.ofBits pattern)

theorem powerOfTwo_eq {exponent : Nat} (hexponent : exponent < 1024) :
    powerOfTwo exponent = .ok (.powerOfTwo exponent) := by
  rw [powerOfTwo, sum_eq (by omega), ok_bind, limbShl_eq _ (by decide), ok_bind]
  rfl

/-- The exponents of the discarded bits are far from the end of the exponent field. -/
theorem powerOfTwo_topLimb (a : UInt128) :
    powerOfTwo a.topLimb.2 = .ok (.powerOfTwo a.topLimb.2) :=
  powerOfTwo_eq (Nat.lt_of_le_of_lt a.topLimb_snd_le (by decide))

/-- The nearest float, by way of the power of two that is put together for it. -/
def toBinary64 (a : UInt128) : Guarded Binary64 := do
  let (top, discarded) ← topLimb a
  let factor ← powerOfTwo discarded
  .ok ((BinaryFloat.ofNat top.toNat).mul factor)

theorem toBinary64_eq (a : UInt128) : toBinary64 a = .ok a.toBinary64 := by
  rw [toBinary64, topLimb_eq, ok_bind]
  simp only [powerOfTwo_topLimb, ok_bind]
  rfl

def toBinary32 (a : UInt128) : Guarded Binary32 := do
  let (top, discarded) ← topLimb a
  let factor ← powerOfTwo discarded
  let rounded : Binary32 := .ofNat top.toNat
  .ok (((rounded.convert .binary64).mul factor).convert .binary32)

theorem toBinary32_eq (a : UInt128) : toBinary32 a = .ok a.toBinary32 := by
  rw [toBinary32, topLimb_eq, ok_bind]
  simp only [powerOfTwo_topLimb, ok_bind]
  rfl

/-! ### To integers -/

/-- The integer part of a float, read off its fields. The exponent of the significand is a
signed word, and its sign decides the direction of the shift. -/
def truncate (x : Binary64) : Guarded UInt128 := do
  let bits : Limb := UInt64.ofBitVec x.bits
  let field ← limbShr bits 52
  let biased := (field &&& 0x7ff).toNat
  if biased < 1023 then .ok .zero
  else
    let mask ← lowMask 52
    let leading ← limbShl 1 52
    let significand := (bits &&& mask) ||| leading
    let exponent ← int32 (biased - 1075)
    if 0 ≤ exponent then shiftBy (.ofLimb significand) .left (.word (.ofNat exponent.toNat))
    else
      let distance ← int32 (-exponent)
      let shifted ← limbShr significand distance.toNat
      .ok (.ofLimb shifted)

theorem truncate_eq {x : Binary64} (hx : x.IsWithin 0 (2 ^ 128)) :
    truncate x = .ok (UInt128.truncateBinary64 x) := by
  have hfield := UInt128.exponentField_lt hx.units_lt
  have hexponent := toNat_exponentField (UInt64.ofBitVec x.bits)
  have hpattern : (UInt64.ofBitVec x.bits).toNat % 2 ^ 63 = x.pattern := rfl
  rw [hpattern] at hexponent
  unfold truncate UInt128.truncateBinary64
  simp only [limbShr_eq _ (show 52 < 64 by decide), ok_bind]
  generalize (Limb.shr (UInt64.ofBitVec x.bits) 52 &&& 0x7ff).toNat = biased at *
  by_cases hsmall : biased < 1023
  · rw [if_pos hsmall, if_pos hsmall]
  · rw [if_neg hsmall, if_neg hsmall, lowMask_eq (by decide), ok_bind,
      limbShl_eq 1 (by decide), ok_bind, int32_eq (by omega), ok_bind]
    by_cases hbeyond : biased ≥ 1075
    · have hplaces : ((biased : Int) - 1075).toNat = biased - 1075 := by omega
      rw [if_pos hbeyond, if_pos (by omega), hplaces, shiftBy_word_eq _ _ (by omega)]
      rfl
    · have hdistance : (-((biased : Int) - 1075)).toNat = 1075 - biased := by omega
      rw [if_neg hbeyond, if_neg (by omega), int32_eq (by omega), ok_bind, hdistance,
        limbShr_eq _ (by omega), ok_bind]
      rfl

/-- The integer part with its assertion about the float. -/
def truncateUnchecked (x : Binary64) : Guarded UInt128 := do
  require (x.IsWithin 0 (2 ^ 128)) .assertion
  truncate x

theorem truncateUnchecked_eq {x : Binary64} (hx : x.IsWithin 0 (2 ^ 128)) :
    truncateUnchecked x = .ok (UInt128.truncateBinary64 x) := by
  rw [truncateUnchecked, require_eq hx, ok_bind, truncate_eq hx]

def ofBinary64 (x : Binary64) : Guarded (Except FloatError UInt128) :=
  if x.isNaN then .ok (.error .notANumber)
  else if x.isInfinite then .ok (.error .infinite)
  else if x.LtInt 0 then .ok (.error .negative)
  else if ¬x.LtInt (2 ^ 128) then .ok (.error .outOfRange)
  else do
    let a ← truncateUnchecked x
    .ok (.ok a)

theorem ofBinary64_eq (x : Binary64) : ofBinary64 x = .ok (UInt128.ofBinary64 x) := by
  unfold ofBinary64 UInt128.ofBinary64
  split
  · rfl
  · rename_i hnumber
    split
    · rfl
    · rename_i hfinite
      split
      · rfl
      · rename_i hlower
        split
        · rfl
        · rename_i hupper
          have hx : x.IsWithin 0 (2 ^ 128) :=
            ⟨Bool.eq_false_iff.mpr hnumber, Bool.eq_false_iff.mpr hfinite, hlower,
              Decidable.not_not.mp hupper⟩
          rw [truncateUnchecked_eq hx, ok_bind]

def ofBinary32 (x : Binary32) : Guarded (Except FloatError UInt128) :=
  if x.isNaN then .ok (.error .notANumber)
  else if x.isInfinite then .ok (.error .infinite)
  else if x.LtInt 0 then .ok (.error .negative)
  else do
    let a ← truncateUnchecked (x.convert .binary64)
    .ok (.ok a)

theorem ofBinary32_eq (x : Binary32) : ofBinary32 x = .ok (UInt128.ofBinary32 x) := by
  unfold ofBinary32 UInt128.ofBinary32
  split
  · rfl
  · rename_i hnumber
    split
    · rfl
    · rename_i hfinite
      split
      · rfl
      · rename_i hlower
        have hx := BinaryFloat.isWithin_convert (Bool.eq_false_iff.mpr hnumber)
          (Bool.eq_false_iff.mpr hfinite) hlower
        rw [truncateUnchecked_eq hx, ok_bind]

end Guarded

end TwoLimb
