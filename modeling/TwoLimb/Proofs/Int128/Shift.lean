/-
# Shift operators of signed integers

A shift to the left multiplies and reduces, as it does for the bits. A shift to the right
divides and rounds down, towards less: for a negative value the complement is divided,
which is not negative, and the complement of the quotient is the quotient rounded down.
-/

import TwoLimb.Int128.Shift
import TwoLimb.Proofs.Int128.TwosComplement
import TwoLimb.Proofs.UInt128.Bits
import TwoLimb.Proofs.UInt128.Shift

namespace TwoLimb.Int128

/-- The complement counts down from minus one. -/
theorem toInt_complement (a : Int128) : (~~~a).toInt = -1 - a.toInt := by
  have hbits : (~~~a).bits.toNat = 2 ^ 128 - 1 - a.bits.toNat := UInt128.toNat_complement a.bits
  have hlt := a.bits.toNat_lt
  rw [toInt, toInt, hbits]
  split <;> split <;> omega

/-- The bits of a signed value are its integer modulo `2^128`. -/
theorem toNat_bits_eq_emod (a : Int128) : (a.bits.toNat : Int) = a.toInt % 2 ^ 128 := by
  have hlt := a.bits.toNat_lt
  rw [toInt]
  split <;> omega

theorem toInt_mk_shl (a : Int128) {places : Nat} (hplaces : places < 128) :
    toInt ⟨a.bits.shl places⟩ = (a.toInt * 2 ^ places).bmod (2 ^ 128) := by
  apply toInt_eq_bmod_of_emod
  have hshift := a.bits.toNat_shift .left hplaces
  rw [Direction.exact, a.toNat_bits_eq_emod, Int.mul_emod, Int.emod_emod, ← Int.mul_emod] at hshift
  exact hshift

/-- A value that is not negative is divided as its bits are. -/
theorem toInt_mk_shr {a : Int128} (ha : 0 ≤ a.toInt) {places : Nat} (hplaces : places < 128) :
    toInt ⟨a.bits.shr places⟩ = a.toInt / 2 ^ places := by
  have hvalue : a.toInt = a.bits.toNat := by
    have hlt := a.bits.toNat_lt
    rw [toInt] at ha ⊢
    split at ha <;> split <;> omega
  have hbounds := a.toInt_bounds
  have hle : a.bits.toNat / 2 ^ places ≤ a.bits.toNat := Nat.div_le_self _ _
  have hsmall : (a.bits.shr places).toNat < 2 ^ 127 := by
    rw [UInt128.toNat_shr a.bits hplaces]
    omega
  rw [toInt, if_pos hsmall, UInt128.toNat_shr a.bits hplaces, hvalue]
  push_cast
  rfl

/-- Rounding down is symmetric about minus one half. -/
theorem neg_one_sub_ediv (x : Int) {d : Int} (hd : 0 < d) : (-1 - x) / d = -1 - x / d := by
  have hdivision := Int.mul_ediv_add_emod x d
  have hnonneg := Int.emod_nonneg x (Int.ne_of_gt hd)
  have hlt := Int.emod_lt_of_pos x hd
  have hvalue : d - 1 - x % d + d * (-1 - x / d) = -1 - x := by
    rw [Int.mul_sub, Int.mul_neg_one]
    omega
  exact ((Int.ediv_emod_unique hd).mpr ⟨hvalue, by omega, by omega⟩).1

/-- A negative value is divided through its complement. -/
theorem toInt_complement_shr {a : Int128} (ha : a.toInt < 0) {places : Nat}
    (hplaces : places < 128) :
    toInt ⟨~~~((~~~a.bits).shr places)⟩ = a.toInt / 2 ^ places := by
  have hcomplement := toInt_complement a
  have hquotient := toInt_mk_shr (a := ~~~a) (by omega) hplaces
  have hresult := toInt_complement ⟨(~~~a).bits.shr places⟩
  calc
    toInt ⟨~~~((~~~a.bits).shr places)⟩ = -1 - toInt ⟨(~~~a).bits.shr places⟩ := hresult
    _ = -1 - (-1 - a.toInt) / 2 ^ places := by rw [hquotient, hcomplement]
    _ = a.toInt / 2 ^ places := by
      rw [neg_one_sub_ediv _ (Int.pow_pos (by decide))]
      omega

/-- A quotient by a power of two stays in range. -/
theorem inRange_ediv (a : Int128) (places : Nat) : InRange (a.toInt / 2 ^ places) := by
  have hbounds := a.toInt_bounds
  have hpower : (0 : Int) < 2 ^ places := Int.pow_pos (by decide)
  constructor
  · apply Int.le_ediv_of_mul_le hpower
    omega
  · apply Int.ediv_lt_of_lt_mul hpower
    omega

/-- A shift to the right divides and rounds down, whatever the sign. -/
theorem toInt_shr_filled (a : Int128) {places : Nat} (hplaces : places < 128) :
    toInt (if a.isNegative = true then ⟨~~~((~~~a.bits).shr places)⟩
      else ⟨a.bits.shr places⟩) = a.toInt / 2 ^ places := by
  by_cases hsign : a.isNegative = true
  · rw [if_pos hsign]
    exact toInt_complement_shr (a.isNegative_iff_toInt_neg.mp hsign) hplaces
  · rw [if_neg hsign]
    exact toInt_mk_shr (Int.not_lt.mp (mt a.isNegative_iff_toInt_neg.mpr hsign)) hplaces

/-- A shift operator reduces the shifted integer, and faults for the amounts that an
unsigned one faults for, whatever the sign. -/
theorem map_toInt_shiftBy (a : Int128) (direction : Direction) (amount : ShiftCount) :
    (a.shiftBy direction amount).map toInt =
      (direction.exactBy a.toInt amount.toInt).map fun n => n.bmod (2 ^ 128) := by
  rw [Direction.map_exactBy]
  by_cases hamount : IsPlaces amount.toInt
  · have hplaces := hamount.toNat_lt
    rw [if_pos hamount]
    cases direction with
    | left =>
        rw [shiftBy, shlBy, UInt128.shiftBy_eq, if_pos hamount]
        exact congrArg Except.ok (toInt_mk_shl a hplaces)
    | right =>
        have hfilled := a.toInt_shr_filled hplaces
        rw [shiftBy, shrBy, UInt128.shiftBy_eq, UInt128.shiftBy_eq, if_pos hamount, if_pos hamount,
          Direction.exact, bmod_of_inRange (a.inRange_ediv _), ← hfilled]
        split <;> rfl
  · rw [if_neg hamount]
    cases direction with
    | left =>
        rw [shiftBy, shlBy, UInt128.shiftBy_eq, if_neg hamount]
        rfl
    | right =>
        rw [shiftBy, shrBy, UInt128.shiftBy_eq, UInt128.shiftBy_eq, if_neg hamount, if_neg hamount]
        split <;> rfl

end TwoLimb.Int128
