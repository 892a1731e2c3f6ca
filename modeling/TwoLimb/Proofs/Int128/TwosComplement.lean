/-
# Two's complement

A signed value is the value of its bits, reduced into the signed range. Reduction is
the balanced remainder of the integers, `Int.bmod`, so operations on the bits modulo
`2^128` are operations on the signed values followed by one reduction. The magnitude of
a signed value always fits its bits, that of the least value included.
-/

import TwoLimb.Int128.Basic
import TwoLimb.Proofs.UInt128.Arithmetic

namespace TwoLimb.Int128

/-- The integers that signed values stand for. -/
def InRange (n : Int) : Prop := -2 ^ 127 ≤ n ∧ n < 2 ^ 127

instance (n : Int) : Decidable (InRange n) := inferInstanceAs (Decidable (_ ∧ _))

/-- Reduction leaves the signed range as it is. -/
theorem bmod_of_inRange {n : Int} (hrange : InRange n) : n.bmod (2 ^ 128) = n := by
  obtain ⟨hlower, hupper⟩ := hrange
  exact Int.bmod_eq_of_le_mul_two (by omega) (by omega)

theorem toInt_eq_bmod (a : Int128) : a.toInt = (a.bits.toNat : Int).bmod (2 ^ 128) := by
  have hlt := a.bits.toNat_lt
  rw [toInt, Int.bmod]
  split <;> split <;> omega

/-- Bits whose value is congruent to an integer stand for the integer reduced. -/
theorem toInt_eq_bmod_of_emod {a : Int128} {n : Int}
    (hbits : (a.bits.toNat : Int) = n % 2 ^ 128) : a.toInt = n.bmod (2 ^ 128) := by
  rw [toInt_eq_bmod, hbits]
  exact Int.emod_bmod n (2 ^ 128)

theorem toInt_add (a b : Int128) : (a + b).toInt = (a.toInt + b.toInt).bmod (2 ^ 128) := by
  have hbits : ((a + b).bits.toNat : Int) = ((a.bits.toNat : Int) + b.bits.toNat) % 2 ^ 128 := by
    have hsum : (a + b).bits = a.bits + b.bits := rfl
    rw [hsum, UInt128.toNat_add]
    omega
  rw [toInt_eq_bmod_of_emod hbits, a.toInt_eq_bmod, b.toInt_eq_bmod, Int.bmod_add_bmod,
    Int.add_bmod_bmod]

theorem toInt_sub (a b : Int128) : (a - b).toInt = (a.toInt - b.toInt).bmod (2 ^ 128) := by
  have hbits : ((a - b).bits.toNat : Int) = ((a.bits.toNat : Int) - b.bits.toNat) % 2 ^ 128 := by
    have hdifference : (a - b).bits = a.bits - b.bits := rfl
    have hb := b.bits.toNat_lt
    rw [hdifference, UInt128.toNat_sub]
    omega
  rw [toInt_eq_bmod_of_emod hbits, a.toInt_eq_bmod, b.toInt_eq_bmod, Int.bmod_sub_bmod,
    Int.sub_bmod_bmod]

theorem toInt_mul (a b : Int128) : (a * b).toInt = (a.toInt * b.toInt).bmod (2 ^ 128) := by
  have hbits : ((a * b).bits.toNat : Int) = ((a.bits.toNat : Int) * b.bits.toNat) % 2 ^ 128 := by
    have hproduct : (a * b).bits.toNat = a.bits.toNat * b.bits.toNat % 2 ^ 128 :=
      Engine.exact_portable.mul a.bits b.bits
    rw [hproduct, Int.natCast_emod, Int.natCast_mul]
    rfl
  rw [toInt_eq_bmod_of_emod hbits, a.toInt_eq_bmod, b.toInt_eq_bmod, Int.bmod_mul_bmod,
    Int.mul_bmod_bmod]

theorem toInt_neg (a : Int128) : (-a).toInt = (-a.toInt).bmod (2 ^ 128) := by
  have hbits : ((-a).bits.toNat : Int) = -(a.bits.toNat : Int) % 2 ^ 128 := by
    have hnegation : (-a).bits = -a.bits := rfl
    have ha := a.bits.toNat_lt
    rw [hnegation, UInt128.toNat_neg]
    omega
  rw [toInt_eq_bmod_of_emod hbits, a.toInt_eq_bmod, Int.bmod_neg_bmod]

@[simp]
theorem toInt_min : min.toInt = -2 ^ 127 := by decide

@[simp]
theorem toInt_max : max.toInt = 2 ^ 127 - 1 := by decide

@[simp]
theorem toInt_zero : zero.toInt = 0 := by decide

@[simp]
theorem toInt_one : one.toInt = 1 := by decide

@[simp]
theorem toInt_negOne : negOne.toInt = -1 := by decide

theorem isNegative_eq_decide (a : Int128) : a.isNegative = decide (a.toInt < 0) :=
  Bool.eq_iff_iff.mpr (a.isNegative_iff_toInt_neg.trans decide_eq_true_iff.symm)

/-- The unsigned magnitude is the absolute value. -/
theorem toNat_unsignedAbs (a : Int128) : a.unsignedAbs.toNat = a.toInt.natAbs := by
  have hlt := a.bits.toNat_lt
  have hsign := a.isNegative_iff
  rw [unsignedAbs, toInt]
  by_cases hnegative : a.isNegative = true
  · have hlarge := hsign.mp hnegative
    rw [if_pos hnegative, UInt128.toNat_neg, if_neg (by omega)]
    omega
  · have hsmall : a.bits.toNat < 2 ^ 127 := Nat.lt_of_not_le (mt hsign.mpr hnegative)
    rw [if_neg hnegative, if_pos hsmall]
    omega

/-- A signed value is its magnitude with its sign. -/
theorem toInt_eq_magnitude (a : Int128) :
    a.toInt = if a.isNegative = true then -(a.unsignedAbs.toNat : Int)
      else a.unsignedAbs.toNat := by
  rw [toNat_unsignedAbs, isNegative_eq_decide]
  by_cases hnegative : a.toInt < 0
  · rw [if_pos (decide_eq_true hnegative)]
    omega
  · rw [if_neg (by simpa using hnegative)]
    omega

theorem toInt_mk_neg (a : UInt128) : toInt ⟨-a⟩ = (-(a.toNat : Int)).bmod (2 ^ 128) := by
  have hnegation := toInt_neg ⟨a⟩
  rw [toInt_eq_bmod ⟨a⟩, Int.bmod_neg_bmod] at hnegation
  exact hnegation

theorem bits_inj {a b : Int128} : a.bits = b.bits ↔ a = b :=
  ⟨congrArg Int128.mk, congrArg Int128.bits⟩

theorem equals_iff (a b : UInt128) : a.equals b = true ↔ a = b := by
  cases a
  cases b
  simp [UInt128.equals]

theorem eq_min_iff (a : Int128) : a = min ↔ a.toInt = -2 ^ 127 := by
  rw [← toInt_inj, toInt_min]

end TwoLimb.Int128
