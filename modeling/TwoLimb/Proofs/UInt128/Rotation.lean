/-
# Rotations as turns of a cycle

The 128 places of a value, taken in a cycle, are the integers modulo 128. A rotation turns
that cycle: each digit moves on by the amount, and those that leave at one end come back at
the other. Of the two shifts that make a rotation, one brings the digits that stay in the
word and the other those that come around, and at no place do both have a digit.

Once the digits of a rotated value are known, the laws of rotations are those of adding and
subtracting modulo 128. They hold for all amounts, since an amount turns the cycle as its
remainder modulo 128 does.
-/

import Mathlib.Algebra.BigOperators.Fin
import Mathlib.Algebra.Group.Fin.Basic
import TwoLimb.Proofs.UInt128.BitQueries
import TwoLimb.Proofs.UInt128.ShiftFamily

namespace TwoLimb.UInt128

/-- The digit at a place of the cycle. -/
def digit (a : UInt128) (i : Fin 128) : Bool := a.toNat.testBit i

/-- The places by which an amount turns the cycle. -/
def turn (amount : UInt32) : Fin 128 := Fin.ofNat 128 amount.toNat

theorem ext_digit {a b : UInt128} (hdigits : ∀ i, a.digit i = b.digit i) : a = b :=
  ext_testBit fun i hi => hdigits ⟨i, hi⟩

theorem bit?_eq_digit (a : UInt128) (i : Fin 128) : a.bit? i = .ok (a.digit i) :=
  bit?_eq a i.isLt

theorem maskAmount_eq_turn (amount : UInt32) : maskAmount amount = turn amount :=
  maskAmount_eq amount

/-- The digits that are set, counted around the cycle. -/
theorem onesCount_eq_sum (a : UInt128) : a.onesCount = ∑ i : Fin 128, (a.digit i).toNat := by
  rw [onesCount_eq_card, support, Finset.card_filter, Finset.sum_range]
  apply Finset.sum_congr rfl
  intro i _
  rw [digit]
  cases a.toNat.testBit i <;> rfl

section Shifted

variable (a : UInt128) {places : Nat} (hplaces : places < 128) (i : Nat)

include hplaces

theorem testBit_toNat_shl :
    (a.shl places).toNat.testBit i =
      (decide (i < 128) && (decide (places ≤ i) && a.toNat.testBit (i - places))) := by
  rw [toNat_shl a hplaces, Nat.testBit_mod_two_pow, Nat.testBit_mul_two_pow]

theorem testBit_toNat_shr : (a.shr places).toNat.testBit i = a.toNat.testBit (i + places) := by
  rw [toNat_shr a hplaces, Nat.testBit_div_two_pow]

end Shifted

/-- A digit of a value rotated to the left is the one that many places before. -/
theorem digit_rotateLeft (a : UInt128) (amount : UInt32) (i : Fin 128) :
    (a.rotateLeft amount).digit i = a.digit (i - turn amount) := by
  have hi := i.isLt
  have hturn := (turn amount).isLt
  have hsource : (i - turn amount : Fin 128).val = (128 - (turn amount).val + i.val) % 128 :=
    Fin.val_sub i (turn amount)
  rw [digit, digit, hsource, rotateLeft, maskAmount_eq_turn]
  by_cases hzero : (turn amount).val = 0
  · rw [if_pos hzero, hzero]
    congr 1
    omega
  · have hrest : 128 - (turn amount).val < 128 := by omega
    rw [if_neg hzero, toNat_or, Nat.testBit_or, testBit_toNat_shl a hturn, bits,
      testBit_toNat_shr a hrest]
    -- Digits that stay come from the left shift, those that come around from the other.
    by_cases hstays : (turn amount).val ≤ i.val
    · have habove : a.toNat.testBit (i.val + (128 - (turn amount).val)) = false :=
        testBit_toNat_of_le a (by omega)
      rw [habove, Bool.or_false, decide_eq_true hi, decide_eq_true hstays, Bool.true_and,
        Bool.true_and]
      congr 1
      omega
    · rw [decide_eq_false hstays, Bool.false_and, Bool.and_false, Bool.false_or]
      congr 1
      omega

/-- An amount and what the word of 128 places lacks of it turn the cycle back to where it
was. -/
theorem turn_complement (amount : UInt32) : turn (128 - (amount &&& 127)) = -turn amount := by
  have hmask : (amount &&& 127).toNat = amount.toNat % 128 := maskAmount_eq amount
  have hle : (amount &&& 127) ≤ 128 := by
    rw [UInt32.le_iff_toNat_le, hmask]
    exact Nat.le_of_lt (Nat.mod_lt _ (by decide))
  apply Fin.ext
  rw [Fin.val_neg', turn, turn, Fin.val_ofNat, Fin.val_ofNat, UInt32.toNat_sub_of_le _ _ hle, hmask]
  rfl

theorem digit_rotateRight (a : UInt128) (amount : UInt32) (i : Fin 128) :
    (a.rotateRight amount).digit i = a.digit (i + turn amount) := by
  rw [rotateRight, digit_rotateLeft, turn_complement, sub_neg_eq_add]

/-- Amounts add around the cycle. -/
theorem turn_add (m n : UInt32) : turn ((m % 128 + n % 128) % 128) = turn m + turn n := by
  apply Fin.ext
  rw [Fin.val_add, turn, turn, turn, Fin.val_ofNat, Fin.val_ofNat, Fin.val_ofNat, UInt32.toNat_mod,
    UInt32.toNat_add, UInt32.toNat_mod, UInt32.toNat_mod]
  change ((m.toNat % 128 + n.toNat % 128) % 2 ^ 32 % 128) % 128 = _
  omega

/-! ### Laws of rotations -/

section Laws

variable (a : UInt128) (m n : UInt32)

theorem bit?_rotateLeft {i : Nat} (hi : i < 128) :
    (a.rotateLeft n).bit? ((i + n.toNat) % 128) = a.bit? i := by
  have hplace : ((i + n.toNat) % 128 : Nat) = (⟨i, hi⟩ + turn n : Fin 128).val := by
    rw [Fin.val_add, turn, Fin.val_ofNat, Nat.add_mod_mod]
  rw [hplace, bit?_eq_digit, digit_rotateLeft, add_sub_cancel_right]
  exact (bit?_eq_digit a ⟨i, hi⟩).symm

theorem rotateRight_rotateLeft : (a.rotateLeft n).rotateRight n = a := by
  apply ext_digit
  intro i
  rw [digit_rotateRight, digit_rotateLeft, add_sub_cancel_right]

theorem rotateLeft_rotateRight : (a.rotateRight n).rotateLeft n = a := by
  apply ext_digit
  intro i
  rw [digit_rotateLeft, digit_rotateRight, sub_add_cancel]

theorem rotateLeft_rotateLeft :
    (a.rotateLeft m).rotateLeft n = a.rotateLeft ((m % 128 + n % 128) % 128) := by
  apply ext_digit
  intro i
  rw [digit_rotateLeft, digit_rotateLeft, digit_rotateLeft, turn_add, sub_sub, add_comm]

theorem onesCount_rotateLeft : (a.rotateLeft n).onesCount = a.onesCount := by
  rw [onesCount_eq_sum, onesCount_eq_sum]
  simp only [digit_rotateLeft]
  exact (Equiv.subRight (turn n)).sum_comp fun i => (a.digit i).toNat

theorem onesCount_rotateRight : (a.rotateRight n).onesCount = a.onesCount := by
  rw [← onesCount_rotateLeft (a.rotateRight n) n, rotateLeft_rotateRight]

end Laws

/-- The rotation as an engine makes it, of its own two shifts. -/
def engineRotateLeft (engine : Engine) (a : UInt128) (amount : UInt32) : UInt128 :=
  let places := maskAmount amount
  if places = 0 then a else engine.shl a places ||| engine.shr a (bits - places)

/-- Whichever engine is selected, it rotates the same. -/
theorem engineRotateLeft_eq (strategy : Strategy) (a : UInt128) (amount : UInt32) :
    engineRotateLeft strategy.engine a amount = a.rotateLeft amount := by
  have hplaces := maskAmount_lt amount
  rw [engineRotateLeft, rotateLeft]
  by_cases hzero : maskAmount amount = 0
  · rw [if_pos hzero, if_pos hzero]
  · have hrest : bits - maskAmount amount < 128 :=
      Nat.sub_lt (by decide) (Nat.pos_of_ne_zero hzero)
    rw [if_neg hzero, if_neg hzero]
    exact congrArg₂ (· ||| ·) (engineShift_eq strategy a .left hplaces)
      (engineShift_eq strategy a .right hrest)

/-- Rotations are the cyclic group of 128 elements at work on the digits. A rotation to the
left moves every digit on by its amount, one to the right undoes it, one after another is
the rotation by the sum of their amounts, and none changes the number of digits that are
set. -/
theorem rotations_turn_cycle (a : UInt128) (m n : UInt32) :
    (∀ i < 128, a.bit? i = .ok (a.toNat.testBit i) ∧
        (a.rotateLeft n).bit? ((i + n.toNat) % 128) = .ok (a.toNat.testBit i)) ∧
      (a.rotateLeft n).rotateRight n = a ∧
      (a.rotateRight n).rotateLeft n = a ∧
      (a.rotateLeft m).rotateLeft n = a.rotateLeft ((m % 128 + n % 128) % 128) ∧
      (a.rotateLeft n).onesCount = a.onesCount ∧
      (a.rotateRight n).onesCount = a.onesCount ∧
      ∀ strategy : Strategy, engineRotateLeft strategy.engine a n = a.rotateLeft n := by
  refine ⟨?_, rotateRight_rotateLeft a n, rotateLeft_rotateRight a n, rotateLeft_rotateLeft a m n,
    onesCount_rotateLeft a n, onesCount_rotateRight a n, fun strategy =>
      engineRotateLeft_eq strategy a n⟩
  intro i hi
  have hdigit := bit?_eq a hi
  exact ⟨hdigit, (bit?_rotateLeft a n hi).trans hdigit⟩

end TwoLimb.UInt128
