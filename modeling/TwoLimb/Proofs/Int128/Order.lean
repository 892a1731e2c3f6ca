/-
# The order of signed values

Two's complement puts the negative bit patterns above the others, so an unsigned comparison
of bits is wrong wherever the signs differ. With the sign bit inverted every pattern counts
what the value exceeds the least one by, and the unsigned order of these counts is the
signed order. Only equality may look at the bits as they are.

All forms of both orders are then read off the integers. The composed choices take part in
this, although they mix inverted bits in one term with plain bits in the other.
-/

import TwoLimb.Proofs.UInt128.Order

namespace TwoLimb

/-- A bit above all others is inverted by adding it. -/
theorem xor_two_pow {n place : Nat} (hn : n < 2 ^ place) : n ^^^ 2 ^ place = n + 2 ^ place := by
  have hclear : n.testBit place = false := Nat.testBit_lt_two_pow hn
  have hjoin : 2 ^ place + n = 2 ^ place ||| n := by
    simpa only [Nat.mul_one] using Nat.two_pow_add_eq_or_of_lt hn 1
  rw [Nat.add_comm, hjoin]
  apply Nat.eq_of_testBit_eq
  intro i
  rw [Nat.testBit_xor, Nat.testBit_or, Nat.testBit_two_pow]
  by_cases hi : place = i
  · rw [← hi, hclear, decide_eq_true rfl]
    rfl
  · rw [decide_eq_false hi, Bool.xor_false, Bool.false_or]

theorem Limb.toNat_xor_signBit (x : Limb) :
    (x ^^^ signBit).toNat = (x.toNat + 2 ^ 63) % 2 ^ 64 := by
  have hx := x.toNat_lt
  have hsign : signBit.toNat = 2 ^ 63 := rfl
  rw [UInt64.toNat_xor, hsign]
  rcases Nat.lt_or_ge x.toNat (2 ^ 63) with hlow | hhigh
  · rw [xor_two_pow hlow, Nat.mod_eq_of_lt (by omega)]
  · -- The sign is set already: what it was added to is what inverting it leaves.
    obtain ⟨rest, hrest⟩ := Nat.exists_eq_add_of_le' hhigh
    have hlt : rest < 2 ^ 63 := by omega
    rw [hrest, ← xor_two_pow hlt, Nat.xor_assoc, Nat.xor_self, Nat.xor_zero, xor_two_pow hlt]
    omega

namespace Int128

/-- The key of a value is its distance from the least one. -/
theorem toNat_orderKey (a : Int128) : (a.orderKey.toNat : Int) = a.toInt + 2 ^ 127 := by
  have hhigh := a.bits.high.toNat_lt
  have hlow := a.bits.low.toNat_lt
  have hkey : a.orderKey.toNat =
      (a.bits.high ^^^ Limb.signBit).toNat * 2 ^ 64 + a.bits.low.toNat := rfl
  rw [hkey, Limb.toNat_xor_signBit, toInt, UInt128.toNat]
  split <;> omega

/-- The order of signed values, with choices composed of those of limbs. -/
def orders (limbs : LimbChoices) : OrderFamily Int128 where
  compare := compare
  isLess := isLessThan
  isGreater := isGreaterThan
  equals a b := a == b
  maximum := maximum
  minimum := minimum
  sort := sort
  choiceEq a b := limbs.pairEq a.bits b.bits
  choiceGt a b := limbs.pairGt a.orderKey b.orderKey
  choiceLt a b :=
    LimbChoices.neither (limbs.pairGt a.orderKey b.orderKey) (limbs.pairEq a.bits b.bits)

theorem orderKey_lt_iff (a b : Int128) :
    a.orderKey.toNat < b.orderKey.toNat ↔ a.toInt < b.toInt := by
  have ha := a.toNat_orderKey
  have hb := b.toNat_orderKey
  omega

theorem compare_eq_compare_toInt (a b : Int128) : a.compare b = Ord.compare a.toInt b.toInt := by
  rw [compare, UInt128.compare_eq_compare_toNat, Nat.compare_eq_ite_lt, Int.compare_eq_ite_lt]
  simp only [orderKey_lt_iff]

theorem orders_agreeWithIntegers {limbs : LimbChoices} (hlimbs : limbs.AreCorrect) :
    (orders limbs).AgreesWithIntegers toInt := by
  apply OrderFamily.agreesWithIntegers
  case hvalue => exact toInt_inj.mp
  case hcompare => exact compare_eq_compare_toInt
  case hequals => exact fun a b => beq_iff_eq
  case hchoiceEq => exact fun a b => (hlimbs.pairEq_iff a.bits b.bits).trans bits_inj
  case hchoiceGt =>
    exact fun a b => (hlimbs.pairGt_iff a.orderKey b.orderKey).trans (orderKey_lt_iff b a)
  all_goals intros; rfl

/-- Both types are ordered as the integers which their values stand for, in every form in
which they are compared. The choices are right as soon as those of limbs are, and then they
are the ones that the library computes. -/
theorem orders_tell_integers {limbs : LimbChoices} (hlimbs : limbs.AreCorrect) :
    ((UInt128.orders limbs).AgreesWithIntegers fun a => (a.toNat : Int)) ∧
      (orders limbs).AgreesWithIntegers toInt ∧
      (∀ a b : UInt128, (UInt128.orders limbs).choiceEq a b = a.choiceEq b ∧
        (UInt128.orders limbs).choiceGt a b = a.choiceGt b ∧
        (UInt128.orders limbs).choiceLt a b = a.choiceLt b) ∧
      ∀ a b : Int128, (orders limbs).choiceEq a b = a.choiceEq b ∧
        (orders limbs).choiceGt a b = a.choiceGt b ∧
        (orders limbs).choiceLt a b = a.choiceLt b := by
  refine ⟨UInt128.orders_agreeWithIntegers hlimbs, orders_agreeWithIntegers hlimbs, ?_, ?_⟩
  all_goals
    intro a b
    rw [hlimbs.eq_ofFlags]
    exact ⟨rfl, rfl, rfl⟩

/-- A negative value is less than a positive one, although its bits are the greater. -/
theorem choiceLt_min_max : LimbChoices.ofFlags.AreCorrect ∧ min.choiceLt max = 1 := by
  have hlimbs := LimbChoices.areCorrect_ofFlags
  obtain ⟨-, hsigned, -, hcomputed⟩ := orders_tell_integers hlimbs
  refine ⟨hlimbs, ?_⟩
  rw [← (hcomputed min max).2.2]
  exact (hsigned.choiceLt min max).mpr (by decide)

end Int128

end TwoLimb
