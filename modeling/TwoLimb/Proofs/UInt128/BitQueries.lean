/-
# What the queries about bits say of a value

A value is a number with 128 binary digits, and each query is about these digits. The
lookup of a digit, the count of the digits that are set and the logical operations go by
limbs: places below 64 lie in the low limb and the others in the high one. The zeros
counted at the two ends then bound the value and tell the power of two in it, and a single
digit that is set makes it a power of two.

The integer alone decides all of this. The queries serve as tests in front of divisions,
common divisors and roundings, where a wrong answer would be a wrong quotient.
-/

import Mathlib.Data.Finset.Card
import TwoLimb.Proofs.UInt128.Bits

namespace TwoLimb

namespace Limb

/-- A digit of a limb, brought down to the lowest place and looked at there. -/
theorem shr_and_one_bne_zero (x : Limb) {place : Nat} (hplace : place < 64) :
    (x.shr place &&& 1 != 0) = x.toNat.testBit place := by
  have hdigit : (x.shr place &&& 1).toNat = x.toNat / 2 ^ place % 2 := by
    rw [UInt64.toNat_and, toNat_shr x hplace]
    exact Nat.and_one_is_mod _
  rw [Bool.eq_iff_iff, bne_iff_ne, ne_eq, ← UInt64.toNat_inj, hdigit, UInt64.toNat_zero,
    Nat.testBit_eq_decide_div_mod_eq, decide_eq_true_iff]
  omega

end Limb

namespace UInt128

/-! ### Digits -/

theorem testBit_toNat_of_le (a : UInt128) {i : Nat} (hi : 128 ≤ i) :
    a.toNat.testBit i = false :=
  Nat.testBit_lt_two_pow (Nat.lt_of_lt_of_le a.toNat_lt (Nat.pow_le_pow_right (by decide) hi))

/-- The 128 digits determine the value. -/
theorem ext_testBit {a b : UInt128}
    (hdigits : ∀ i < 128, a.toNat.testBit i = b.toNat.testBit i) : a = b := by
  apply ext_toNat
  apply Nat.eq_of_testBit_eq
  intro i
  rcases Nat.lt_or_ge i 128 with hi | hi
  · exact hdigits i hi
  · rw [testBit_toNat_of_le a hi, testBit_toNat_of_le b hi]

theorem testBit_eq (a : UInt128) {i : Nat} (hi : i < 128) : a.testBit i = a.toNat.testBit i := by
  have hplace : i % bits = i := Nat.mod_eq_of_lt hi
  rw [testBit, testBit_toNat]
  simp only [hplace, Limb.bits]
  by_cases hlow : i < 64
  · rw [if_neg (Nat.not_le.mpr hlow), if_pos hlow, Limb.shr_and_one_bne_zero _ hlow]
  · have habove : i - 64 < 64 := by omega
    rw [if_pos (Nat.le_of_not_lt hlow), if_neg hlow, Limb.shr_and_one_bne_zero _ habove]

/-- The checked lookup has every digit of the value. -/
theorem bit?_eq (a : UInt128) {i : Nat} (hi : i < 128) : a.bit? i = .ok (a.toNat.testBit i) := by
  rw [bit?, if_pos (show i < bits from hi), testBit_eq a hi]

theorem testBit_toNat_complement (a : UInt128) {i : Nat} (hi : i < 128) :
    (~~~a).toNat.testBit i = !a.toNat.testBit i := by
  have hcomplement : (~~~a).toNat = 2 ^ 128 - (a.toNat + 1) := by
    rw [toNat_complement]
    omega
  rw [hcomplement, Nat.testBit_two_pow_sub_succ a.toNat_lt, decide_eq_true hi, Bool.true_and]

/-- The logical operations act on each digit alone. -/
structure ActsOnEachDigit (a b : UInt128) : Prop where
  and : ∀ i, (a &&& b).toNat.testBit i = (a.toNat.testBit i && b.toNat.testBit i)
  or : ∀ i, (a ||| b).toNat.testBit i = (a.toNat.testBit i || b.toNat.testBit i)
  xor : ∀ i, (a ^^^ b).toNat.testBit i = (a.toNat.testBit i ^^ b.toNat.testBit i)
  complement : ∀ i < 128, (~~~a).toNat.testBit i = !a.toNat.testBit i

theorem actsOnEachDigit (a b : UInt128) : ActsOnEachDigit a b where
  and i := by rw [toNat_and, Nat.testBit_and]
  or i := by rw [toNat_or, Nat.testBit_or]
  xor i := by rw [toNat_xor, Nat.testBit_xor]
  complement i hi := testBit_toNat_complement a hi

/-! ### Counts of digits -/

/-- The places of the digits that are set. -/
def support (a : UInt128) : Finset Nat := (Finset.range 128).filter fun i => a.toNat.testBit i

@[simp]
theorem mem_support {a : UInt128} {i : Nat} :
    i ∈ a.support ↔ i < 128 ∧ a.toNat.testBit i = true := by
  rw [support, Finset.mem_filter, Finset.mem_range]

/-- The digits of both limbs are counted, those of the high limb at their places in the
value. -/
theorem onesCount_eq_card (a : UInt128) : a.onesCount = a.support.card := by
  have hplaces : List.range 128 = List.range 64 ++ (List.range 64).map (64 + ·) :=
    List.range_add (n := 64) (m := 64)
  have hlow : (List.range 64).countP (a.toNat.testBit ·) = a.low.onesCount := by
    apply List.countP_congr
    intro i hi
    rw [testBit_toNat, if_pos (List.mem_range.mp hi)]
  have hhigh : (List.range 64).countP ((a.toNat.testBit ·) ∘ (64 + ·)) = a.high.onesCount := by
    apply List.countP_congr
    intro i _
    rw [Function.comp, testBit_toNat, if_neg (by omega), Nat.add_sub_cancel_left]
  have hcount : a.support.card = (List.range 128).countP (a.toNat.testBit ·) := by
    simp only [List.countP_eq_length_filter]
    exact congrArg List.length (List.filter_congr fun i _ => Bool.decide_eq_true)
  rw [hcount, hplaces, List.countP_append, List.countP_map, hlow, hhigh, onesCount, Nat.add_comm]

theorem zerosCount_eq_card (a : UInt128) :
    a.zerosCount = (Finset.range 128 \ a.support).card := by
  have hsubset : a.support ⊆ Finset.range 128 := Finset.filter_subset _ _
  rw [Finset.card_sdiff_of_subset hsubset, Finset.card_range, ← onesCount_eq_card, zerosCount, bits]

/-- One digit alone is set exactly in the powers of two. -/
theorem support_eq_singleton_iff (a : UInt128) {k : Nat} (hk : k < 128) :
    a.support = {k} ↔ a.toNat = 2 ^ k := by
  constructor
  · intro hsupport
    apply Nat.eq_of_testBit_eq
    intro i
    have hmember : i ∈ a.support ↔ i = k := by rw [hsupport, Finset.mem_singleton]
    rw [Nat.testBit_two_pow, Bool.eq_iff_iff, decide_eq_true_iff, @eq_comm _ k, ← hmember,
      mem_support]
    rcases Nat.lt_or_ge i 128 with hi | hi
    · exact (and_iff_right hi).symm
    · rw [testBit_toNat_of_le a hi]
      exact iff_of_false Bool.false_ne_true fun h => Bool.false_ne_true h.2
  · intro hvalue
    ext i
    rw [mem_support, hvalue, Nat.testBit_two_pow, decide_eq_true_iff, Finset.mem_singleton]
    omega

theorem isPowerOfTwo_iff (a : UInt128) : a.isPowerOfTwo = true ↔ ∃ k < 128, a.toNat = 2 ^ k := by
  rw [isPowerOfTwo, beq_iff_eq, onesCount_eq_card, Finset.card_eq_one]
  constructor
  · rintro ⟨k, hsupport⟩
    have hk : k ∈ a.support := by rw [hsupport, Finset.mem_singleton]
    have hlt := (mem_support.mp hk).1
    exact ⟨k, hlt, (support_eq_singleton_iff a hlt).mp hsupport⟩
  · rintro ⟨k, hlt, hvalue⟩
    exact ⟨k, (support_eq_singleton_iff a hlt).mpr hvalue⟩

/-! ### Zeros at either end -/

theorem bitWidth_zero {a : UInt128} (ha : a.toNat = 0) : a.bitWidth = 0 := by
  rw [show a = zero from ext_toNat ha]
  decide

theorem bitWidth_of_ne_zero {a : UInt128} (ha : a.toNat ≠ 0) :
    a.bitWidth = a.toNat.log2 + 1 := by
  have hlog : a.toNat.log2 < 128 := (Nat.log2_lt ha).mpr a.toNat_lt
  rw [bitWidth, leadingZeros_eq ha, bits]
  omega

theorem leadingZeros_add_bitWidth (a : UInt128) : a.leadingZeros + a.bitWidth = 128 := by
  by_cases ha : a.toNat = 0
  · rw [show a = zero from ext_toNat ha]
    decide
  · have hlog : a.toNat.log2 < 128 := (Nat.log2_lt ha).mpr a.toNat_lt
    rw [bitWidth_of_ne_zero ha, leadingZeros_eq ha]
    omega

theorem toNat_lt_two_pow_bitWidth (a : UInt128) : a.toNat < 2 ^ a.bitWidth := by
  by_cases ha : a.toNat = 0
  · rw [bitWidth_zero ha, ha]
    exact Nat.one_pos
  · rw [bitWidth_of_ne_zero ha]
    exact Nat.lt_log2_self

theorem two_pow_bitWidth_sub_one_le {a : UInt128} (ha : a.toNat ≠ 0) :
    2 ^ (a.bitWidth - 1) ≤ a.toNat := by
  rw [bitWidth_of_ne_zero ha, Nat.add_sub_cancel]
  exact Nat.log2_self_le ha

/-- The powers of two that divide a value are those that the trailing zeros count. -/
theorem two_pow_dvd_iff {a : UInt128} (ha : a.toNat ≠ 0) (k : Nat) :
    2 ^ k ∣ a.toNat ↔ k ≤ a.trailingZeros := by
  constructor
  · intro hdvd
    apply Nat.le_of_not_lt
    intro hlt
    exact not_two_pow_trailingZeros_succ_dvd ha (Nat.dvd_trans (Nat.pow_dvd_pow 2 hlt) hdvd)
  · intro hle
    exact Nat.dvd_trans (Nat.pow_dvd_pow 2 hle) a.two_pow_trailingZeros_dvd

theorem trailingZeros_zero {a : UInt128} (ha : a.toNat = 0) : a.trailingZeros = 128 := by
  rw [show a = zero from ext_toNat ha]
  decide

/-- What the queries about a value say of the integer that it stands for. -/
structure QueriesDescribe (a : UInt128) : Prop where
  bit : ∀ i < 128, a.bit? i = .ok (a.toNat.testBit i)
  lt_two_pow : a.toNat < 2 ^ a.bitWidth
  two_pow_le : a.toNat ≠ 0 → 2 ^ (a.bitWidth - 1) ≤ a.toNat
  leadingZeros : a.leadingZeros + a.bitWidth = 128
  /-- The trailing zeros are the greatest exponent of a power of two that divides. -/
  trailingZeros : a.toNat ≠ 0 → ∀ k, 2 ^ k ∣ a.toNat ↔ k ≤ a.trailingZeros
  trailingZeros_zero : a.toNat = 0 → a.trailingZeros = 128
  onesCount : a.onesCount = a.support.card
  zerosCount : a.zerosCount = (Finset.range 128 \ a.support).card
  isPowerOfTwo : a.isPowerOfTwo = true ↔ ∃ k < 128, a.toNat = 2 ^ k

/-- Each query about the bits of a value tells a property of the integer, for all values,
and the logical operations act on every binary digit alone. -/
theorem queries_describe_value (a b : UInt128) : QueriesDescribe a ∧ ActsOnEachDigit a b := by
  refine ⟨?_, actsOnEachDigit a b⟩
  exact
    { bit := fun i hi => bit?_eq a hi
      lt_two_pow := toNat_lt_two_pow_bitWidth a
      two_pow_le := two_pow_bitWidth_sub_one_le
      leadingZeros := leadingZeros_add_bitWidth a
      trailingZeros := two_pow_dvd_iff
      trailingZeros_zero := trailingZeros_zero
      onesCount := onesCount_eq_card a
      zerosCount := zerosCount_eq_card a
      isPowerOfTwo := isPowerOfTwo_iff a }

end UInt128

end TwoLimb
