/-
# Bits and the size of a value

The counting queries of an unsigned value tell its size: the leading zeros leave the
place of the topmost set bit, which is the integer logarithm, and the trailing zeros count
all factors of two. Logical operations on the limbs are the logical operations on the value.
-/

import TwoLimb.UInt128.Bits

namespace TwoLimb

theorem Limb.leadingZeros_eq {x : Limb} (hx : x.toNat ≠ 0) :
    x.leadingZeros = 63 - x.toNat.log2 :=
  if_neg fun hzero => hx (UInt64.toNat_inj.mpr hzero)

/-- A number that is below `2 ^ room` is not halved once more than counted. -/
theorem Limb.not_two_pow_evenHalvings_succ_dvd {room n : Nat} (hn : n ≠ 0)
    (hfits : n < 2 ^ room) : ¬2 ^ (evenHalvings room n + 1) ∣ n := by
  induction room generalizing n with
  | zero => exact absurd (Nat.lt_one_iff.mp hfits) hn
  | succ room ih =>
      unfold evenHalvings
      by_cases hodd : n % 2 = 1
      · rw [if_pos hodd, Nat.pow_one]
        intro hdvd
        rw [Nat.mod_eq_zero_of_dvd hdvd] at hodd
        exact Nat.zero_ne_one hodd
      · rw [if_neg hodd, Nat.pow_succ']
        have heven : 2 * (n / 2) = n := by omega
        have hhalf : n / 2 < 2 ^ room := by
          rw [Nat.pow_succ'] at hfits
          omega
        intro hdvd
        have htwice : 2 * 2 ^ (evenHalvings room (n / 2) + 1) ∣ 2 * (n / 2) := by rwa [heven]
        exact ih (by omega) hhalf (Nat.dvd_of_mul_dvd_mul_left Nat.zero_lt_two htwice)

namespace UInt128

theorem toNat_ne_zero_of_high {a : UInt128} (hhigh : a.high ≠ 0) : a.toNat ≠ 0 := by
  have hlimb := Limb.toNat_ne_zero hhigh
  unfold toNat
  omega

/-- A value with a high limb has its topmost set bit there. -/
theorem log2_of_high {a : UInt128} (hhigh : a.high.toNat ≠ 0) :
    a.toNat.log2 = a.high.toNat.log2 + 64 := by
  have hlow := a.low.toNat_lt
  have hle := Nat.log2_self_le hhigh
  have hlt := Nat.lt_log2_self (n := a.high.toNat)
  have hne : a.toNat ≠ 0 := by
    unfold toNat
    omega
  rw [Nat.log2_eq_iff hne, Nat.pow_add, show a.high.toNat.log2 + 64 + 1 =
    a.high.toNat.log2 + 1 + 64 by omega, Nat.pow_add, toNat]
  omega

/-- The topmost set bit of a value is at the integer logarithm. -/
theorem leadingZeros_eq {a : UInt128} (ha : a.toNat ≠ 0) :
    a.leadingZeros = 127 - a.toNat.log2 := by
  unfold leadingZeros
  by_cases hhigh : a.high.toNat = 0
  · have hzero : a.high = 0 := UInt64.toNat_inj.mp hhigh
    have hvalue : a.toNat = a.low.toNat := by simp [toNat, hhigh]
    have hlog : a.low.toNat.log2 < 64 :=
      (Nat.log2_lt (hvalue ▸ ha)).mpr a.low.toNat_lt
    rw [if_neg (not_not_intro hzero), Limb.leadingZeros_eq (hvalue ▸ ha), hvalue, Limb.bits]
    omega
  · have hne : a.high ≠ 0 := fun hzero => hhigh (UInt64.toNat_inj.mpr hzero)
    rw [if_pos hne, Limb.leadingZeros_eq hhigh, log2_of_high hhigh]
    omega

/-- The trailing zeros count every factor of two of a value that is not zero. -/
theorem not_two_pow_trailingZeros_succ_dvd {a : UInt128} (ha : a.toNat ≠ 0) :
    ¬2 ^ (a.trailingZeros + 1) ∣ a.toNat := by
  unfold trailingZeros
  by_cases hlow : a.low = 0
  · have hvalue : a.toNat = 2 ^ 64 * a.high.toNat := by
      rw [toNat, hlow, UInt64.toNat_zero, Nat.add_zero, Nat.mul_comm]
    have hhigh : a.high.toNat ≠ 0 := by
      intro hzero
      rw [hvalue, hzero] at ha
      exact ha rfl
    rw [if_neg (not_not_intro hlow), hvalue, Limb.bits, Nat.add_assoc, Nat.pow_add]
    intro hdvd
    exact Limb.not_two_pow_evenHalvings_succ_dvd hhigh a.high.toNat_lt
      (Nat.dvd_of_mul_dvd_mul_left (Nat.two_pow_pos 64) hdvd)
  · have hplaces : a.low.trailingZeros + 1 ≤ 64 := Limb.trailingZeros_lt hlow
    have hupper : 2 ^ (a.low.trailingZeros + 1) ∣ a.high.toNat * 2 ^ 64 :=
      Nat.dvd_mul_left_of_dvd (Nat.pow_dvd_pow 2 hplaces) _
    rw [if_pos hlow, toNat, Nat.dvd_add_right hupper]
    exact Limb.not_two_pow_evenHalvings_succ_dvd (Limb.toNat_ne_zero hlow) a.low.toNat_lt

section Logical

/-- A bit of a value is a bit of the limb that holds it. -/
theorem testBit_toNat (a : UInt128) (i : Nat) :
    a.toNat.testBit i =
      if i < 64 then a.low.toNat.testBit i else a.high.toNat.testBit (i - 64) := by
  rw [toNat, Nat.mul_comm, Nat.testBit_two_pow_mul_add _ a.low.toNat_lt]

/-- What is done bit by bit to both limbs is done bit by bit to the value. -/
theorem toNat_eq_bitwise {f : Bool → Bool → Bool} (hf : f false false = false) {a b c : UInt128}
    (hhigh : c.high.toNat = Nat.bitwise f a.high.toNat b.high.toNat)
    (hlow : c.low.toNat = Nat.bitwise f a.low.toNat b.low.toNat) :
    c.toNat = Nat.bitwise f a.toNat b.toNat := by
  apply Nat.eq_of_testBit_eq
  intro i
  rw [Nat.testBit_bitwise hf, testBit_toNat, testBit_toNat, testBit_toNat, hhigh, hlow,
    Nat.testBit_bitwise hf, Nat.testBit_bitwise hf]
  split <;> rfl

theorem toNat_and (a b : UInt128) : (a &&& b).toNat = a.toNat &&& b.toNat :=
  toNat_eq_bitwise rfl (UInt64.toNat_and a.high b.high) (UInt64.toNat_and a.low b.low)

theorem toNat_or (a b : UInt128) : (a ||| b).toNat = a.toNat ||| b.toNat :=
  toNat_eq_bitwise rfl (UInt64.toNat_or a.high b.high) (UInt64.toNat_or a.low b.low)

theorem toNat_xor (a b : UInt128) : (a ^^^ b).toNat = a.toNat ^^^ b.toNat :=
  toNat_eq_bitwise rfl (UInt64.toNat_xor a.high b.high) (UInt64.toNat_xor a.low b.low)

theorem toNat_complement (a : UInt128) : (~~~a).toNat = 2 ^ 128 - 1 - a.toNat := by
  have hhigh : (~~~a).high.toNat = UInt64.size - 1 - a.high.toNat := UInt64.toNat_not a.high
  have hlow : (~~~a).low.toNat = UInt64.size - 1 - a.low.toNat := UInt64.toNat_not a.low
  have hhighLt := a.high.toNat_lt
  have hlowLt := a.low.toNat_lt
  rw [toNat, toNat, hhigh, hlow, UInt64.size]
  omega

end Logical

end UInt128

end TwoLimb
