/-
# Bits of an unsigned integer

Logical operations act on the limbs separately. The counting queries ask the
limb that decides the answer and add 64 when it is the other one. The total
query `testBit` answers at every position; `bit?` is the checked form, which
refuses positions that a 128-bit value does not have.
-/

import TwoLimb.Fault
import TwoLimb.UInt128.Basic

namespace TwoLimb.UInt128

/-- The bits set in both operands. -/
def and (a b : UInt128) : UInt128 := ⟨a.high &&& b.high, a.low &&& b.low⟩

/-- The bits set in at least one operand. -/
def or (a b : UInt128) : UInt128 := ⟨a.high ||| b.high, a.low ||| b.low⟩

/-- The bits set in exactly one operand. -/
def xor (a b : UInt128) : UInt128 := ⟨a.high ^^^ b.high, a.low ^^^ b.low⟩

def complement (a : UInt128) : UInt128 := ⟨~~~a.high, ~~~a.low⟩

instance : AndOp UInt128 := ⟨and⟩

instance : OrOp UInt128 := ⟨or⟩

instance : XorOp UInt128 := ⟨xor⟩

instance : Complement UInt128 := ⟨complement⟩

/-- A value is zero when no bit of either limb is set. -/
def isZero (a : UInt128) : Bool := a.high ||| a.low == 0

/-- The number of zero bits above the topmost set bit, 128 for zero. -/
def leadingZeros (a : UInt128) : Nat :=
  if a.high ≠ 0 then a.high.leadingZeros else Limb.bits + a.low.leadingZeros

/-- The number of zero bits below the lowest set bit, 128 for zero. -/
def trailingZeros (a : UInt128) : Nat :=
  if a.low ≠ 0 then a.low.trailingZeros else Limb.bits + a.high.trailingZeros

def onesCount (a : UInt128) : Nat := a.high.onesCount + a.low.onesCount

def zerosCount (a : UInt128) : Nat := bits - a.onesCount

/-- The number of bits needed to write the value, none for zero. -/
def bitWidth (a : UInt128) : Nat := bits - a.leadingZeros

/-- A power of two has exactly one set bit. -/
def isPowerOfTwo (a : UInt128) : Bool := a.onesCount == 1

/-- Bit `index`, counted from the least significant one and cyclically beyond 128. -/
def testBit (a : UInt128) (index : Nat) : Bool :=
  let index := index % bits
  if index ≥ Limb.bits then a.high.shr (index - Limb.bits) &&& 1 != 0
  else a.low.shr index &&& 1 != 0

/-- Bit `index`, a fault where a 128-bit value has no such bit. -/
def bit? (a : UInt128) (index : Nat) : Except Fault Bool :=
  if index < bits then .ok (a.testBit index) else .error .bitIndex

/-- Zero is the only value without a set bit. -/
theorem isZero_iff (a : UInt128) : a.isZero = true ↔ a.toNat = 0 := by
  have hlimbs : a.isZero = true ↔ a.high = 0 ∧ a.low = 0 := by
    simp only [isZero, beq_iff_eq, UInt64.or_eq_zero_iff]
  have hlow := a.low.toNat_lt
  rw [hlimbs, ← UInt64.toNat_inj, ← UInt64.toNat_inj, UInt64.toNat_zero, toNat]
  omega

theorem toNat_ne_zero_of_not_isZero {a : UInt128} (ha : ¬a.isZero = true) : a.toNat ≠ 0 :=
  mt (isZero_iff a).mpr ha

theorem isZero_eq_false {a : UInt128} (ha : a ≠ zero) : a.isZero = false :=
  Bool.eq_false_iff.mpr (mt (isZero_iff a).mp (toNat_ne_zero ha))

/-- The power of two counted by the trailing zeros divides the value. -/
theorem two_pow_trailingZeros_dvd (a : UInt128) : 2 ^ a.trailingZeros ∣ a.toNat := by
  unfold trailingZeros toNat
  split
  · rename_i hlow
    have hle : a.low.trailingZeros ≤ 64 := Nat.le_of_lt (Limb.trailingZeros_lt hlow)
    exact Nat.dvd_add (Nat.dvd_mul_left_of_dvd (Nat.pow_dvd_pow 2 hle) a.high.toNat)
      (Limb.two_pow_trailingZeros_dvd a.low)
  · rename_i hlow
    have hzero : a.low.toNat = 0 := by simp_all
    rw [hzero, Nat.add_zero, Nat.add_comm, Nat.pow_add]
    exact Nat.mul_dvd_mul (Limb.two_pow_trailingZeros_dvd a.high) (Nat.dvd_refl _)

/-- A value that is not zero has fewer than 128 trailing zeros. -/
theorem trailingZeros_lt {a : UInt128} (ha : a.toNat ≠ 0) : a.trailingZeros < 128 := by
  unfold trailingZeros Limb.bits
  split
  · rename_i hlow
    exact Nat.lt_trans (Limb.trailingZeros_lt hlow) (by decide)
  · rename_i hlow
    have hhigh : a.high ≠ 0 := by
      intro hzero
      simp_all [toNat]
    have hlt := Limb.trailingZeros_lt hhigh
    omega

end TwoLimb.UInt128
