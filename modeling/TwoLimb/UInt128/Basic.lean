/-
# Unsigned 128-bit integers

An unsigned 128-bit integer is a pair of limbs. The value of the pair is
`high * 2^64 + low`, and `toNat` is the only meaning the rest of the library
gives it: every operation is stated by what it does to `toNat`. The pair is
determined by its value, so two integers are equal when their values are.
-/

import TwoLimb.Limb

namespace TwoLimb

/-- An unsigned 128-bit integer as its upper and lower limb. -/
structure UInt128 where
  /-- Bits 64 to 127. -/
  high : Limb
  /-- Bits 0 to 63. -/
  low : Limb
deriving DecidableEq, Inhabited

/-- Quotient and remainder of one division. -/
structure DivMod (α : Type) where
  quotient : α
  remainder : α
deriving DecidableEq, Inhabited

namespace UInt128

/-- The number of bits in a value. -/
def bits : Nat := 128

/-- One more than the largest value. -/
def modulus : Nat := 2 ^ 128

/-- The integer a pair of limbs stands for. -/
def toNat (a : UInt128) : Nat := a.high.toNat * 2 ^ 64 + a.low.toNat

/-- The pair of limbs of an integer, taken modulo `2^128`. -/
def ofNat (n : Nat) : UInt128 := ⟨UInt64.ofNat (n / 2 ^ 64), UInt64.ofNat n⟩

/-- A limb as a 128-bit integer. -/
def ofLimb (x : Limb) : UInt128 := ⟨0, x⟩

def zero : UInt128 := ⟨0, 0⟩

def one : UInt128 := ⟨0, 1⟩

def min : UInt128 := zero

/-- The greatest value, `2^128 - 1`. -/
def max : UInt128 := ⟨Limb.max, Limb.max⟩

/-- The limbs with the low one first. -/
def limbs (a : UInt128) : Limb × Limb := (a.low, a.high)

/-- The value of a pair of limbs given with the low one first. -/
def ofLimbs (pair : Limb × Limb) : UInt128 := ⟨pair.2, pair.1⟩

/-- One 128-bit word, composed by shifting the high limb above the low one. -/
def toWide (a : UInt128) : BitVec 128 :=
  a.high.toBitVec.setWidth 128 <<< 64 ||| a.low.toBitVec.setWidth 128

/-- The limbs of a 128-bit word, cut out by shifting and truncating. -/
def ofWide (w : BitVec 128) : UInt128 :=
  ⟨UInt64.ofBitVec ((w >>> 64).setWidth 64), UInt64.ofBitVec (w.setWidth 64)⟩

/-- Every value is below `2^128`. -/
theorem toNat_lt (a : UInt128) : a.toNat < 2 ^ 128 := by
  have hhigh := a.high.toNat_lt
  have hlow := a.low.toNat_lt
  unfold toNat
  omega

/-- A value determines its limbs. -/
theorem ext_toNat {a b : UInt128} (hvalue : a.toNat = b.toNat) : a = b := by
  have halow := a.low.toNat_lt
  have hblow := b.low.toNat_lt
  unfold toNat at hvalue
  have hhigh : a.high = b.high := UInt64.toNat_inj.mp (by omega)
  have hlow : a.low = b.low := UInt64.toNat_inj.mp (by omega)
  cases a
  cases b
  simp_all

/-- Two integers are equal exactly when their values are. -/
theorem toNat_inj {a b : UInt128} : a.toNat = b.toNat ↔ a = b :=
  ⟨ext_toNat, fun h => h ▸ rfl⟩

@[simp]
theorem toNat_ofNat (n : Nat) : (ofNat n).toNat = n % 2 ^ 128 := by
  simp only [ofNat, toNat, UInt64.toNat_ofNat']
  omega

@[simp]
theorem ofNat_toNat (a : UInt128) : ofNat a.toNat = a :=
  ext_toNat (by rw [toNat_ofNat, Nat.mod_eq_of_lt a.toNat_lt])

@[simp]
theorem toNat_ofLimb (x : Limb) : (ofLimb x).toNat = x.toNat := by
  simp [ofLimb, toNat]

@[simp]
theorem toNat_zero : zero.toNat = 0 := rfl

@[simp]
theorem toNat_one : one.toNat = 1 := rfl

@[simp]
theorem toNat_max : max.toNat = 2 ^ 128 - 1 := rfl

theorem toNat_ne_zero {a : UInt128} (ha : a ≠ zero) : a.toNat ≠ 0 := fun hzero =>
  ha (ext_toNat hzero)

/-- The composed word carries the same value as the limbs. -/
@[simp]
theorem toNat_toWide (a : UInt128) : a.toWide.toNat = a.toNat := by
  have hhigh := a.high.toNat_lt
  have hlow := a.low.toNat_lt
  have hshift : a.high.toNat <<< 64 < 2 ^ 128 := by
    rw [Nat.shiftLeft_eq]
    omega
  simp only [toWide, BitVec.toNat_or, BitVec.toNat_shiftLeft, BitVec.toNat_setWidth,
    UInt64.toNat_toBitVec]
  rw [Nat.mod_eq_of_lt (show a.high.toNat < 2 ^ 128 by omega),
    Nat.mod_eq_of_lt (show a.low.toNat < 2 ^ 128 by omega), Nat.mod_eq_of_lt hshift,
    ← Nat.shiftLeft_add_eq_or_of_lt hlow, Nat.shiftLeft_eq]
  rfl

/-- Cutting a word into limbs keeps its value. -/
@[simp]
theorem toNat_ofWide (w : BitVec 128) : (ofWide w).toNat = w.toNat := by
  have hword := w.isLt
  simp only [ofWide, toNat, UInt64.toNat_ofBitVec, BitVec.toNat_setWidth,
    BitVec.toNat_ushiftRight, Nat.shiftRight_eq_div_pow]
  omega

@[simp]
theorem ofWide_toWide (a : UInt128) : ofWide a.toWide = a :=
  ext_toNat (by simp)

@[simp]
theorem toWide_ofWide (w : BitVec 128) : (ofWide w).toWide = w :=
  BitVec.eq_of_toNat_eq (by simp)

end UInt128

end TwoLimb
