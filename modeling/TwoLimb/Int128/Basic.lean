/-
# Signed 128-bit integers

A signed integer keeps the bits of an unsigned one and reads them as two's
complement: `toInt` is the unsigned value, less `2^128` when the topmost bit is
set. Sums, differences, products, logical operations and left shifts are those of
the bits; only what depends on the sign is defined anew here and in the modules
beside this one.
-/

import TwoLimb.UInt128.Bits
import TwoLimb.UInt128.Bytes
import TwoLimb.UInt128.Hash
import TwoLimb.UInt128.Shift

namespace TwoLimb

/-- A signed 128-bit integer as its two's complement bits. -/
structure Int128 where
  bits : UInt128
deriving DecidableEq, Inhabited

namespace Int128

def zero : Int128 := ⟨.zero⟩

def one : Int128 := ⟨.one⟩

/-- Minus one, all bits set. -/
def negOne : Int128 := ⟨.max⟩

/-- The least value, `-2^127`. -/
def min : Int128 := ⟨⟨Limb.signBit, 0⟩⟩

/-- The greatest value, `2^127 - 1`. -/
def max : Int128 := ⟨⟨~~~Limb.signBit, Limb.max⟩⟩

/-- Whether the topmost bit is set. -/
def isNegative (a : Int128) : Bool := a.bits.high &&& Limb.signBit != 0

/-- The integer that the bits stand for. -/
def toInt (a : Int128) : Int :=
  if a.bits.toNat < 2 ^ 127 then a.bits.toNat else a.bits.toNat - 2 ^ 128

/-- The bits of an integer, taken modulo `2^128`. -/
def ofInt (n : Int) : Int128 := ⟨.ofNat (n % 2 ^ 128).toNat⟩

/-- The value with the given limbs, the high one signed. -/
def ofParts (high : Int64) (low : Limb) : Int128 := ⟨⟨high.toUInt64, low⟩⟩

/-- Bits 64 to 127 with the sign. -/
def high (a : Int128) : Int64 := a.bits.high.toInt64

/-- Bits 0 to 63. -/
def low (a : Int128) : Limb := a.bits.low

def isZero (a : Int128) : Bool := a.bits.isZero

/-- Whether the value is greater than zero. -/
def isPositive (a : Int128) : Bool := !a.isNegative && !a.isZero

/-- Minus one, zero or one, as the sign. -/
def signum (a : Int128) : Int128 :=
  if a.isNegative then negOne else if a.isZero then zero else one

/-- Addition modulo `2^128` on the bits. -/
def add (a b : Int128) : Int128 := ⟨a.bits + b.bits⟩

/-- Subtraction modulo `2^128` on the bits. -/
def sub (a b : Int128) : Int128 := ⟨a.bits - b.bits⟩

/-- Multiplication modulo `2^128` on the bits. -/
def mul (a b : Int128) : Int128 := ⟨a.bits * b.bits⟩

/-- Negation; the least value is its own negation. -/
def neg (a : Int128) : Int128 := ⟨-a.bits⟩

/-- The bits set in both operands. -/
def and (a b : Int128) : Int128 := ⟨a.bits &&& b.bits⟩

/-- The bits set in at least one operand. -/
def or (a b : Int128) : Int128 := ⟨a.bits ||| b.bits⟩

/-- The bits set in exactly one operand. -/
def xor (a b : Int128) : Int128 := ⟨a.bits ^^^ b.bits⟩

def complement (a : Int128) : Int128 := ⟨~~~a.bits⟩

instance : Add Int128 := ⟨add⟩

instance : Sub Int128 := ⟨sub⟩

instance : Mul Int128 := ⟨mul⟩

instance : Neg Int128 := ⟨neg⟩

instance : AndOp Int128 := ⟨and⟩

instance : OrOp Int128 := ⟨or⟩

instance : XorOp Int128 := ⟨xor⟩

instance : Complement Int128 := ⟨complement⟩

/-- The magnitude. It is unsigned because that of the least value, `2^127`, has no
signed form. -/
def unsignedAbs (a : Int128) : UInt128 := if a.isNegative then -a.bits else a.bits

/-- The absolute value modulo `2^128`; the least value stays as it is. -/
def abs (a : Int128) : Int128 := ⟨a.unsignedAbs⟩

/-- The absolute value, if it is a signed value. -/
def abs? (a : Int128) : Option Int128 := if a.bits.equals min.bits then none else some a.abs

/-- The negation, and whether it is not the exact one. -/
def overflowingNeg (a : Int128) : Int128 × Bool := (-a, a.bits.equals min.bits)

/-- The exact negation, if it is a signed value. -/
def neg? (a : Int128) : Option Int128 := unflagged a.overflowingNeg

/-- The bits with the sign bit inverted, whose unsigned order is the signed order. -/
def orderKey (a : Int128) : UInt128 := ⟨a.bits.high ^^^ Limb.signBit, a.bits.low⟩

def compare (a b : Int128) : Ordering := a.orderKey.compare b.orderKey

def isLessThan (a b : Int128) : Bool := a.compare b == .lt

def isGreaterThan (a b : Int128) : Bool := a.compare b == .gt

def maximum (a b : Int128) : Int128 := if a.isLessThan b then b else a

def minimum (a b : Int128) : Int128 := if b.isLessThan a then b else a

def sort (values : List Int128) : List Int128 :=
  values.mergeSort fun a b => !a.isGreaterThan b

/-- Set exactly when the values are equal. -/
def choiceEq (a b : Int128) : Choice := a.bits.choiceEq b.bits

/-- Set exactly when the first value is greater. -/
def choiceGt (a b : Int128) : Choice := a.orderKey.choiceGt b.orderKey

/-- Set exactly when the first value is less: neither greater nor equal. -/
def choiceLt (a b : Int128) : Choice := ~~~(a.choiceGt b) &&& ~~~(a.choiceEq b)

/-- The second value when the choice is set and the first otherwise. -/
def select (a b : Int128) (c : Choice) : Int128 := ⟨a.bits.select b.bits c⟩

@[simp]
theorem toNat_bits_min : min.bits.toNat = 2 ^ 127 := rfl

/-- The sign bit is set exactly in the upper half of the bit patterns. -/
theorem isNegative_iff (a : Int128) : a.isNegative = true ↔ 2 ^ 127 ≤ a.bits.toNat := by
  have hlow := a.bits.low.toNat_lt
  rw [isNegative, bne_iff_ne, Limb.and_signBit_ne_zero_iff, UInt128.toNat]
  omega

/-- The signed value is negative exactly when the sign bit is set. -/
theorem isNegative_iff_toInt_neg (a : Int128) : a.isNegative = true ↔ a.toInt < 0 := by
  have hlt := a.bits.toNat_lt
  rw [isNegative_iff, toInt]
  split <;> omega

/-- Signed values lie between `-2^127` and `2^127`. -/
theorem toInt_bounds (a : Int128) : -2 ^ 127 ≤ a.toInt ∧ a.toInt < 2 ^ 127 := by
  have hlt := a.bits.toNat_lt
  unfold toInt
  split <;> omega

/-- Two signed integers are equal exactly when their values are. -/
theorem toInt_inj {a b : Int128} : a.toInt = b.toInt ↔ a = b := by
  constructor
  · intro hvalue
    have ha := a.bits.toNat_lt
    have hb := b.bits.toNat_lt
    have hbits : a.bits.toNat = b.bits.toNat := by
      unfold toInt at hvalue
      split at hvalue <;> split at hvalue <;> omega
    obtain ⟨abits⟩ := a
    obtain ⟨bbits⟩ := b
    exact congrArg Int128.mk (UInt128.ext_toNat hbits)
  · exact fun h => h ▸ rfl

/-- An integer and the value of its bits agree modulo `2^128`. -/
theorem toInt_ofInt (n : Int) :
    (ofInt n).toInt = (n + 2 ^ 127) % 2 ^ 128 - 2 ^ 127 := by
  have hnonneg : 0 ≤ n % 2 ^ 128 := Int.emod_nonneg n (by decide)
  have hlt : n % 2 ^ 128 < 2 ^ 128 := Int.emod_lt_of_pos n (by decide)
  unfold toInt ofInt
  simp only [UInt128.toNat_ofNat]
  rw [Nat.mod_eq_of_lt (by omega)]
  split <;> omega

@[simp]
theorem ofInt_toInt (a : Int128) : ofInt a.toInt = a := by
  have hbounds := a.toInt_bounds
  rw [← toInt_inj, toInt_ofInt]
  omega

end Int128

end TwoLimb
