/-
# Shifts and rotations

A 32-bit amount is taken modulo 128, refused from 128 on, or flagged there. The
shift operators accept an amount of any integer type and fault unless its value is
one of 0 to 127. Rotations compose two shifts by complementary amounts.
-/

import TwoLimb.UInt128.Arithmetic

namespace TwoLimb

/-- The two directions of a shift. -/
inductive Direction
  | left
  | right
deriving DecidableEq, Inhabited

/-- The fault of a shift in the given direction. -/
def Direction.fault : Direction → Fault
  | .left => .shiftLeft
  | .right => .shiftRight

/-- The types whose values the shift operators take as amounts. -/
inductive ShiftCount
  | byte (amount : UInt8)
  | half (amount : UInt16)
  | word (amount : UInt32)
  | limb (amount : UInt64)
  | size (amount : UInt64)
  | int (amount : Int32)
  | wide (amount : UInt128)

namespace ShiftCount

/-- The amount as a number of places, if it is one of 0 to 127. A wide amount must
have a zero high limb: its low limb alone decides nothing. -/
def places? : ShiftCount → Option Nat
  | .byte n => if n < 128 then some n.toNat else none
  | .half n => if n < 128 then some n.toNat else none
  | .word n => if n < 128 then some n.toNat else none
  | .limb n => if n < 128 then some n.toNat else none
  | .size n => if n < 128 then some n.toNat else none
  | .int n => if 0 ≤ n ∧ n < 128 then some n.toNatClampNeg else none
  | .wide n => if n.high = 0 ∧ n.low < 128 then some n.low.toNat else none

/-- The number of places, or the fault of the direction. -/
def places (amount : ShiftCount) (direction : Direction) : Except Fault Nat :=
  match amount.places? with
  | some places => .ok places
  | none => .error direction.fault

end ShiftCount

namespace UInt128

/-- Shift towards the high end by an amount below 128. -/
def shl (a : UInt128) (amount : Nat) : UInt128 := Engine.selected.shl a amount

/-- Shift towards the low end by an amount below 128. -/
def shr (a : UInt128) (amount : Nat) : UInt128 := Engine.selected.shr a amount

/-- An amount taken modulo 128. -/
def maskAmount (amount : UInt32) : Nat := (amount &&& 127).toNat

/-- Left shift by the amount modulo 128. -/
def wrappingShl (a : UInt128) (amount : UInt32) : UInt128 := a.shl (maskAmount amount)

/-- Right shift by the amount modulo 128. -/
def wrappingShr (a : UInt128) (amount : UInt32) : UInt128 := a.shr (maskAmount amount)

/-- Left shift, refused from 128 on. -/
def shl? (a : UInt128) (amount : UInt32) : Option UInt128 :=
  if amount < 128 then some (a.shl amount.toNat) else none

/-- Right shift, refused from 128 on. -/
def shr? (a : UInt128) (amount : UInt32) : Option UInt128 :=
  if amount < 128 then some (a.shr amount.toNat) else none

/-- Left shift by the amount modulo 128, flagged from 128 on. -/
def overflowingShl (a : UInt128) (amount : UInt32) : UInt128 × Bool :=
  (a.wrappingShl amount, 128 ≤ amount)

/-- Right shift by the amount modulo 128, flagged from 128 on. -/
def overflowingShr (a : UInt128) (amount : UInt32) : UInt128 × Bool :=
  (a.wrappingShr amount, 128 ≤ amount)

/-- The bits that leave at the high end come back at the low end. -/
def rotateLeft (a : UInt128) (amount : UInt32) : UInt128 :=
  let places := maskAmount amount
  if places = 0 then a else a.shl places ||| a.shr (bits - places)

/-- A rotation to the right is the rotation to the left that completes it. -/
def rotateRight (a : UInt128) (amount : UInt32) : UInt128 :=
  a.rotateLeft (128 - (amount &&& 127))

/-- Shift in the given direction by less than 128. -/
def shift (a : UInt128) : Direction → Nat → UInt128
  | .left => a.shl
  | .right => a.shr

/-- The shift operators: a fault unless the amount is one of 0 to 127. -/
def shiftBy (a : UInt128) (direction : Direction) (amount : ShiftCount) :
    Except Fault UInt128 :=
  match amount.places direction with
  | .ok places => .ok (a.shift direction places)
  | .error fault => .error fault

/-- A right shift divides and rounds down. -/
theorem toNat_shr (a : UInt128) {amount : Nat} (hamount : amount < 128) :
    (a.shr amount).toNat = a.toNat / 2 ^ amount :=
  Engine.Limbwise.toNat_shr a hamount

/-- A left shift multiplies modulo `2^128`. -/
theorem toNat_shl (a : UInt128) {amount : Nat} (hamount : amount < 128) :
    (a.shl amount).toNat = a.toNat * 2 ^ amount % 2 ^ 128 :=
  Engine.Limbwise.toNat_shl a hamount

end UInt128

end TwoLimb
