/-
# The instruction engine

A 64-bit machine adds with a carry flag, multiplies two limbs into a pair, and
divides a pair by a limb, each in one instruction. The limb primitives here are the
architectural results of those instructions, given on the values of their operands;
the operations on pairs are the same as for any limb primitives.
-/

import TwoLimb.Engine.Limbwise

namespace TwoLimb.Engine.Instruction

/-- Add with carry: the sum modulo `2^64`, and the carry flag. -/
def addWithCarry (a b : Limb) (carry : Bool) : Limb × Bool :=
  let sum := a.toNat + b.toNat + carry.toNat
  (UInt64.ofNat sum, 2 ^ 64 ≤ sum)

/-- Subtract with borrow: the difference modulo `2^64`, and the carry flag. -/
def subWithBorrow (a b : Limb) (borrow : Bool) : Limb × Bool :=
  let subtrahend := b.toNat + borrow.toNat
  (UInt64.ofNat (a.toNat + 2 ^ 64 - subtrahend), a.toNat < subtrahend)

/-- Multiply: both limbs of the exact product. -/
def wideningMul (a b : Limb) : UInt128 := .ofNat (a.toNat * b.toNat)

/-- Divide: quotient and remainder of the pair, provided the quotient fits a limb. -/
def divPair (high low divisor : Limb) : Limb × Limb :=
  let dividend := UInt128.toNat ⟨high, low⟩
  (UInt64.ofNat (dividend / divisor.toNat), UInt64.ofNat (dividend % divisor.toNat))

/-- The limb primitives of a 64-bit machine. -/
def limbOps : LimbOps where
  addWithCarry := addWithCarry
  subWithBorrow := subWithBorrow
  wideningMul := wideningMul
  divPair := divPair

end Instruction

/-- Arithmetic on two limbs with the machine's own instructions. -/
def instruction : Engine := ofLimbOps .instruction Instruction.limbOps

end TwoLimb.Engine
