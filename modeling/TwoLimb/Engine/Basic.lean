/-
# Arithmetic engines

An engine is a way to compute with limbs and with pairs of limbs. Four limb
primitives come first; seven operations on 128-bit values follow. Which engine
computes never shows in a result, only in how it is reached, so each of them is
an honest alternative: one on a single wide word, one on 32-bit halves with
division bit by bit, one on what a 64-bit machine multiplies and divides in one
instruction.

Two preconditions belong to the interface. The wide division needs its upper limb
below the divisor, and the long division needs a divisor that is not zero; the
checked entry points turn a violation into a fault before any engine runs. Shift
amounts are below 128.
-/

import TwoLimb.Fault
import TwoLimb.UInt128.Basic

namespace TwoLimb

/-- The strategies by which the limb primitives are computed. -/
inductive Strategy
  /-- One 128-bit word, stored and operated on as a single value. -/
  | wideWord
  /-- Two limbs, combined with the machine's carry, multiply and divide instructions. -/
  | instruction
  /-- Two limbs, multiplied on 32-bit halves and divided by shift and subtract. -/
  | portable
deriving DecidableEq, Inhabited

/-- The published name of a strategy. -/
def Strategy.name : Strategy → String
  | .wideWord => "native-wide-word"
  | .instruction => "platform-intrinsic-64"
  | .portable => "portable-fallback"

structure LimbOps where
  /-- Sum of two limbs and a carry, with the carry out. -/
  addWithCarry : Limb → Limb → Bool → Limb × Bool
  /-- Difference of two limbs less a borrow, with the borrow out. -/
  subWithBorrow : Limb → Limb → Bool → Limb × Bool
  /-- The full product of two limbs. -/
  wideningMul : Limb → Limb → UInt128
  /-- Quotient and remainder of a two-limb dividend, given high limb first, by one
  limb that is greater than the high limb. -/
  divPair : Limb → Limb → Limb → Limb × Limb

/-- The limb primitives together with the operations on 128-bit values. -/
structure Engine extends LimbOps where
  strategy : Strategy
  /-- Sum and carry out of bit 127. -/
  add : UInt128 → UInt128 → Bool → UInt128 × Bool
  /-- Difference and borrow out of bit 127. -/
  sub : UInt128 → UInt128 → Bool → UInt128 × Bool
  /-- Product modulo `2^128`. -/
  mul : UInt128 → UInt128 → UInt128
  /-- Product modulo `2^128`, and whether the exact product is larger. -/
  overflowingMul : UInt128 → UInt128 → UInt128 × Bool
  /-- Quotient and remainder for a divisor that is not zero. -/
  divMod : UInt128 → UInt128 → DivMod UInt128
  /-- Shift towards the high end by less than 128. -/
  shl : UInt128 → Nat → UInt128
  /-- Shift towards the low end by less than 128. -/
  shr : UInt128 → Nat → UInt128

namespace Engine

/-- The wide division with its precondition checked. -/
def divPair? (e : Engine) (high low divisor : Limb) : Except Fault (Limb × Limb) :=
  if high < divisor then .ok (e.divPair high low divisor) else .error .wideQuotient

/-- The long division with its precondition checked. -/
def divMod? (e : Engine) (dividend divisor : UInt128) : Except Fault (DivMod UInt128) :=
  if divisor = .zero then .error .divisionByZero else .ok (e.divMod dividend divisor)

end Engine

end TwoLimb
