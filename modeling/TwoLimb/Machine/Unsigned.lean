/-
# The unsigned machine

Registers hold unsigned values. Beside the operators that assign to their left
operand there are instructions that read a register as a signed value, change it
there, and return the signed value that its bits then have.
-/

import TwoLimb.Int128.Division
import TwoLimb.Int128.Shift
import TwoLimb.Machine.Basic
import TwoLimb.UInt128.Divisor

namespace TwoLimb.Machine

/-- The instructions of the unsigned machine. -/
inductive UnsignedInstruction
  | set
  | add
  | sub
  | mul
  | div
  | rem
  | and
  | or
  | xor
  | shl
  | shr
  | not
  | zeroize
  | increment
  | decrement
  | postIncrement
  | postDecrement
  | checkedMul
  /-- Add the low limb of the operand. -/
  | addLimb
  /-- Subtract the low limb of the operand. -/
  | subLimb
  /-- Rotate left by the low 32 bits of the operand. -/
  | rotateLeft
  | gcd
  /-- Return the digest and change nothing. -/
  | digest
  /-- Add and return the flag. -/
  | stickyAdd
  | signedIncrement
  | signedNegate
  /-- Arithmetic right shift by the low 32 bits of the operand. -/
  | signedShr
  | signedDiv
deriving DecidableEq, Inhabited

/-- A signed result stored as bits, and returned as a signed value. -/
def viewSigned (target : UInt128) : Except Fault Int128 → UInt128 × Outcome
  | .ok value => (value.bits, .signed value)
  | .error fault => (target, .fault fault)

/-- The low 32 bits of a value. -/
def lowWord (a : UInt128) : UInt32 := a.low.toUInt32

/-- What an instruction makes of the target `a` with the operand `s`. -/
def unsignedAct (instruction : UnsignedInstruction) (a s : UInt128) : UInt128 × Outcome :=
  match instruction with
  | .set => (s, .nothing)
  | .add => (a + s, .nothing)
  | .sub => (a - s, .nothing)
  | .mul => (a * s, .nothing)
  | .div => orFault a (a.div s)
  | .rem => orFault a (a.rem s)
  | .and => (a &&& s, .nothing)
  | .or => (a ||| s, .nothing)
  | .xor => (a ^^^ s, .nothing)
  | .shl => orFault a (a.shiftBy .left (.wide s))
  | .shr => orFault a (a.shiftBy .right (.wide s))
  | .not => (~~~a, .nothing)
  | .zeroize => (.zero, .nothing)
  | .increment => (a + .one, .unsigned (a + .one))
  | .decrement => (a - .one, .unsigned (a - .one))
  | .postIncrement => (a + .one, .unsigned a)
  | .postDecrement => (a - .one, .unsigned a)
  | .checkedMul => stored a (a.mul? s)
  | .addLimb => (a.addLimb s.low, .nothing)
  | .subLimb => (a.subLimb s.low, .nothing)
  | .rotateLeft => (a.rotateLeft (lowWord s), .nothing)
  | .gcd => (a.gcd s, .nothing)
  | .digest => (a, .limb a.digest)
  | .stickyAdd => ((a.overflowingAdd s).1, .flag (a.overflowingAdd s).2)
  | .signedIncrement => viewSigned a (.ok (⟨a⟩ + .one))
  | .signedNegate => viewSigned a (.ok (-⟨a⟩))
  | .signedShr => viewSigned a (Int128.shrBy ⟨a⟩ (.word (lowWord s)))
  | .signedDiv => viewSigned a (Int128.div ⟨a⟩ ⟨s⟩)

/-- A run of the unsigned machine. -/
def runUnsigned {n : Nat} (registers : Vector UInt128 n)
    (program : List (Step UnsignedInstruction n UInt128)) :
    List (Outcome × UInt128) × Vector UInt128 n :=
  run unsignedAct registers program

end TwoLimb.Machine
