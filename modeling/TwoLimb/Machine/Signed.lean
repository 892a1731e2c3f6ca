/-
# The signed machine

Registers hold signed values. Shift amounts are the low 32 bits of the operand, read
as a signed number, so a negative amount faults.
-/

import TwoLimb.Int128.Division
import TwoLimb.Int128.Overflow
import TwoLimb.Int128.Shift
import TwoLimb.Machine.Basic

namespace TwoLimb.Machine

/-- The instructions of the signed machine. -/
inductive SignedInstruction
  | set
  | add
  | sub
  | mul
  | div
  | rem
  | and
  | or
  | xor
  | shl
  | shr
  | not
  | zeroize
  | increment
  | decrement
  | postIncrement
  | postDecrement
  | checkedMul
  | neg
  | abs
  | signum
  | divEuclid
  | remEuclid
  | saturatingAdd
  | saturatingSub
  | saturatingMul
deriving DecidableEq, Inhabited

/-- The low 32 bits of a value as a signed shift amount. -/
def signedAmount (a : Int128) : ShiftCount := .int a.low.toUInt32.toInt32

/-- What an instruction makes of the target `a` with the operand `s`. -/
def signedAct (instruction : SignedInstruction) (a s : Int128) : Int128 × Outcome :=
  match instruction with
  | .set => (s, .nothing)
  | .add => (a + s, .nothing)
  | .sub => (a - s, .nothing)
  | .mul => (a * s, .nothing)
  | .div => orFault a (a.div s)
  | .rem => orFault a (a.rem s)
  | .and => (a &&& s, .nothing)
  | .or => (a ||| s, .nothing)
  | .xor => (a ^^^ s, .nothing)
  | .shl => orFault a (a.shlBy (signedAmount s))
  | .shr => orFault a (a.shrBy (signedAmount s))
  | .not => (~~~a, .nothing)
  | .zeroize => (.zero, .nothing)
  | .increment => (a + .one, .signed (a + .one))
  | .decrement => (a - .one, .signed (a - .one))
  | .postIncrement => (a + .one, .signed a)
  | .postDecrement => (a - .one, .signed a)
  | .checkedMul => stored a (a.mul? s)
  | .neg => (-a, .nothing)
  | .abs => (a.abs, .nothing)
  | .signum => (a.signum, .nothing)
  | .divEuclid => orError a (a.divEuclid s)
  | .remEuclid => orError a (a.remEuclid s)
  | .saturatingAdd => (a.saturatingAdd s, .nothing)
  | .saturatingSub => (a.saturatingSub s, .nothing)
  | .saturatingMul => (a.saturatingMul s, .nothing)

/-- A run of the signed machine. -/
def runSigned {n : Nat} (registers : Vector Int128 n)
    (program : List (Step SignedInstruction n Int128)) :
    List (Outcome × Int128) × Vector Int128 n :=
  run signedAct registers program

end TwoLimb.Machine
