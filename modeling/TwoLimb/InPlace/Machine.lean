/-
# A machine with registers of both types

A register file has unsigned and signed registers. A step names a target, an instruction
and a source. It updates the target in place, viewed as signed if the step says so, and
touches no other register. The source is read before the target changes, so it may be the
target itself.
-/

import TwoLimb.InPlace.Update

namespace TwoLimb.InPlace

/-- A register file with values of one type in its unsigned registers and of another in its
signed ones. -/
structure RegisterFile (α β : Type) (m n : Nat) where
  unsigned : Vector α m
  signed : Vector β n
deriving DecidableEq

namespace RegisterFile

variable {α β : Type} {m n : Nat}

/-- Store a value in an unsigned register. -/
def setUnsigned (registers : RegisterFile α β m n) (target : Fin m) (value : α) :
    RegisterFile α β m n :=
  { registers with unsigned := registers.unsigned.set target value target.isLt }

/-- Store a value in a signed register. -/
def setSigned (registers : RegisterFile α β m n) (target : Fin n) (value : β) :
    RegisterFile α β m n :=
  { registers with signed := registers.signed.set target value target.isLt }

/-- A register that gets the value it holds changes nothing. -/
theorem setUnsigned_get (registers : RegisterFile α β m n) (target : Fin m) :
    registers.setUnsigned target (registers.unsigned.get target) = registers :=
  congrArg (fun unsigned => RegisterFile.mk unsigned registers.signed)
    (Vector.set_getElem_self target.isLt)

theorem setSigned_get (registers : RegisterFile α β m n) (target : Fin n) :
    registers.setSigned target (registers.signed.get target) = registers :=
  congrArg (RegisterFile.mk registers.unsigned) (Vector.set_getElem_self target.isLt)

end RegisterFile

/-- The registers of the machine. -/
abbrev Registers : Nat → Nat → Type := RegisterFile UInt128 Int128

/-- Where an instruction takes its right operand from: given bits, or the bits of a
register. -/
inductive Source (m n : Nat)
  | immediate (bits : UInt128)
  | unsigned (index : Fin m)
  | signed (index : Fin n)
deriving DecidableEq

/-- One step of a program. -/
inductive Step (m n : Nat)
  | unsigned (target : Fin m) (instruction : UnsignedInstruction) (source : Source m n)
  | signed (target : Fin n) (instruction : Instruction) (source : Source m n)
  /-- A step on an unsigned register that is viewed as signed. -/
  | viewed (target : Fin m) (instruction : Instruction) (source : Source m n)
deriving DecidableEq

/-- A value that a step returns. -/
inductive Word
  | unsigned (value : UInt128)
  | signed (value : Int128)
deriving DecidableEq

variable {m n : Nat}

/-- The bits of a source before a step. -/
def Source.bits (registers : Registers m n) : Source m n → UInt128
  | .immediate bits => bits
  | .unsigned index => registers.unsigned.get index
  | .signed index => (registers.signed.get index).bits

/-- One step: what it returns, and the registers after it. -/
def step (registers : Registers m n) :
    Step m n → Except Fault (Option Word) × Registers m n
  | .unsigned target instruction source =>
      let (result, value) :=
        (instruction.update (source.bits registers)).on (registers.unsigned.get target)
      (result.map (Option.map .unsigned), registers.setUnsigned target value)
  | .signed target instruction source =>
      let (result, value) :=
        (instruction.update (source.bits registers)).on (registers.signed.get target)
      (result.map (Option.map .signed), registers.setSigned target value)
  | .viewed target instruction source =>
      let (result, value) :=
        (viewSigned (instruction.update (source.bits registers))).on (registers.unsigned.get target)
      (result.map (Option.map .signed), registers.setUnsigned target value)

/-- A run: what each step returns, and the registers at the end. A program goes on after a
fault. -/
def run (registers : Registers m n) :
    List (Step m n) → List (Except Fault (Option Word)) × Registers m n
  | [] => ([], registers)
  | s :: rest =>
      let (result, next) := step registers s
      let (results, last) := run next rest
      (result :: results, last)

end TwoLimb.InPlace
