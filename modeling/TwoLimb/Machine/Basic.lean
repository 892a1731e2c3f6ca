/-
# Register machines

A machine has a fixed number of registers that all hold values of one type. A step
names an instruction, a target register and an operand; it changes the target at
most and returns an outcome. What an instruction does to the target is a function of
the target and the operand alone, so a machine is given by that function.
-/

import TwoLimb.Int128.Basic

namespace TwoLimb.Machine

/-- What a step returns besides the new value of its target. -/
inductive Outcome
  | nothing
  | unsigned (value : UInt128)
  | signed (value : Int128)
  | limb (value : Limb)
  | flag (value : Bool)
  /-- The instruction stopped with a fault. -/
  | fault (fault : Fault)
  /-- The instruction reported an error. -/
  | error (error : Error)
deriving DecidableEq, Inhabited

/-- The second operand of an instruction. -/
inductive Operand (n : Nat) (α : Type)
  | immediate (value : α)
  | register (index : Fin n)

/-- One step of a program. -/
structure Step (ι : Type) (n : Nat) (α : Type) where
  instruction : ι
  target : Fin n
  operand : Operand n α

variable {ι α : Type} {n : Nat}

/-- The value of an operand before a step. -/
def Operand.value (registers : Vector α n) : Operand n α → α
  | .immediate value => value
  | .register index => registers[index]

/-- One step: the outcome, and the registers after it. -/
def step (act : ι → α → α → α × Outcome) (registers : Vector α n) (s : Step ι n α) :
    Outcome × Vector α n :=
  let (value, outcome) :=
    act s.instruction registers[s.target] (s.operand.value registers)
  (outcome, registers.set s.target value)

/-- A run: the outcome and the new value of the target for every step in turn, and the
registers at the end. -/
def run (act : ι → α → α → α × Outcome) (registers : Vector α n) :
    List (Step ι n α) → List (Outcome × α) × Vector α n
  | [] => ([], registers)
  | s :: rest =>
      let (outcome, next) := step act registers s
      let (trace, last) := run act next rest
      ((outcome, next[s.target]) :: trace, last)

/-- An instruction that stops with a fault leaves its target as it is. -/
def orFault (target : α) : Except Fault α → α × Outcome
  | .ok value => (value, .nothing)
  | .error fault => (target, .fault fault)

/-- An instruction that reports an error leaves its target as it is. -/
def orError (target : α) : Except Error α → α × Outcome
  | .ok value => (value, .nothing)
  | .error error => (target, .error error)

/-- A product that is stored only if it is exact. -/
def stored (target : α) : Option α → α × Outcome
  | some value => (value, .flag true)
  | none => (target, .flag false)

end TwoLimb.Machine
