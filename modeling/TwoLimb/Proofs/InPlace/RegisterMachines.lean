/-
# Register machines in place

The unsigned and the signed machine have registers of one type. Those of their instructions
that are operators, shifts or counters do what a step in place does to the same registers,
and report the same fault. So a run of these instructions is a run in place, and what holds
of runs in place holds of it.
-/

import Mathlib.Data.List.Forall2
import TwoLimb.Machine.Signed
import TwoLimb.Machine.Unsigned
import TwoLimb.Proofs.InPlace.Refinement

namespace TwoLimb.InPlace

/-- An outcome tells what a step returns. Where an instruction divides or shifts a view it
also tells the signed value that is left, which the step does not return. -/
inductive Reports : Except Fault (Option Word) → Machine.Outcome → Prop
  | nothing : Reports (.ok none) .nothing
  | unsigned (value : UInt128) : Reports (.ok (some (.unsigned value))) (.unsigned value)
  | signed (value : Int128) : Reports (.ok (some (.signed value))) (.signed value)
  | viewed (value : Int128) : Reports (.ok none) (.signed value)
  | fault (fault : Fault) : Reports (.error fault) (.fault fault)

/-- An update leaves the value that an instruction makes, and the outcome of the instruction
tells what the update returns. -/
def Performs {α β : Type} (word : β → Word) (update : Except Fault (Option β) × α)
    (act : α × Machine.Outcome) : Prop :=
  update.2 = act.1 ∧ Reports (update.1.map (Option.map word)) act.2

theorem performs_assign {α : Type} (word : α → Word) (compute : α → Except Fault α) (a : α) :
    Performs word (Update.on (do assign compute; return none) a)
      (Machine.orFault a (compute a)) := by
  rw [Update.on_bind, on_assign]
  cases compute a with
  | ok b => exact ⟨rfl, .nothing⟩
  | error fault => exact ⟨rfl, .fault fault⟩

theorem performs_viewed (compute : Int128 → Except Fault Int128) (a : UInt128) :
    Performs Word.signed (Update.on (viewSigned (do assign compute; return none)) a)
      (Machine.viewSigned a (compute ⟨a⟩)) := by
  rw [on_viewSigned, Update.on_bind, on_assign]
  cases compute ⟨a⟩ with
  | ok b => exact ⟨rfl, .viewed b⟩
  | error fault => exact ⟨rfl, .fault fault⟩

section Instructions

/-- The instructions of the unsigned machine that update their target in place. -/
def unsignedUpdate? : Machine.UnsignedInstruction → Option UnsignedInstruction
  | .add => some (.common (.operate .add))
  | .sub => some (.common (.operate .sub))
  | .mul => some (.common (.operate .mul))
  | .div => some (.common (.operate .div))
  | .rem => some (.common (.operate .rem))
  | .and => some (.common (.operate .and))
  | .or => some (.common (.operate .or))
  | .xor => some (.common (.operate .xor))
  | .shl => some (.shiftWide .left)
  | .shr => some (.shiftWide .right)
  | .increment => some (.common (.count .increment))
  | .decrement => some (.common (.count .decrement))
  | .postIncrement => some (.common (.count .postIncrement))
  | .postDecrement => some (.common (.count .postDecrement))
  | .addLimb => some .addLimb
  | .subLimb => some .subLimb
  | _ => none

/-- The instructions of the unsigned machine that update a view of their target in place. -/
def viewedUpdate? : Machine.UnsignedInstruction → Option Instruction
  | .signedIncrement => some (.count .increment)
  | .signedShr => some (.shift .right .word)
  | .signedDiv => some (.operate .div)
  | _ => none

/-- The instructions of the signed machine that update their target in place. -/
def signedUpdate? : Machine.SignedInstruction → Option Instruction
  | .add => some (.operate .add)
  | .sub => some (.operate .sub)
  | .mul => some (.operate .mul)
  | .div => some (.operate .div)
  | .rem => some (.operate .rem)
  | .and => some (.operate .and)
  | .or => some (.operate .or)
  | .xor => some (.operate .xor)
  | .shl => some (.shift .left .int)
  | .shr => some (.shift .right .int)
  | .increment => some (.count .increment)
  | .decrement => some (.count .decrement)
  | .postIncrement => some (.count .postIncrement)
  | .postDecrement => some (.count .postDecrement)
  | _ => none

theorem performs_unsignedAct {act : Machine.UnsignedInstruction}
    {instruction : UnsignedInstruction} (hact : unsignedUpdate? act = some instruction)
    (a s : UInt128) :
    Performs Word.unsigned ((instruction.update s).on a) (Machine.unsignedAct act a s) := by
  cases act <;> cases hact
  case increment | decrement | postIncrement | postDecrement => exact ⟨rfl, .unsigned _⟩
  all_goals exact performs_assign Word.unsigned _ a

theorem performs_viewedAct {act : Machine.UnsignedInstruction} {instruction : Instruction}
    (hact : viewedUpdate? act = some instruction) (a s : UInt128) :
    Performs Word.signed ((viewSigned (instruction.update s)).on a)
      (Machine.unsignedAct act a s) := by
  cases act <;> cases hact
  case signedIncrement => exact ⟨rfl, .signed _⟩
  all_goals exact performs_viewed _ a

theorem performs_signedAct {act : Machine.SignedInstruction} {instruction : Instruction}
    (hact : signedUpdate? act = some instruction) (a s : Int128) :
    Performs Word.signed ((instruction.update s.bits).on a) (Machine.signedAct act a s) := by
  cases act <;> cases hact
  case increment | decrement | postIncrement | postDecrement => exact ⟨rfl, .signed _⟩
  all_goals exact performs_assign Word.signed _ a

end Instructions

/-- A step in place does what a step of a register machine does. -/
def SameStep {ι α : Type} {k m n : Nat} (act : ι → α → α → α × Machine.Outcome)
    (file : Vector α k → Registers m n) (s : Machine.Step ι k α) (t : Step m n) : Prop :=
  ∀ registers : Vector α k,
    (step (file registers) t).2 = file (Machine.step act registers s).2 ∧
      Reports (step (file registers) t).1 (Machine.step act registers s).1

/-- Steps that do the same make runs that do the same. -/
theorem run_of_sameStep {ι α : Type} {k m n : Nat} {act : ι → α → α → α × Machine.Outcome}
    {file : Vector α k → Registers m n} {program : List (Machine.Step ι k α)}
    {steps : List (Step m n)} (hsteps : List.Forall₂ (SameStep act file) program steps)
    (registers : Vector α k) :
    (run (file registers) steps).2 = file (Machine.run act registers program).2 ∧
      List.Forall₂ Reports (run (file registers) steps).1
        ((Machine.run act registers program).1.map Prod.fst) := by
  induction hsteps generalizing registers with
  | nil => exact ⟨rfl, .nil⟩
  | cons hstep hrest ih =>
      obtain ⟨hregisters, hreports⟩ := hstep registers
      obtain ⟨hlast, hresults⟩ := ih (Machine.step act registers _).2
      rw [← hregisters] at hlast hresults
      exact ⟨hlast, .cons hreports hresults⟩

section Runs

variable {n : Nat}

/-- Registers of the unsigned machine. -/
def ofUnsigned (registers : Vector UInt128 n) : Registers n 0 := ⟨registers, #v[]⟩

/-- Registers of the signed machine. -/
def ofSigned (registers : Vector Int128 n) : Registers 0 n := ⟨#v[], registers⟩

def unsignedSource : Machine.Operand n UInt128 → Source n 0
  | .immediate value => .immediate value
  | .register index => .unsigned index

def signedSource : Machine.Operand n Int128 → Source 0 n
  | .immediate value => .immediate value.bits
  | .register index => .signed index

/-- A step of the unsigned machine and the step in place with its instruction. -/
inductive UnsignedStep :
    Machine.Step Machine.UnsignedInstruction n UInt128 → Step n 0 → Prop
  | unsigned {act : Machine.UnsignedInstruction} {instruction : UnsignedInstruction}
      (hact : unsignedUpdate? act = some instruction) (target : Fin n)
      (operand : Machine.Operand n UInt128) :
      UnsignedStep ⟨act, target, operand⟩ (.unsigned target instruction (unsignedSource operand))
  | viewed {act : Machine.UnsignedInstruction} {instruction : Instruction}
      (hact : viewedUpdate? act = some instruction) (target : Fin n)
      (operand : Machine.Operand n UInt128) :
      UnsignedStep ⟨act, target, operand⟩ (.viewed target instruction (unsignedSource operand))

/-- A step of the signed machine and the step in place with its instruction. -/
inductive SignedStep : Machine.Step Machine.SignedInstruction n Int128 → Step 0 n → Prop
  | signed {act : Machine.SignedInstruction} {instruction : Instruction}
      (hact : signedUpdate? act = some instruction) (target : Fin n)
      (operand : Machine.Operand n Int128) :
      SignedStep ⟨act, target, operand⟩ (.signed target instruction (signedSource operand))

theorem bits_unsignedSource (registers : Vector UInt128 n) (operand : Machine.Operand n UInt128) :
    (unsignedSource operand).bits (ofUnsigned registers) = operand.value registers := by
  cases operand <;> rfl

theorem bits_signedSource (registers : Vector Int128 n) (operand : Machine.Operand n Int128) :
    (signedSource operand).bits (ofSigned registers) = (operand.value registers).bits := by
  cases operand <;> rfl

theorem UnsignedStep.sameStep {s : Machine.Step Machine.UnsignedInstruction n UInt128}
    {t : Step n 0} (hstep : UnsignedStep s t) : SameStep Machine.unsignedAct ofUnsigned s t := by
  intro registers
  cases hstep with
  | unsigned hact target operand =>
      obtain ⟨hvalue, hreports⟩ :=
        performs_unsignedAct hact registers[target] (operand.value registers)
      rw [step, bits_unsignedSource]
      exact ⟨congrArg ((ofUnsigned registers).setUnsigned target) hvalue, hreports⟩
  | viewed hact target operand =>
      obtain ⟨hvalue, hreports⟩ :=
        performs_viewedAct hact registers[target] (operand.value registers)
      rw [step, bits_unsignedSource]
      exact ⟨congrArg ((ofUnsigned registers).setUnsigned target) hvalue, hreports⟩

theorem SignedStep.sameStep {s : Machine.Step Machine.SignedInstruction n Int128}
    {t : Step 0 n} (hstep : SignedStep s t) : SameStep Machine.signedAct ofSigned s t := by
  intro registers
  cases hstep with
  | signed hact target operand =>
      obtain ⟨hvalue, hreports⟩ :=
        performs_signedAct hact registers[target] (operand.value registers)
      rw [step, bits_signedSource]
      exact ⟨congrArg ((ofSigned registers).setSigned target) hvalue, hreports⟩

/-- A run of the unsigned machine by instructions in place is a run in place. -/
theorem runUnsigned_in_place (registers : Vector UInt128 n)
    {program : List (Machine.Step Machine.UnsignedInstruction n UInt128)}
    {steps : List (Step n 0)} (hsteps : List.Forall₂ UnsignedStep program steps) :
    (run (ofUnsigned registers) steps).2 = ofUnsigned (Machine.runUnsigned registers program).2 ∧
      List.Forall₂ Reports (run (ofUnsigned registers) steps).1
        ((Machine.runUnsigned registers program).1.map Prod.fst) :=
  run_of_sameStep (hsteps.imp fun _ _ => UnsignedStep.sameStep) registers

/-- A run of the signed machine by instructions in place is a run in place. -/
theorem runSigned_in_place (registers : Vector Int128 n)
    {program : List (Machine.Step Machine.SignedInstruction n Int128)}
    {steps : List (Step 0 n)} (hsteps : List.Forall₂ SignedStep program steps) :
    (run (ofSigned registers) steps).2 = ofSigned (Machine.runSigned registers program).2 ∧
      List.Forall₂ Reports (run (ofSigned registers) steps).1
        ((Machine.runSigned registers program).1.map Prod.fst) :=
  run_of_sameStep (hsteps.imp fun _ _ => SignedStep.sameStep) registers

end Runs

end TwoLimb.InPlace
