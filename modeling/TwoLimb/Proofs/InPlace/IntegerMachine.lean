/-
# The integer machine

The integer machine runs the programs of the register machine on registers that hold
integers. An instruction computes with exact integers and reduces what it stores. A step
that the integers refuse, a division by zero or a shift by an amount that is not one of 0
to 127, changes nothing.
-/

import TwoLimb.InPlace.Machine
import TwoLimb.Proofs.InPlace.Integers

namespace TwoLimb.InPlace

section Machine

/-- The amount that the lowest binary digits of an integer are, in a given type. -/
def AmountKind.reduce (n : Int) : AmountKind → Int
  | .byte => n % 2 ^ 8
  | .half => n % 2 ^ 16
  | .word => n % 2 ^ 32
  | .limb | .size => n % 2 ^ 64
  | .int => n.bmod (2 ^ 32)

/-- A new integer for the target and an integer that is returned, or a fault. -/
abbrev Effect : Type := Except Fault (Int × Option Int)

/-- The effect of storing a result after reduction. Nothing is returned. -/
def stored (view : View) (result : Except Fault Int) : Effect :=
  (result.map view.reduce).map fun n => (n, none)

/-- The effect of a counter on the integer `x`. -/
def Counter.exact (view : View) (x : Int) : Counter → Effect
  | .increment => .ok (view.reduce (x + 1), some (view.reduce (x + 1)))
  | .decrement => .ok (view.reduce (x - 1), some (view.reduce (x - 1)))
  | .postIncrement => .ok (view.reduce (x + 1), some x)
  | .postDecrement => .ok (view.reduce (x - 1), some x)

/-- The effect of an instruction on the integer `x`. -/
def Instruction.exact (view : View) (source x : Int) : Instruction → Effect
  | .operate operator => stored view (operator.exact x (view.reduce source))
  | .shift direction kind => stored view (direction.exactBy x (kind.reduce source))
  | .count counter => counter.exact view x

/-- The effect of an instruction for unsigned registers on the integer `x`. -/
def UnsignedInstruction.exact (source x : Int) : UnsignedInstruction → Effect
  | .common instruction => instruction.exact .unsigned source x
  | .addLimb => stored .unsigned (.ok (x + source % 2 ^ 64))
  | .subLimb => stored .unsigned (.ok (x - source % 2 ^ 64))
  | .shiftWide direction =>
      stored .unsigned (direction.exactBy x (View.unsigned.reduce source))

/-- Registers that hold integers. -/
abbrev Integers : Nat → Nat → Type := RegisterFile Int Int

variable {m n : Nat}

/-- The integer of a source before a step. -/
def Source.integer (registers : Integers m n) : Source m n → Int
  | .immediate bits => bits.toNat
  | .unsigned index => registers.unsigned.get index
  | .signed index => registers.signed.get index

/-- Carry an effect out: store the new integer, or change nothing after a fault. What is
returned is marked with the type it has. -/
def Integers.commit (registers : Integers m n) (view : View) (store : Int → Integers m n) :
    Effect → Except Fault (Option (View × Int)) × Integers m n
  | .ok (next, returned) => (.ok (returned.map fun n => (view, n)), store next)
  | .error fault => (.error fault, registers)

/-- One step of the integer machine. A view reads the integer of an unsigned register with
a sign, and stores it without. -/
def Integers.step (registers : Integers m n) :
    Step m n → Except Fault (Option (View × Int)) × Integers m n
  | .unsigned target instruction source =>
      registers.commit .unsigned (registers.setUnsigned target)
        (instruction.exact (source.integer registers) (registers.unsigned.get target))
  | .signed target instruction source =>
      registers.commit .signed (registers.setSigned target)
        (instruction.exact .signed (source.integer registers) (registers.signed.get target))
  | .viewed target instruction source =>
      registers.commit .signed (fun next => registers.setUnsigned target (View.unsigned.reduce next))
        (instruction.exact .signed (source.integer registers)
          (View.signed.reduce (registers.unsigned.get target)))

/-- A run of the integer machine. -/
def Integers.run (registers : Integers m n) :
    List (Step m n) → List (Except Fault (Option (View × Int))) × Integers m n
  | [] => ([], registers)
  | s :: rest =>
      let (result, next) := registers.step s
      let (results, last) := next.run rest
      (result :: results, last)

end Machine

section Refusals

/-- A computation that stops with a fault. -/
def Faults {β : Type} (result : Except Fault β) : Prop := ∃ fault : Fault, result = .error fault

/-- The operators that divide. -/
def Operator.Divides : Operator → Prop
  | .div | .rem => True
  | _ => False

/-- An instruction is refused for a divisor of zero and for an amount that is not one of 0
to 127. -/
def Instruction.IsRefused (view : View) (source : Int) : Instruction → Prop
  | .operate operator => operator.Divides ∧ view.reduce source = 0
  | .shift _ kind => ¬IsPlaces (kind.reduce source)
  | .count _ => False

def UnsignedInstruction.IsRefused (source : Int) : UnsignedInstruction → Prop
  | .common instruction => instruction.IsRefused .unsigned source
  | .addLimb | .subLimb => False
  | .shiftWide _ => ¬IsPlaces (View.unsigned.reduce source)

/-- A step is refused when its instruction is, for the integer of its source. -/
def Step.IsRefused {m n : Nat} (registers : Integers m n) : Step m n → Prop
  | .unsigned _ instruction source => instruction.IsRefused (source.integer registers)
  | .signed _ instruction source | .viewed _ instruction source =>
      instruction.IsRefused .signed (source.integer registers)

variable {β γ : Type}

@[simp]
theorem not_faults_ok (result : β) : ¬Faults (.ok result) := fun ⟨_, hfault⟩ => nomatch hfault

@[simp]
theorem faults_error (fault : Fault) : Faults (.error fault : Except Fault β) := ⟨fault, rfl⟩

@[simp]
theorem faults_map {result : Except Fault β} {f : β → γ} : Faults (result.map f) ↔ Faults result := by
  cases result with
  | ok value => exact iff_of_false (not_faults_ok _) (not_faults_ok _)
  | error fault => exact iff_of_true (faults_error fault) (faults_error fault)

@[simp]
theorem faults_stored {view : View} {result : Except Fault Int} :
    Faults (stored view result) ↔ Faults result :=
  faults_map.trans faults_map

theorem faults_operator {operator : Operator} {x y : Int} :
    Faults (operator.exact x y) ↔ operator.Divides ∧ y = 0 := by
  cases operator with
  | div | rem =>
      rw [Operator.exact, Operator.Divides, true_and]
      split
      · next hzero => exact iff_of_true (faults_error _) hzero
      · next hne => exact iff_of_false (not_faults_ok _) hne
  | _ => exact iff_of_false (not_faults_ok _) And.left

theorem faults_exactBy {direction : Direction} {x amount : Int} :
    Faults (direction.exactBy x amount) ↔ ¬IsPlaces amount := by
  rw [Direction.exactBy]
  split
  · next hplaces => exact iff_of_false (not_faults_ok _) (not_not_intro hplaces)
  · next hplaces => exact iff_of_true (faults_error _) hplaces

theorem faults_instruction {view : View} {source x : Int} {instruction : Instruction} :
    Faults (instruction.exact view source x) ↔ instruction.IsRefused view source := by
  cases instruction with
  | operate operator => exact faults_stored.trans faults_operator
  | shift direction kind => exact faults_stored.trans faults_exactBy
  | count counter => cases counter <;> exact iff_of_false (not_faults_ok _) id

theorem faults_unsignedInstruction {source x : Int} {instruction : UnsignedInstruction} :
    Faults (instruction.exact source x) ↔ instruction.IsRefused source := by
  cases instruction with
  | common instruction => exact faults_instruction
  | addLimb | subLimb => exact iff_of_false (mt faults_stored.mp (not_faults_ok _)) id
  | shiftWide direction => exact faults_stored.trans faults_exactBy

variable {m n : Nat}

theorem faults_commit {registers : Integers m n} {view : View} {store : Int → Integers m n}
    {effect : Effect} : Faults (registers.commit view store effect).1 ↔ Faults effect := by
  cases effect with
  | ok result => exact iff_of_false (not_faults_ok _) (not_faults_ok _)
  | error fault => exact iff_of_true (faults_error fault) (faults_error fault)

/-- A step of the integer machine faults exactly when it is refused. -/
theorem faults_step {registers : Integers m n} {s : Step m n} :
    Faults (registers.step s).1 ↔ s.IsRefused registers := by
  cases s with
  | unsigned target instruction source => exact faults_commit.trans faults_unsignedInstruction
  | signed target instruction source | viewed target instruction source =>
      exact faults_commit.trans faults_instruction

theorem commit_of_faults {registers : Integers m n} {view : View} {store : Int → Integers m n}
    {effect : Effect} (hfaults : Faults (registers.commit view store effect).1) :
    (registers.commit view store effect).2 = registers := by
  obtain ⟨fault, rfl⟩ := faults_commit.mp hfaults
  rfl

/-- A fault changes no integer. -/
theorem step_of_faults {registers : Integers m n} {s : Step m n}
    (hfaults : Faults (registers.step s).1) : (registers.step s).2 = registers := by
  cases s with
  | unsigned | signed | viewed => exact commit_of_faults hfaults

end Refusals

end TwoLimb.InPlace
