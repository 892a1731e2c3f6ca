/-
# Updates in place

An operator that assigns to its left operand reads a register, computes, and stores the
result in the register. A computation of this kind may stop with a fault, and it leaves
a value in the register even then. What the operators, the shifts and the counters do is
written once for every type of registers that has an arithmetic.

An unsigned register may be viewed as a signed one: what happens to the view happens to
the bits.
-/

import TwoLimb.Int128.Division
import TwoLimb.Int128.Shift

namespace TwoLimb.InPlace

/-- A computation on a register. It returns a value or stops with a fault, and leaves a
value in the register either way. -/
abbrev Update (α : Type) : Type → Type := ExceptT Fault (StateM α)

/-- What an update returns, and the value it leaves in a register that holds `value`. -/
def Update.on {α β : Type} (update : Update α β) (value : α) : Except Fault β × α :=
  (update.run.run value).run

/-- What follows an update goes on from the value that it leaves, unless it stops. -/
theorem Update.on_bind {α β γ : Type} (update : Update α β) (next : β → Update α γ) (a : α) :
    Update.on (update >>= next) a =
      match update.on a with
      | (.ok result, b) => (next result).on b
      | (.error fault, b) => (.error fault, b) := by
  change (ExceptT.bindCont next (update.on a).1).run (update.on a).2 = _
  rcases update.on a with ⟨result | fault, b⟩ <;> rfl

/-- The operators that assign to their left operand. -/
inductive Operator
  | add
  | sub
  | mul
  | div
  | rem
  | and
  | or
  | xor
deriving DecidableEq, Inhabited

/-- The arithmetic of the values that a register holds. -/
class Arithmetic (α : Type) where
  /-- The value with the given bits. -/
  ofBits : UInt128 → α
  one : α
  operate : Operator → α → α → Except Fault α
  shift : α → Direction → ShiftCount → Except Fault α

instance : Arithmetic UInt128 where
  ofBits bits := bits
  one := .one
  operate
    | .add, a, b => .ok (a + b)
    | .sub, a, b => .ok (a - b)
    | .mul, a, b => .ok (a * b)
    | .div, a, b => a.div b
    | .rem, a, b => a.rem b
    | .and, a, b => .ok (a &&& b)
    | .or, a, b => .ok (a ||| b)
    | .xor, a, b => .ok (a ^^^ b)
  shift := UInt128.shiftBy

instance : Arithmetic Int128 where
  ofBits bits := ⟨bits⟩
  one := .one
  operate
    | .add, a, b => .ok (a + b)
    | .sub, a, b => .ok (a - b)
    | .mul, a, b => .ok (a * b)
    | .div, a, b => a.div b
    | .rem, a, b => a.rem b
    | .and, a, b => .ok (a &&& b)
    | .or, a, b => .ok (a ||| b)
    | .xor, a, b => .ok (a ^^^ b)
  shift := Int128.shiftBy

/-- The four ways to count by one: up or down, returning the new value or the previous
one. -/
inductive Counter
  | increment
  | decrement
  | postIncrement
  | postDecrement
deriving DecidableEq, Inhabited

/-- The types of shift amounts that registers of either type take. -/
inductive AmountKind
  | byte
  | half
  | word
  | limb
  | size
  | int
deriving DecidableEq, Inhabited

/-- The lowest bits of a value as an amount. -/
def AmountKind.amount (bits : UInt128) : AmountKind → ShiftCount
  | .byte => .byte bits.low.toUInt8
  | .half => .half bits.low.toUInt16
  | .word => .word bits.low.toUInt32
  | .limb => .limb bits.low
  | .size => .size bits.low
  | .int => .int bits.low.toUInt32.toInt32

section Updates

variable {α : Type}

/-- Replace the value by what is computed of it. -/
def assign (compute : α → Except Fault α) : Update α Unit := do
  match compute (← get) with
  | .ok value => set value
  | .error fault => throw fault

/-- Nothing is assigned when the computation stops. -/
theorem on_assign (compute : α → Except Fault α) (a : α) :
    (assign compute).on a =
      match compute a with
      | .ok b => (.ok (), b)
      | .error fault => (.error fault, a) := by
  have hassign : assign compute = get >>= fun value =>
      match compute value with
      | .ok b => set b
      | .error fault => throw fault := rfl
  rw [hassign, Update.on_bind]
  change Update.on (match compute a with
    | .ok b => set b
    | .error fault => throw fault : Update α Unit) a = _
  cases compute a <;> rfl

variable [Arithmetic α]

/-- Assign the result of an operator with the given right operand. -/
def operate (operator : Operator) (operand : α) : Update α Unit :=
  assign fun value => Arithmetic.operate operator value operand

/-- Assign the result of a shift. -/
def shift (direction : Direction) (amount : ShiftCount) : Update α Unit :=
  assign fun value => Arithmetic.shift value direction amount

/-- Count by one and return what the counter returns. -/
def count : Counter → Update α α
  | .increment => do
      operate .add Arithmetic.one
      get
  | .decrement => do
      operate .sub Arithmetic.one
      get
  | .postIncrement => do
      let previous ← get
      operate .add Arithmetic.one
      return previous
  | .postDecrement => do
      let previous ← get
      operate .sub Arithmetic.one
      return previous

end Updates

/-- What an update of a signed register does to the bits of an unsigned one. -/
def viewSigned {β : Type} (update : Update Int128 β) : Update UInt128 β := fun bits =>
  let (result, value) := update.on ⟨bits⟩
  (result, value.bits)

theorem on_viewSigned {β : Type} (update : Update Int128 β) (bits : UInt128) :
    (viewSigned update).on bits = ((update.on ⟨bits⟩).1, (update.on ⟨bits⟩).2.bits) :=
  rfl

/-- The instructions that change registers of either type. -/
inductive Instruction
  | operate (operator : Operator)
  | shift (direction : Direction) (kind : AmountKind)
  | count (counter : Counter)
deriving DecidableEq, Inhabited

/-- What an instruction does with the bits of its source. Only counters return a value. -/
def Instruction.update {α : Type} [Arithmetic α] (source : UInt128) :
    Instruction → Update α (Option α)
  | .operate operator => do
      InPlace.operate operator (Arithmetic.ofBits source)
      return none
  | .shift direction kind => do
      InPlace.shift direction (kind.amount source)
      return none
  | .count counter => do return some (← InPlace.count counter)

/-- The instructions that change unsigned registers. -/
inductive UnsignedInstruction
  | common (instruction : Instruction)
  /-- Add the low limb of the source. -/
  | addLimb
  /-- Subtract the low limb of the source. -/
  | subLimb
  /-- Shift by the whole source. -/
  | shiftWide (direction : Direction)
deriving DecidableEq, Inhabited

/-- What an instruction for unsigned registers does with its source. -/
def UnsignedInstruction.update (source : UInt128) :
    UnsignedInstruction → Update UInt128 (Option UInt128)
  | .common instruction => instruction.update source
  | .addLimb => do
      assign fun value => .ok (value.addLimb source.low)
      return none
  | .subLimb => do
      assign fun value => .ok (value.subLimb source.low)
      return none
  | .shiftWide direction => do
      shift direction (.wide source)
      return none

end TwoLimb.InPlace
