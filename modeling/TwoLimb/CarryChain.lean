/-
# Carry chains

Numbers of any width are lists of words, lowest word first. They are added and
subtracted word by word, each step handing its carry or borrow to the next. A word
is a limb or a 128-bit value; what a chain needs of it is one step.
-/

import TwoLimb.UInt128.Arithmetic

namespace TwoLimb

/-- Words that are added and subtracted with a carry. -/
class CarryWord (α : Type) where
  /-- Sum of two words and a carry, with the carry out. -/
  addWithCarry : α → α → Bool → α × Bool
  /-- Difference of two words less a borrow, with the borrow out. -/
  subWithBorrow : α → α → Bool → α × Bool

instance : CarryWord Limb where
  addWithCarry := Engine.selected.addWithCarry
  subWithBorrow := Engine.selected.subWithBorrow

instance : CarryWord UInt128 where
  addWithCarry := Engine.selected.add
  subWithBorrow := Engine.selected.sub

namespace CarryChain

/-- The results of one step after the other over pairs of words, lowest first, each
with the carry out of its step, and the carry out of the last step. -/
def run {α : Type} (step : α → α → Bool → α × Bool) :
    List (α × α) → Bool → List (α × Bool) × Bool
  | [], carry => ([], carry)
  | (a, b) :: rest, carry =>
      let result := step a b carry
      let tail := run step rest result.2
      (result :: tail.1, tail.2)

variable {α : Type} [CarryWord α]

/-- The sum of two numbers of the same width and a carry. -/
def add (a b : List α) (carry : Bool) : List (α × Bool) × Bool :=
  run CarryWord.addWithCarry (a.zip b) carry

/-- The difference of two numbers of the same width less a borrow. -/
def sub (a b : List α) (borrow : Bool) : List (α × Bool) × Bool :=
  run CarryWord.subWithBorrow (a.zip b) borrow

end CarryChain

end TwoLimb
