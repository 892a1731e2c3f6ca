/-
# Division of unsigned integers

There are three attitudes towards a zero divisor: report it as an error, answer
nothing, or fault. Whatever the attitude, a zero divisor is answered at once, and any
other divisor is passed on to the division of an engine. `DivisionCall` keeps the two
apart: it is a division as far as it goes without an engine. The members of the family
differ in what they report and in nothing else. `DivisionPath` names the way a division
takes; the traced form reports it in words before it divides.
-/

import TwoLimb.UInt128.Arithmetic

namespace TwoLimb

/-- A division as far as it goes without an engine. -/
inductive DivisionCall (α : Type)
  /-- There is an answer, and nothing left to divide. -/
  | answered (answer : α)
  /-- The engine has to divide, and the answer is made of its result. -/
  | passed (dividend divisor : UInt128) (finish : DivMod UInt128 → α)

/-- The answer of a division with an engine to pass it on to. -/
def DivisionCall.run {α : Type} (engine : Engine) : DivisionCall α → α
  | .answered answer => answer
  | .passed dividend divisor finish => finish (engine.divMod dividend divisor)

/-- Quotient and remainder, an error where there are none. -/
def orDivideByZero : Option (DivMod UInt128) → Except Error (DivMod UInt128)
  | some result => .ok result
  | none => .error .divideByZero

/-- The quotient, a fault where there is none. -/
def quotientOrFault : Option (DivMod UInt128) → Except Fault UInt128
  | some result => .ok result.quotient
  | none => .error .divisionByZero

/-- The remainder, a fault where there is none. -/
def remainderOrFault : Option (DivMod UInt128) → Except Fault UInt128
  | some result => .ok result.remainder
  | none => .error .remainderByZero

/-- The ways a division can take. -/
inductive DivisionPath
  /-- There is nothing to divide by. -/
  | zeroDivisor
  /-- The divisor is one limb: a limb division and a wide division. -/
  | oneLimb (divisor : Limb)
  /-- The divisor has two limbs and exceeds the dividend. -/
  | divisorExceeds
  /-- The divisor has two limbs: the given number of rounds of shift and subtract. -/
  | twoLimb (rounds : Nat)
deriving DecidableEq, Inhabited

namespace UInt128

/-- Quotient and remainder for a divisor that is not zero. -/
def divMod (a b : UInt128) : DivMod UInt128 := Engine.selected.divMod a b

/-- The division that reports what it finds: nothing for divisor zero, else quotient
and remainder. -/
def divisionCall {α : Type} (report : Option (DivMod UInt128) → α) (a b : UInt128) :
    DivisionCall α :=
  if b.isZero then .answered (report none)
  else .passed a b fun result => report (some result)

/-- The report of a division by the selected engine. -/
def divide {α : Type} (report : Option (DivMod UInt128) → α) (a b : UInt128) : α :=
  (divisionCall report a b).run Engine.selected

/-- Quotient and remainder, none for divisor zero. -/
def divMod? (a b : UInt128) : Option (DivMod UInt128) := divide id a b

/-- Quotient and remainder, an error for divisor zero. -/
def divModOrError (a b : UInt128) : Except Error (DivMod UInt128) :=
  divide orDivideByZero a b

/-- The quotient, none for divisor zero. -/
def div? (a b : UInt128) : Option UInt128 := divide (Option.map DivMod.quotient) a b

/-- The remainder, none for divisor zero. -/
def rem? (a b : UInt128) : Option UInt128 := divide (Option.map DivMod.remainder) a b

/-- The quotient operator, a fault for divisor zero. -/
def div (a b : UInt128) : Except Fault UInt128 := divide quotientOrFault a b

/-- The remainder operator, a fault for divisor zero. -/
def rem (a b : UInt128) : Except Fault UInt128 := divide remainderOrFault a b

/-- The way the division of two values takes, read off their limbs. -/
def divisionPath (a b : UInt128) : DivisionPath :=
  if b.isZero then .zeroDivisor
  else if b.high = 0 then .oneLimb b.low
  else if b.isGreaterThan a then .divisorExceeds
  else .twoLimb (b.leadingZeros - a.leadingZeros + 1)

end UInt128

end TwoLimb
