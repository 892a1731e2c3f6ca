/-
# Division of signed integers

Magnitudes are divided as unsigned integers and the signs put back afterwards: the
quotient is negative when the signs differ, the remainder has the sign of the
dividend. So division truncates towards zero. Euclidean division moves the quotient
by one, away from the divisor's sign, when the remainder is negative.
-/

import TwoLimb.Int128.Basic
import TwoLimb.UInt128.Division

namespace TwoLimb.Int128

/-- The value with the given magnitude, negated when asked to. -/
def ofMagnitude (negative : Bool) (magnitude : UInt128) : Int128 :=
  ⟨if negative then -magnitude else magnitude⟩

/-- Quotient and remainder of magnitudes with the signs of the operands. -/
def restoreSigns (a b : Int128) (magnitudes : DivMod UInt128) : DivMod Int128 :=
  ⟨ofMagnitude (a.isNegative != b.isNegative) magnitudes.quotient,
    ofMagnitude a.isNegative magnitudes.remainder⟩

/-- Truncated quotient and remainder for a divisor that is not zero. -/
def divMod (a b : Int128) : DivMod Int128 :=
  a.restoreSigns b (a.unsignedAbs.divMod b.unsignedAbs)

/-- Truncated quotient and remainder, none for divisor zero. -/
def divMod? (a b : Int128) : Option (DivMod Int128) :=
  (a.unsignedAbs.divMod? b.unsignedAbs).map (a.restoreSigns b)

/-- Truncated quotient and remainder, an error for divisor zero. -/
def divModOrError (a b : Int128) : Except Error (DivMod Int128) :=
  match a.divMod? b with
  | some result => .ok result
  | none => .error .divideByZero

/-- The one pair of operands, besides those with divisor zero, whose exact quotient
is no signed value. -/
def quotientOverflows (a b : Int128) : Bool :=
  a.bits.equals min.bits && b.bits.equals negOne.bits

/-- The exact truncated quotient, if there is one and it is a signed value. -/
def div? (a b : Int128) : Option Int128 :=
  if a.quotientOverflows b then none else (a.divMod? b).map DivMod.quotient

/-- The remainder, if the quotient is a signed value. -/
def rem? (a b : Int128) : Option Int128 :=
  if a.quotientOverflows b then none else (a.divMod? b).map DivMod.remainder

/-- The quotient operator, a fault for divisor zero. -/
def div (a b : Int128) : Except Fault Int128 :=
  match a.divMod? b with
  | some result => .ok result.quotient
  | none => .error .divisionByZero

/-- The remainder operator, a fault for divisor zero. -/
def rem (a b : Int128) : Except Fault Int128 :=
  match a.divMod? b with
  | some result => .ok result.remainder
  | none => .error .remainderByZero

/-- The quotient that leaves a remainder of zero or more. -/
def divEuclid (a b : Int128) : Except Error Int128 :=
  match a.divModOrError b with
  | .error error => .error error
  | .ok ⟨quotient, remainder⟩ =>
      if remainder.isNegative then
        .ok (if b.isNegative then quotient + one else quotient - one)
      else .ok quotient

/-- The remainder of zero or more. -/
def remEuclid (a b : Int128) : Except Error Int128 :=
  match a.divModOrError b with
  | .error error => .error error
  | .ok ⟨_, remainder⟩ =>
      if remainder.isNegative then .ok (remainder + ⟨b.unsignedAbs⟩) else .ok remainder

end TwoLimb.Int128
