/-
# Signed overflow

Sums and differences leave the signed range exactly when the signs of the operands
allow it and the sign of the result is not theirs. A product leaves it when the
product of the magnitudes does not fit the sign it gets; the limit `2^127` itself
fits only a negative result.
-/

import TwoLimb.Int128.Basic

namespace TwoLimb.Int128

/-- The sum modulo `2^128`, and whether the exact sum is no signed value. -/
def overflowingAdd (a b : Int128) : Int128 × Bool :=
  let sum := a + b
  (sum, a.isNegative == b.isNegative && sum.isNegative != a.isNegative)

/-- The difference modulo `2^128`, and whether the exact one is no signed value. -/
def overflowingSub (a b : Int128) : Int128 × Bool :=
  let difference := a - b
  (difference, a.isNegative != b.isNegative && difference.isNegative != a.isNegative)

/-- The product modulo `2^128`, and whether the exact product is no signed value. -/
def overflowingMul (a b : Int128) : Int128 × Bool :=
  let (magnitude, overflow) := a.unsignedAbs.overflowingMul b.unsignedAbs
  let limit := min.bits
  let fits :=
    if a.isNegative != b.isNegative then !magnitude.isGreaterThan limit
    else magnitude.isLessThan limit
  (a * b, overflow || !fits)

/-- The exact sum, if it is a signed value. -/
def add? (a b : Int128) : Option Int128 := unflagged (a.overflowingAdd b)

/-- The exact difference, if it is a signed value. -/
def sub? (a b : Int128) : Option Int128 := unflagged (a.overflowingSub b)

/-- The exact product, if it is a signed value. -/
def mul? (a b : Int128) : Option Int128 := unflagged (a.overflowingMul b)

/-- The end of the signed range on the given side. -/
def bound (negative : Bool) : Int128 := if negative then min else max

/-- The exact sum, or the end of the range on the side of the second summand. -/
def saturatingAdd (a b : Int128) : Int128 :=
  orElseFlagged (bound b.isNegative) (a.overflowingAdd b)

/-- The exact difference, or the end of the range away from the subtrahend. -/
def saturatingSub (a b : Int128) : Int128 :=
  orElseFlagged (bound !b.isNegative) (a.overflowingSub b)

/-- The exact product, or the end of the range on the side of its sign. -/
def saturatingMul (a b : Int128) : Int128 :=
  orElseFlagged (bound (a.isNegative != b.isNegative)) (a.overflowingMul b)

end TwoLimb.Int128
