/-
# Powers

Square and multiply: the exponent is read from its lowest bit upwards, and the
base is squared between bits. The last square would serve no further bit and is
not computed, so the refusing form never refuses on its account.
-/

import TwoLimb.UInt128.Arithmetic

namespace TwoLimb.UInt128

/-- The product of `power` with `base` raised to the exponent, modulo `2^128`. -/
def powLoop (exponent : Nat) (base power : UInt128) : UInt128 :=
  if exponent = 0 then power
  else
    let power := if exponent % 2 = 1 then power * base else power
    if exponent / 2 = 0 then power else powLoop (exponent / 2) (base * base) power
termination_by exponent
decreasing_by omega

/-- The power modulo `2^128`; the power with exponent zero is one. -/
def pow (a : UInt128) (exponent : UInt32) : UInt128 := powLoop exponent.toNat a one

/-- The product of `power` with `base` raised to the exponent, if every product on
the way fits. -/
def powLoop? (exponent : Nat) (base power : UInt128) : Option UInt128 :=
  if exponent = 0 then some power
  else
    match if exponent % 2 = 1 then power.mul? base else some power with
    | none => none
    | some power =>
        if exponent / 2 = 0 then some power
        else
          match base.mul? base with
          | none => none
          | some square => powLoop? (exponent / 2) square power
termination_by exponent
decreasing_by omega

/-- The exact power, if it fits. -/
def pow? (a : UInt128) (exponent : UInt32) : Option UInt128 :=
  powLoop? exponent.toNat a one

end TwoLimb.UInt128
