/-
# Shifts of signed integers

A left shift is the shift of the bits. A right shift keeps the sign: the complement
of a negative value is not negative, so a logical shift between two complements
fills with ones. The operators check their amount exactly as the unsigned ones do,
whatever the sign of the value.
-/

import TwoLimb.Int128.Basic

namespace TwoLimb.Int128

/-- Left shift by the amount modulo 128. -/
def wrappingShl (a : Int128) (amount : UInt32) : Int128 := ⟨a.bits.wrappingShl amount⟩

/-- Arithmetic right shift by the amount modulo 128. -/
def wrappingShr (a : Int128) (amount : UInt32) : Int128 :=
  if a.isNegative then ⟨~~~((~~~a.bits).wrappingShr amount)⟩ else ⟨a.bits.wrappingShr amount⟩

/-- Left shift, refused from 128 on. -/
def shl? (a : Int128) (amount : UInt32) : Option Int128 :=
  if amount < 128 then some (a.wrappingShl amount) else none

/-- Arithmetic right shift, refused from 128 on. -/
def shr? (a : Int128) (amount : UInt32) : Option Int128 :=
  if amount < 128 then some (a.wrappingShr amount) else none

/-- The left shift operator: a fault unless the amount is one of 0 to 127. -/
def shlBy (a : Int128) (amount : ShiftCount) : Except Fault Int128 :=
  (a.bits.shiftBy .left amount).map Int128.mk

/-- The right shift operator: a fault unless the amount is one of 0 to 127. -/
def shrBy (a : Int128) (amount : ShiftCount) : Except Fault Int128 :=
  if a.isNegative then
    ((~~~a.bits).shiftBy .right amount).map fun shifted => ⟨~~~shifted⟩
  else (a.bits.shiftBy .right amount).map Int128.mk

/-- The shift operator of the given direction. -/
def shiftBy (a : Int128) : Direction → ShiftCount → Except Fault Int128
  | .left => a.shlBy
  | .right => a.shrBy

end TwoLimb.Int128
