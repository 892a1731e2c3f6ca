/-
# Families of signed shifts

A right shift of a negative value is written twice, for amounts that are taken modulo 128 and
for the operators. Both complement the bits, shift them with zeros and complement them again,
and both come to the quotient rounded down. The amount is tested by the shift in the middle,
so a negative value refuses the amounts that any other value refuses.
-/

import TwoLimb.Proofs.Int128.Shift
import TwoLimb.Proofs.UInt128.ShiftFamily

namespace TwoLimb.Int128

/-- The shifts of signed values. -/
def shifts : Direction → ShiftFamily Int128
  | .left =>
      { wrapping := wrappingShl
        checked := shl?
        operator := fun a => a.shiftBy .left
        assigning := InPlace.shift .left }
  | .right =>
      { wrapping := wrappingShr
        checked := shr?
        operator := fun a => a.shiftBy .right
        assigning := InPlace.shift .right }

/-- A shift to the left is that of the bits, and multiplies as it does. -/
theorem toInt_wrappingShl (a : Int128) (amount : UInt32) :
    (a.wrappingShl amount).toInt = (a.toInt * 2 ^ (amount.toNat % 128)).bmod (2 ^ 128) := by
  rw [← UInt128.maskAmount_eq]
  exact a.toInt_mk_shl (UInt128.maskAmount_lt amount)

/-- A shift to the right fills with the sign, and divides rounding down. -/
theorem toInt_wrappingShr (a : Int128) (amount : UInt32) :
    (a.wrappingShr amount).toInt = a.toInt / 2 ^ (amount.toNat % 128) := by
  rw [← UInt128.maskAmount_eq]
  exact a.toInt_shr_filled (UInt128.maskAmount_lt amount)

/-- The exact quotient is a signed value already. -/
theorem exact_right_bmod (a : Int128) (places : Nat) :
    (Direction.right.exact a.toInt places).bmod (2 ^ 128) = a.toInt / 2 ^ places :=
  bmod_of_inRange (a.inRange_ediv places)

/-- Either family agrees with the shifted integers reduced to signed values. -/
theorem shifts_agreeWithExact (direction : Direction) (a : Int128) :
    (shifts direction).AgreesWithExact direction a toInt
      fun places => (direction.exact a.toInt places).bmod (2 ^ 128) := by
  apply ShiftFamily.agreesWithExact
  · intro b c hvalue
    exact toInt_inj.mp hvalue
  · intro amount
    cases direction with
    | left => exact a.toInt_wrappingShl amount
    | right => exact (a.toInt_wrappingShr amount).trans (a.exact_right_bmod _).symm
  · intro amount
    cases direction <;> rfl
  · intro amount
    have hoperator : (shifts direction).operator a amount = a.shiftBy direction amount := by
      cases direction <;> rfl
    rw [hoperator, map_toInt_shiftBy, Direction.map_exactBy]
  · intro amount
    cases direction <;> rfl

/-- A shift to the right divides and rounds down, towards less and not towards zero, and one
to the left multiplies and reduces to `[-2^127, 2^127)`. Every member of a family gives this
value, whatever the type of its amount and the sign of the value. An amount is taken modulo
128 or refused from 128 on, and it is a fault of the direction for an operator if it is not
one of 0 to 127. -/
theorem right_shifts_round_down (a : Int128) :
    (shifts .right).AgreesWithExact .right a toInt (fun places => a.toInt / 2 ^ places) ∧
      (shifts .left).AgreesWithExact .left a toInt
        (fun places => (a.toInt * 2 ^ places).bmod (2 ^ 128)) ∧
      Direction.right.fault.message = "attempt to shift right with overflow" ∧
      Direction.left.fault.message = "attempt to shift left with overflow" := by
  refine ⟨?_, shifts_agreeWithExact .left a, rfl, rfl⟩
  rw [← funext a.exact_right_bmod]
  exact shifts_agreeWithExact .right a

/-- Rounding down is not towards zero: minus one stays minus one. -/
example : negOne.wrappingShr 127 = negOne := by decide

end TwoLimb.Int128
