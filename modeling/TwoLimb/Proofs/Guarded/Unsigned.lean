/-
# Guarded operations on unsigned integers

Every shift goes through the engine with an amount that is below 128: a mask cuts it off,
a test refuses it, or the operator faults on it. A rotation by a number of places other
than zero leaves between 1 and 127 places for the shift that completes it. Products and
powers are made of the products of the engine.
-/

import TwoLimb.Proofs.Guarded.Engine
import TwoLimb.Proofs.UInt128.Shift
import TwoLimb.UInt128.Power

namespace TwoLimb

namespace Guarded

/-! ### Shifts and rotations -/

section Shifts

/-- Shift in the given direction. -/
def shift (a : UInt128) : Direction → Nat → Guarded UInt128
  | .left => shl a
  | .right => shr a

theorem shift_eq (a : UInt128) (direction : Direction) {places : Nat} (hplaces : places < 128) :
    shift a direction places = .ok (a.shift direction places) := by
  cases direction with
  | left => exact shl_eq a hplaces
  | right => exact shr_eq a hplaces

/-- Shift by the amount modulo 128. -/
def wrappingShift (a : UInt128) (direction : Direction) (amount : UInt32) : Guarded UInt128 :=
  shift a direction (UInt128.maskAmount amount)

@[simp]
theorem wrappingShift_eq (a : UInt128) (direction : Direction) (amount : UInt32) :
    wrappingShift a direction amount = .ok (a.shift direction (UInt128.maskAmount amount)) :=
  shift_eq a direction (UInt128.maskAmount_lt amount)

/-- Shift, refused from 128 on. -/
def shift? (a : UInt128) (direction : Direction) (amount : UInt32) : Guarded (Option UInt128) :=
  if amount < 128 then do
    let shifted ← shift a direction amount.toNat
    .ok (some shifted)
  else .ok none

theorem shift?_eq (a : UInt128) (direction : Direction) (amount : UInt32) :
    shift? a direction amount =
      .ok (if amount < 128 then some (a.shift direction amount.toNat) else none) := by
  unfold shift?
  split
  · rename_i hamount
    rw [shift_eq a direction (UInt32.lt_iff_toNat_lt.mp hamount), ok_bind]
  · rfl

/-- Shift by the amount modulo 128, flagged from 128 on. -/
def overflowingShift (a : UInt128) (direction : Direction) (amount : UInt32) :
    Guarded (UInt128 × Bool) := do
  let shifted ← wrappingShift a direction amount
  .ok (shifted, 128 ≤ amount)

theorem overflowingShift_eq (a : UInt128) (direction : Direction) (amount : UInt32) :
    overflowingShift a direction amount =
      .ok (a.shift direction (UInt128.maskAmount amount), decide (128 ≤ amount)) := by
  rw [overflowingShift, wrappingShift_eq, ok_bind]

def rotateLeft (a : UInt128) (amount : UInt32) : Guarded UInt128 :=
  let places := UInt128.maskAmount amount
  if places = 0 then .ok a
  else do
    let left ← shl a places
    let rest ← difference UInt128.bits places
    let right ← shr a rest
    .ok (left ||| right)

/-- Neither of the two shifts of a rotation is by 128. -/
@[simp]
theorem rotateLeft_eq (a : UInt128) (amount : UInt32) :
    rotateLeft a amount = .ok (a.rotateLeft amount) := by
  have hplaces := UInt128.maskAmount_lt amount
  unfold rotateLeft UInt128.rotateLeft
  simp only
  split
  · rfl
  · rename_i hzero
    have hle : UInt128.maskAmount amount ≤ UInt128.bits := Nat.le_of_lt hplaces
    have hrest : UInt128.bits - UInt128.maskAmount amount < 128 :=
      Nat.sub_lt (by decide) (Nat.pos_of_ne_zero hzero)
    rw [shl_eq a hplaces, ok_bind, difference_eq hle, ok_bind, shr_eq a hrest, ok_bind]

def rotateRight (a : UInt128) (amount : UInt32) : Guarded UInt128 := do
  let rest ← difference UInt128.bits (UInt128.maskAmount amount)
  rotateLeft a (UInt32.ofNat rest)

@[simp]
theorem rotateRight_eq (a : UInt128) (amount : UInt32) :
    rotateRight a amount = .ok (a.rotateRight amount) := by
  have hplaces := UInt128.maskAmount_lt amount
  have hle : UInt128.maskAmount amount ≤ UInt128.bits := Nat.le_of_lt hplaces
  have hword : (amount &&& 127) ≤ 128 := UInt32.le_iff_toNat_le.mpr hle
  have hrest : UInt32.ofNat (UInt128.bits - UInt128.maskAmount amount) =
      128 - (amount &&& 127) := by
    rw [← UInt32.toNat_inj, UInt32.toNat_sub_of_le _ _ hword, UInt32.toNat_ofNat']
    exact Nat.mod_eq_of_lt (Nat.lt_of_le_of_lt (Nat.sub_le _ _) (by decide))
  rw [rotateRight, difference_eq hle, ok_bind, rotateLeft_eq, hrest]
  rfl

/-- The shift operators: their assertion about the amount is a fault that callers are told
of, and what passes it is below 128. -/
def shiftBy (a : UInt128) (direction : Direction) (amount : ShiftCount) : Guarded UInt128 := do
  let places ← documented (amount.places direction)
  shift a direction places

theorem shiftBy_eq (a : UInt128) (direction : Direction) (amount : ShiftCount) :
    shiftBy a direction amount = documented (a.shiftBy direction amount) := by
  rw [shiftBy, UInt128.shiftBy_eq, ShiftCount.places_eq]
  split
  · rename_i hplaces
    rw [documented_ok, ok_bind, shift_eq a direction hplaces.toNat_lt, documented_ok]
  · rfl

/-- The shift operator with an amount that a 32-bit word holds. -/
theorem shiftBy_word_eq (a : UInt128) (direction : Direction) {places : Nat}
    (hplaces : places < 128) :
    shiftBy a direction (.word (.ofNat places)) = .ok (a.shift direction places) := by
  have hword : (UInt32.ofNat places).toNat = places := by
    rw [UInt32.toNat_ofNat']
    exact Nat.mod_eq_of_lt (by omega)
  have hvalue : (ShiftCount.word (.ofNat places)).toInt = places := congrArg Nat.cast hword
  rw [shiftBy, ShiftCount.places_eq, hvalue, if_pos ((isPlaces_natCast places).mpr hplaces),
    documented_ok, ok_bind, Int.toNat_natCast, shift_eq a direction hplaces]

end Shifts

/-! ### Products and powers -/

section Products

variable (ops : GuardedOps)

def mul? (a b : UInt128) : Guarded (Option UInt128) := do
  let product ← overflowingMul ops a b
  .ok (unflagged product)

def saturatingMul (a b : UInt128) : Guarded UInt128 := do
  let product ← overflowingMul ops a b
  .ok (orElseFlagged .max product)

/-- Square and multiply. The exponent is halved until it is zero. -/
def powLoop (exponent : Nat) (base power : UInt128) : Guarded UInt128 :=
  if exponent = 0 then .ok power
  else do
    let power ← (if exponent % 2 = 1 then mul ops power base else .ok power)
    if exponent / 2 = 0 then .ok power
    else
      let square ← mul ops base base
      powLoop (exponent / 2) square power
termination_by exponent
decreasing_by omega

def pow (a : UInt128) (exponent : UInt32) : Guarded UInt128 :=
  powLoop ops exponent.toNat a .one

/-- Square and multiply with products that may be refused. -/
def powLoop? (exponent : Nat) (base power : UInt128) : Guarded (Option UInt128) :=
  if exponent = 0 then .ok (some power)
  else do
    let power? ← (if exponent % 2 = 1 then mul? ops power base else .ok (some power))
    match power? with
    | none => .ok none
    | some power =>
        if exponent / 2 = 0 then .ok (some power)
        else
          let square? ← mul? ops base base
          match square? with
          | none => .ok none
          | some square => powLoop? (exponent / 2) square power
termination_by exponent
decreasing_by omega

def pow? (a : UInt128) (exponent : UInt32) : Guarded (Option UInt128) :=
  powLoop? ops exponent.toNat a .one

variable {ops} (hops : ops.Sound)

include hops

theorem mul?_eq (a b : UInt128) : mul? ops a b = .ok (a.mul? b) := by
  rw [mul?, overflowingMul_eq hops, ok_bind]
  rfl

theorem saturatingMul_eq (a b : UInt128) : saturatingMul ops a b = .ok (a.saturatingMul b) := by
  rw [saturatingMul, overflowingMul_eq hops, ok_bind]
  rfl

theorem powLoop_eq (exponent : Nat) (base power : UInt128) :
    powLoop ops exponent base power = .ok (UInt128.powLoop exponent base power) := by
  induction exponent using Nat.strongRecOn generalizing base power with
  | ind exponent ih =>
      rw [powLoop, UInt128.powLoop]
      by_cases hzero : exponent = 0
      · rw [if_pos hzero, if_pos hzero]
      · rw [if_neg hzero, if_neg hzero, ite_ok (mul_eq hops power base) rfl, ok_bind, mul_eq hops,
          ok_bind, ih (exponent / 2) (by omega), ite_ok rfl rfl]

theorem pow_eq (a : UInt128) (exponent : UInt32) : pow ops a exponent = .ok (a.pow exponent) :=
  powLoop_eq hops exponent.toNat a .one

theorem powLoop?_eq (exponent : Nat) (base power : UInt128) :
    powLoop? ops exponent base power = .ok (UInt128.powLoop? exponent base power) := by
  induction exponent using Nat.strongRecOn generalizing base power with
  | ind exponent ih =>
      rw [powLoop?, UInt128.powLoop?]
      by_cases hzero : exponent = 0
      · rw [if_pos hzero, if_pos hzero]
      · rw [if_neg hzero, if_neg hzero, ite_ok (mul?_eq hops power base) rfl, ok_bind, mul?_eq hops]
        generalize (if exponent % 2 = 1 then power.mul? base else some power) = power?
        cases power? with
        | none => rfl
        | some power =>
            simp only
            rw [ok_bind]
            cases base.mul? base with
            | none => exact ite_ok rfl rfl
            | some square => exact ite_ok rfl (ih (exponent / 2) (by omega) square power)

theorem pow?_eq (a : UInt128) (exponent : UInt32) : pow? ops a exponent = .ok (a.pow? exponent) :=
  powLoop?_eq hops exponent.toNat a .one

end Products

end Guarded

end TwoLimb
