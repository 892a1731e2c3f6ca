/-
# Shift operators as integer arithmetic

A shift operator takes its amount from one of seven types. Whatever the type, the amount is
an integer, and the operator shifts exactly when that integer is one of 0 to 127. A shift
to the left multiplies and a shift to the right divides and rounds down.
-/

import Mathlib.Data.Int.ModEq
import TwoLimb.UInt128.Shift

namespace TwoLimb

namespace ShiftCount

/-- The integer that an amount is. -/
def toInt : ShiftCount → Int
  | .byte n => n.toNat
  | .half n => n.toNat
  | .word n => n.toNat
  | .limb n => n.toNat
  | .size n => n.toNat
  | .int n => n.toInt
  | .wide n => n.toNat

end ShiftCount

/-- The amounts that shift operators take. -/
def IsPlaces (amount : Int) : Prop := 0 ≤ amount ∧ amount < 128

instance (amount : Int) : Decidable (IsPlaces amount) := inferInstanceAs (Decidable (_ ∧ _))

theorem isPlaces_natCast (n : Nat) : IsPlaces n ↔ n < 128 := by
  rw [IsPlaces]
  omega

theorem IsPlaces.toNat_lt {amount : Int} (hamount : IsPlaces amount) : amount.toNat < 128 := by
  obtain ⟨hlower, hupper⟩ := hamount
  omega

/-- The integer that a shift by the given places makes of another. -/
def Direction.exact (x : Int) (places : Nat) : Direction → Int
  | .left => x * 2 ^ places
  | .right => x / 2 ^ places

/-- The integer that a shift makes of another, a fault unless the amount is one of 0 to
127. -/
def Direction.exactBy (direction : Direction) (x amount : Int) : Except Fault Int :=
  if IsPlaces amount then .ok (direction.exact x amount.toNat) else .error direction.fault

theorem Direction.map_exactBy (direction : Direction) (x amount : Int) (reduce : Int → Int) :
    (direction.exactBy x amount).map reduce =
      if IsPlaces amount then .ok (reduce (direction.exact x amount.toNat))
      else .error direction.fault := by
  rw [exactBy]
  split <;> rfl

namespace ShiftCount

/-- A test of an amount is right when it tells whether its integer is one of 0 to 127. -/
theorem places_of_test {test : Prop} [Decidable test] {places : Nat} {amount : Int}
    (htest : test ↔ IsPlaces amount) (hplaces : test → places = amount.toNat) :
    (if test then some places else none) =
      if IsPlaces amount then some amount.toNat else none := by
  by_cases hamount : IsPlaces amount
  · have hpassed := htest.mpr hamount
    rw [if_pos hpassed, if_pos hamount, hplaces hpassed]
  · rw [if_neg (mt htest.mp hamount), if_neg hamount]

/-- A wide amount is small exactly when its high limb is zero and its low limb small. -/
theorem wide_iff (n : UInt128) : n.high = 0 ∧ n.low < 128 ↔ IsPlaces n.toNat := by
  have hlow := n.low.toNat_lt
  have hlimit : (128 : Limb).toNat = 128 := rfl
  rw [isPlaces_natCast, UInt128.toNat, ← UInt64.toNat_inj, UInt64.lt_iff_toNat_lt,
    UInt64.toNat_zero, hlimit]
  omega

/-- Every type of amounts is tested for the same integers. -/
theorem places?_eq (amount : ShiftCount) :
    amount.places? = if IsPlaces amount.toInt then some amount.toInt.toNat else none := by
  cases amount with
  | byte n =>
      exact places_of_test (UInt8.lt_iff_toNat_lt.trans (isPlaces_natCast _).symm) fun _ => rfl
  | half n =>
      exact places_of_test (UInt16.lt_iff_toNat_lt.trans (isPlaces_natCast _).symm) fun _ => rfl
  | word n =>
      exact places_of_test (UInt32.lt_iff_toNat_lt.trans (isPlaces_natCast _).symm) fun _ => rfl
  | limb n | size n =>
      exact places_of_test (UInt64.lt_iff_toNat_lt.trans (isPlaces_natCast _).symm) fun _ => rfl
  | int n =>
      exact places_of_test (and_congr Int32.le_iff_toInt_le Int32.lt_iff_toInt_lt) fun _ => rfl
  | wide n =>
      refine places_of_test (wide_iff n) fun hsmall => ?_
      have hhigh : n.high.toNat = 0 := UInt64.toNat_inj.mpr hsmall.1
      change n.low.toNat = n.toNat
      rw [UInt128.toNat, hhigh, Nat.zero_mul, Nat.zero_add]

theorem places_eq (amount : ShiftCount) (direction : Direction) :
    amount.places direction =
      if IsPlaces amount.toInt then .ok amount.toInt.toNat else .error direction.fault := by
  rw [places, places?_eq]
  by_cases hamount : IsPlaces amount.toInt
  · rw [if_pos hamount, if_pos hamount]
  · rw [if_neg hamount, if_neg hamount]

end ShiftCount

namespace UInt128

theorem exact_left_emod (a : UInt128) (places : Nat) :
    Direction.left.exact a.toNat places % 2 ^ 128 =
      ((a.toNat * 2 ^ places % 2 ^ 128 : Nat) : Int) := by
  rw [Direction.exact]
  push_cast
  rfl

/-- A quotient is not too large, so nothing of it is cut. -/
theorem exact_right_emod (a : UInt128) (places : Nat) :
    Direction.right.exact a.toNat places % 2 ^ 128 = ((a.toNat / 2 ^ places : Nat) : Int) := by
  have hlt : a.toNat / 2 ^ places < 2 ^ 128 :=
    Nat.lt_of_le_of_lt (Nat.div_le_self _ _) a.toNat_lt
  rw [Direction.exact, ← Nat.mod_eq_of_lt hlt]
  push_cast
  rfl

/-- The bits of a shifted value are those of the shifted integer. -/
theorem toNat_shift (a : UInt128) (direction : Direction) {places : Nat} (hplaces : places < 128) :
    ((a.shift direction places).toNat : Int) = direction.exact a.toNat places % 2 ^ 128 := by
  cases direction with
  | left =>
      rw [exact_left_emod]
      exact congrArg Nat.cast (toNat_shl a hplaces)
  | right =>
      rw [exact_right_emod]
      exact congrArg Nat.cast (toNat_shr a hplaces)

/-- The mask keeps the remainder modulo 128. -/
theorem maskAmount_eq (amount : UInt32) : maskAmount amount = amount.toNat % 128 := by
  rw [maskAmount, UInt32.toNat_and]
  exact Nat.and_two_pow_sub_one_eq_mod amount.toNat 7

theorem maskAmount_lt (amount : UInt32) : maskAmount amount < 128 := by
  rw [maskAmount_eq]
  exact Nat.mod_lt _ (by decide)

/-- A shift operator shifts by an amount of 0 to 127, and faults otherwise. -/
theorem shiftBy_eq (a : UInt128) (direction : Direction) (amount : ShiftCount) :
    a.shiftBy direction amount =
      if IsPlaces amount.toInt then .ok (a.shift direction amount.toInt.toNat)
      else .error direction.fault := by
  rw [shiftBy, ShiftCount.places_eq]
  by_cases hamount : IsPlaces amount.toInt
  · rw [if_pos hamount, if_pos hamount]
  · rw [if_neg hamount, if_neg hamount]

/-- A shift operator reduces the shifted integer. -/
theorem map_toNat_shiftBy (a : UInt128) (direction : Direction) (amount : ShiftCount) :
    (a.shiftBy direction amount).map (fun b => (b.toNat : Int)) =
      (direction.exactBy a.toNat amount.toInt).map fun n => n % 2 ^ 128 := by
  rw [shiftBy_eq, Direction.map_exactBy]
  by_cases hamount : IsPlaces amount.toInt
  · rw [if_pos hamount, if_pos hamount]
    exact congrArg Except.ok (a.toNat_shift direction hamount.toNat_lt)
  · rw [if_neg hamount, if_neg hamount]
    rfl

end UInt128

end TwoLimb
