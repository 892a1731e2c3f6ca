/-
# Sums, differences and products

Every operation comes in one family per attitude towards a result that leaves the
128 bits: keep it modulo `2^128`, keep it and flag it, refuse it, or stay at the
nearest end of the range. All members read the same engine result, so they can
never disagree. The plain operators are the wrapping members.
-/

import TwoLimb.Engine.Portable

namespace TwoLimb

namespace Engine

/-- The engine all operators of this library compute with. -/
def selected : Engine := portable

end Engine

/-- The value of a flagged result, refused when the flag is set. -/
def unflagged {α : Type} : α × Bool → Option α
  | (value, false) => some value
  | (_, true) => none

/-- The value of a flagged result, replaced when the flag is set. -/
def orElseFlagged {α : Type} (bound : α) : α × Bool → α
  | (value, false) => value
  | (_, true) => bound

namespace UInt128

/-- Sum of two values and a carry, with the carry out of bit 127. -/
def carryingAdd (a b : UInt128) (carry : Bool) : UInt128 × Bool :=
  Engine.selected.add a b carry

/-- Difference of two values less a borrow, with the borrow out of bit 127. -/
def borrowingSub (a b : UInt128) (borrow : Bool) : UInt128 × Bool :=
  Engine.selected.sub a b borrow

/-- The sum modulo `2^128` and whether the exact sum is larger. -/
def overflowingAdd (a b : UInt128) : UInt128 × Bool := a.carryingAdd b false

/-- The difference modulo `2^128` and whether the exact difference is negative. -/
def overflowingSub (a b : UInt128) : UInt128 × Bool := a.borrowingSub b false

/-- The product modulo `2^128` and whether the exact product is larger. -/
def overflowingMul (a b : UInt128) : UInt128 × Bool := Engine.selected.overflowingMul a b

def add (a b : UInt128) : UInt128 := (a.overflowingAdd b).1

def sub (a b : UInt128) : UInt128 := (a.overflowingSub b).1

def mul (a b : UInt128) : UInt128 := Engine.selected.mul a b

instance : Add UInt128 := ⟨add⟩

instance : Sub UInt128 := ⟨sub⟩

instance : Mul UInt128 := ⟨mul⟩

/-- The negation modulo `2^128`. -/
def neg (a : UInt128) : UInt128 := zero - a

instance : Neg UInt128 := ⟨neg⟩

/-- The sum of a value and a limb modulo `2^128`. -/
def addLimb (a : UInt128) (x : Limb) : UInt128 := a + ofLimb x

/-- The difference of a value and a limb modulo `2^128`. -/
def subLimb (a : UInt128) (x : Limb) : UInt128 := a - ofLimb x

/-- The exact sum, if it fits. -/
def add? (a b : UInt128) : Option UInt128 := unflagged (a.overflowingAdd b)

/-- The exact difference, if it is not negative. -/
def sub? (a b : UInt128) : Option UInt128 := unflagged (a.overflowingSub b)

/-- The exact product, if it fits. -/
def mul? (a b : UInt128) : Option UInt128 := unflagged (a.overflowingMul b)

/-- The exact sum, or the greatest value when it does not fit. -/
def saturatingAdd (a b : UInt128) : UInt128 := orElseFlagged max (a.overflowingAdd b)

/-- The exact difference, or zero when it is negative. -/
def saturatingSub (a b : UInt128) : UInt128 := orElseFlagged zero (a.overflowingSub b)

/-- The exact product, or the greatest value when it does not fit. -/
def saturatingMul (a b : UInt128) : UInt128 := orElseFlagged max (a.overflowingMul b)

def absDiff (a b : UInt128) : UInt128 := if a.isLessThan b then b - a else a - b

/-- The full product of two limbs. -/
def wideningMul (a b : Limb) : UInt128 := Engine.selected.wideningMul a b

/-- The sum is the integer sum modulo `2^128`. -/
theorem toNat_add (a b : UInt128) : (a + b).toNat = (a.toNat + b.toNat) % 2 ^ 128 := by
  have hsum := Engine.portable_add_eq a b false
  have hlt := (a + b).toNat_lt
  have hvalue : (a + b).toNat = (Engine.portable.add a b false).1.toNat := rfl
  simp only [Bool.toNat_false] at hsum
  omega

/-- The difference is the integer difference modulo `2^128`. -/
theorem toNat_sub (a b : UInt128) :
    (a - b).toNat = (a.toNat + 2 ^ 128 - b.toNat) % 2 ^ 128 := by
  have hdifference := Engine.portable_sub_eq a b false
  have hlt := (a - b).toNat_lt
  have ha := a.toNat_lt
  have hb := b.toNat_lt
  have hborrow := (Engine.portable.sub a b false).2.toNat_le
  have hvalue : (a - b).toNat = (Engine.portable.sub a b false).1.toNat := rfl
  simp only [Bool.toNat_false] at hdifference
  omega

/-- The negation is the integer negation modulo `2^128`. -/
theorem toNat_neg (a : UInt128) : (-a).toNat = (2 ^ 128 - a.toNat) % 2 ^ 128 := by
  have hdifference := toNat_sub zero a
  rw [toNat_zero, Nat.zero_add] at hdifference
  exact hdifference

/-- A difference that does not go below zero is exact. -/
theorem toNat_sub_of_le {a b : UInt128} (hle : b.toNat ≤ a.toNat) :
    (a - b).toNat = a.toNat - b.toNat := by
  have ha := a.toNat_lt
  rw [toNat_sub]
  omega

end UInt128

end TwoLimb
