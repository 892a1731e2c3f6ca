/-
# Order and selection

Two forms of one order. `compare` looks at the high limbs first and at the low
limbs only where those agree. The branch-free form never looks at a truth value:
it combines one-bit choices, so the sequence of machine steps is the same for
every pair of operands.
-/

import TwoLimb.UInt128.Basic

namespace TwoLimb

/-- One bit that steers a selection without a branch. -/
abbrev Choice := BitVec 1

namespace Choice

/-- The choice with the given truth value. -/
def ofFlag (flag : Bool) : Choice := BitVec.ofBool flag

def isSet (c : Choice) : Bool := c.getLsbD 0

end Choice

namespace Limb

/-- Set exactly when the limbs are equal. -/
def choiceEq (a b : Limb) : Choice := Choice.ofFlag (a == b)

/-- Set exactly when the first limb is greater. -/
def choiceGt (a b : Limb) : Choice := Choice.ofFlag (b < a)

/-- The second limb when the choice is set and the first otherwise: the bits in
which they differ are kept or cleared by a mask of 64 equal bits. -/
def select (a b : Limb) (c : Choice) : Limb :=
  a ^^^ (UInt64.ofBitVec (c.signExtend 64) &&& (a ^^^ b))

end Limb

namespace UInt128

/-- The order of the values, decided by the high limbs unless they are equal. -/
def compare (a b : UInt128) : Ordering :=
  let (x, y) := if a.high ≠ b.high then (a.high, b.high) else (a.low, b.low)
  if x < y then .lt else if y < x then .gt else .eq

/-- Whether the first value is greater. -/
def isGreaterThan (a b : UInt128) : Bool := a.compare b == .gt

/-- Whether the first value is less. -/
def isLessThan (a b : UInt128) : Bool := a.compare b == .lt

/-- Whether both limbs agree. -/
def equals (a b : UInt128) : Bool := a.high == b.high && a.low == b.low

def maximum (a b : UInt128) : UInt128 := if a.isLessThan b then b else a

def minimum (a b : UInt128) : UInt128 := if b.isLessThan a then b else a

def sort (values : List UInt128) : List UInt128 :=
  values.mergeSort fun a b => !a.isGreaterThan b

/-- Set exactly when the values are equal. -/
def choiceEq (a b : UInt128) : Choice :=
  a.high.choiceEq b.high &&& a.low.choiceEq b.low

/-- Set exactly when the first value is greater. -/
def choiceGt (a b : UInt128) : Choice :=
  a.high.choiceGt b.high ||| (a.high.choiceEq b.high &&& a.low.choiceGt b.low)

/-- Set exactly when the first value is less: neither greater nor equal. -/
def choiceLt (a b : UInt128) : Choice := ~~~(a.choiceGt b) &&& ~~~(a.choiceEq b)

/-- The second value when the choice is set and the first otherwise. -/
def select (a b : UInt128) (c : Choice) : UInt128 :=
  ⟨a.high.select b.high c, a.low.select b.low c⟩

/-- The comparison of limbs is the comparison of values. -/
theorem compare_eq_compare_toNat (a b : UInt128) :
    a.compare b = Ord.compare a.toNat b.toNat := by
  have halow := a.low.toNat_lt
  have hblow := b.low.toNat_lt
  unfold compare toNat
  simp only [Nat.compare_eq_ite_lt]
  by_cases hhigh : a.high = b.high
  · simp only [hhigh, ne_eq, not_true_eq_false, ↓reduceIte, UInt64.lt_iff_toNat_lt,
      Nat.add_lt_add_iff_left]
  · have hne : a.high.toNat ≠ b.high.toNat := fun h => hhigh (UInt64.toNat_inj.mp h)
    simp only [hhigh, ne_eq, not_false_eq_true, ↓reduceIte, UInt64.lt_iff_toNat_lt]
    rcases Nat.lt_or_gt_of_ne hne with hlt | hgt
    · rw [if_pos hlt, if_pos (by omega)]
    · rw [if_neg (by omega), if_pos hgt, if_neg (by omega), if_pos (by omega)]

theorem isGreaterThan_iff (a b : UInt128) : a.isGreaterThan b = true ↔ b.toNat < a.toNat := by
  simp [isGreaterThan, compare_eq_compare_toNat, Nat.compare_eq_gt]

theorem isLessThan_iff (a b : UInt128) : a.isLessThan b = true ↔ a.toNat < b.toNat := by
  simp [isLessThan, compare_eq_compare_toNat, Nat.compare_eq_lt]

end UInt128

end TwoLimb
