/-
# The portable engine

No operation here needs a type wider than a limb. A product is assembled from four
products of 32-bit halves, and a two-limb dividend is divided one bit at a time,
most significant first. The doubled remainder of that division may need a 65th
bit; it is looked at before it is lost.
-/

import TwoLimb.Engine.Limbwise

namespace TwoLimb.Engine.Portable

/-- Half a limb in bits. -/
def halfBits : Nat := 32

/-- The lower half of a limb. -/
def lowHalf (x : Limb) : Limb := x &&& 0xffffffff

/-- The upper half of a limb, moved down. -/
def highHalf (x : Limb) : Limb := x.shr halfBits

/-- Two additions, of which at most one overflows. -/
def addWithCarry (a b : Limb) (carry : Bool) : Limb × Bool :=
  let (sum, first) := a.overflowingAdd b
  let (sum, second) := Limb.overflowingAdd sum (.ofFlag carry)
  (sum, first || second)

/-- Two subtractions, of which at most one underflows. -/
def subWithBorrow (a b : Limb) (borrow : Bool) : Limb × Bool :=
  let (difference, first) := a.overflowingSub b
  let (difference, second) := Limb.overflowingSub difference (.ofFlag borrow)
  (difference, first || second)

/-- The schoolbook product of two limbs on halves. -/
structure Schoolbook where
  lowLow : Limb
  lowHigh : Limb
  highLow : Limb
  highHigh : Limb
deriving DecidableEq, Inhabited

namespace Schoolbook

/-- The four products of halves. -/
def ofLimbs (a b : Limb) : Schoolbook where
  lowLow := lowHalf a * lowHalf b
  lowHigh := lowHalf a * highHalf b
  highLow := highHalf a * lowHalf b
  highHigh := highHalf a * highHalf b

/-- The column that straddles the limb boundary, below `3 * 2^32`. -/
def middle (p : Schoolbook) : Limb :=
  highHalf p.lowLow + lowHalf p.lowHigh + lowHalf p.highLow

/-- The low limb of the product: the lowest half, and the lower half of the middle
column above it. -/
def low (p : Schoolbook) : Limb := lowHalf p.lowLow ||| p.middle.shl halfBits

/-- The high limb of the product: what the middle column carries is counted here. -/
def high (p : Schoolbook) : Limb :=
  p.highHigh + highHalf p.lowHigh + highHalf p.highLow + highHalf p.middle

end Schoolbook

/-- The full product of two limbs. -/
def wideningMul (a b : Limb) : UInt128 :=
  let p := Schoolbook.ofLimbs a b
  ⟨p.high, p.low⟩

/-- What the bitwise division carries from bit to bit. -/
structure Bitwise where
  quotient : Limb
  remainder : Limb
deriving DecidableEq, Inhabited

namespace Bitwise

/-- Bring down one bit of the dividend. The remainder is below the divisor, so its
double needs at most one bit more than a limb; when that bit spills, the divisor
fits whatever the lower bits say, and the wrapping subtraction restores the exact
remainder. -/
def step (divisor : Limb) (bit : Limb) (s : Bitwise) : Bitwise :=
  let spilled := s.remainder.shr (Limb.bits - 1)
  let remainder := s.remainder.shl 1 ||| bit
  let quotient := s.quotient.shl 1
  if spilled ≠ 0 ∨ divisor ≤ remainder then ⟨quotient ||| 1, remainder - divisor⟩
  else ⟨quotient, remainder⟩

/-- Bring down the lowest `count` bits of the dividend's low limb, high ones first. -/
def run (low divisor : Limb) : (count : Nat) → Bitwise → Bitwise
  | 0, s => s
  | count + 1, s => run low divisor count (step divisor (low.shr count &&& 1) s)

end Bitwise

/-- A two-limb dividend by one limb that is greater than the high limb, bit by bit. -/
def divPair (high low divisor : Limb) : Limb × Limb :=
  let last := Bitwise.run low divisor Limb.bits ⟨0, high⟩
  (last.quotient, last.remainder)

/-- The carry out of a limb sum is worth `2^64`. -/
theorem addWithCarry_eq (a b : Limb) (carry : Bool) :
    (addWithCarry a b carry).1.toNat + (addWithCarry a b carry).2.toNat * 2 ^ 64 =
      a.toNat + b.toNat + carry.toNat := by
  have hfirst := Limb.overflowingAdd_eq a b
  have hsecond := Limb.overflowingAdd_eq (a.overflowingAdd b).1 (.ofFlag carry)
  rw [Limb.toNat_ofFlag] at hsecond
  have ha := a.toNat_lt
  have hb := b.toNat_lt
  have hcarry := carry.toNat_le
  simp only [addWithCarry]
  generalize (a.overflowingAdd b).1 = sum at *
  generalize (a.overflowingAdd b).2 = first at *
  generalize Limb.overflowingAdd sum (.ofFlag carry) = total at *
  have htotal := total.1.toNat_lt
  cases first <;> cases hflag : total.2 <;>
    simp only [hflag, Bool.toNat_true, Bool.toNat_false, Bool.or_true, Bool.or_false,
      Bool.or_self] at * <;> omega

/-- The borrow out of a limb difference is worth `2^64`. -/
theorem subWithBorrow_eq (a b : Limb) (borrow : Bool) :
    (subWithBorrow a b borrow).1.toNat + b.toNat + borrow.toNat =
      a.toNat + (subWithBorrow a b borrow).2.toNat * 2 ^ 64 := by
  have hfirst := Limb.overflowingSub_eq a b
  have hsecond := Limb.overflowingSub_eq (a.overflowingSub b).1 (.ofFlag borrow)
  rw [Limb.toNat_ofFlag] at hsecond
  have ha := a.toNat_lt
  have hb := b.toNat_lt
  have hborrow := borrow.toNat_le
  simp only [subWithBorrow]
  generalize (a.overflowingSub b).1 = difference at *
  generalize (a.overflowingSub b).2 = first at *
  generalize Limb.overflowingSub difference (.ofFlag borrow) = total at *
  have hdifference := difference.toNat_lt
  have htotal := total.1.toNat_lt
  cases first <;> cases hflag : total.2 <;>
    simp only [hflag, Bool.toNat_true, Bool.toNat_false, Bool.or_true, Bool.or_false,
      Bool.or_self] at * <;> omega

/-- The limb primitives without any wider type. -/
def limbOps : LimbOps where
  addWithCarry := addWithCarry
  subWithBorrow := subWithBorrow
  wideningMul := wideningMul
  divPair := divPair

end Portable

/-- Arithmetic on two limbs without any wider type. -/
def portable : Engine := ofLimbOps .portable Portable.limbOps

/-- The carry out of a 128-bit sum is worth `2^128`. -/
theorem portable_add_eq (a b : UInt128) (carry : Bool) :
    (portable.add a b carry).1.toNat + (portable.add a b carry).2.toNat * 2 ^ 128 =
      a.toNat + b.toNat + carry.toNat :=
  Limbwise.toNat_add Portable.limbOps Portable.addWithCarry_eq a b carry

/-- The borrow out of a 128-bit difference is worth `2^128`. -/
theorem portable_sub_eq (a b : UInt128) (borrow : Bool) :
    (portable.sub a b borrow).1.toNat + b.toNat + borrow.toNat =
      a.toNat + (portable.sub a b borrow).2.toNat * 2 ^ 128 :=
  Limbwise.toNat_sub Portable.limbOps Portable.subWithBorrow_eq a b borrow

end TwoLimb.Engine
