/-
# Operations on limb pairs

Given the four limb primitives, the 128-bit operations follow: carries are chained
from the low limb to the high one, a product needs one widening multiplication and
two truncated ones, and division has three paths chosen by the shape of the
divisor. The two limb path is restoring division, kept here as a state and one
round on it.
-/

import TwoLimb.Engine.Basic
import TwoLimb.Engine.Shift
import TwoLimb.UInt128.Bits
import TwoLimb.UInt128.Order

namespace TwoLimb.Engine.Limbwise

variable (ops : LimbOps)

/-- The carry of the low limbs enters the sum of the high limbs. -/
def add (a b : UInt128) (carry : Bool) : UInt128 × Bool :=
  let (low, carry) := ops.addWithCarry a.low b.low carry
  let (high, carry) := ops.addWithCarry a.high b.high carry
  (⟨high, low⟩, carry)

/-- The borrow of the low limbs enters the difference of the high limbs. -/
def sub (a b : UInt128) (borrow : Bool) : UInt128 × Bool :=
  let (low, borrow) := ops.subWithBorrow a.low b.low borrow
  let (high, borrow) := ops.subWithBorrow a.high b.high borrow
  (⟨high, low⟩, borrow)

/-- Exact limb sums chain to exact sums of pairs: the carry of the low limbs is worth
one in the high limbs. -/
theorem toNat_add
    (hadd : ∀ (a b : Limb) (carry : Bool),
      (ops.addWithCarry a b carry).1.toNat + (ops.addWithCarry a b carry).2.toNat * 2 ^ 64 =
        a.toNat + b.toNat + carry.toNat)
    (a b : UInt128) (carry : Bool) :
    (add ops a b carry).1.toNat + (add ops a b carry).2.toNat * 2 ^ 128 =
      a.toNat + b.toNat + carry.toNat := by
  have hlow := hadd a.low b.low carry
  have hhigh := hadd a.high b.high (ops.addWithCarry a.low b.low carry).2
  have hvalue : (add ops a b carry).1.toNat =
      (ops.addWithCarry a.high b.high (ops.addWithCarry a.low b.low carry).2).1.toNat * 2 ^ 64
        + (ops.addWithCarry a.low b.low carry).1.toNat := rfl
  have hcarry : (add ops a b carry).2 =
      (ops.addWithCarry a.high b.high (ops.addWithCarry a.low b.low carry).2).2 := rfl
  rw [hvalue, hcarry]
  unfold UInt128.toNat
  omega

/-- Exact limb differences chain to exact differences of pairs. -/
theorem toNat_sub
    (hsub : ∀ (a b : Limb) (borrow : Bool),
      (ops.subWithBorrow a b borrow).1.toNat + b.toNat + borrow.toNat =
        a.toNat + (ops.subWithBorrow a b borrow).2.toNat * 2 ^ 64)
    (a b : UInt128) (borrow : Bool) :
    (sub ops a b borrow).1.toNat + b.toNat + borrow.toNat =
      a.toNat + (sub ops a b borrow).2.toNat * 2 ^ 128 := by
  have hlow := hsub a.low b.low borrow
  have hhigh := hsub a.high b.high (ops.subWithBorrow a.low b.low borrow).2
  have hvalue : (sub ops a b borrow).1.toNat =
      (ops.subWithBorrow a.high b.high
        (ops.subWithBorrow a.low b.low borrow).2).1.toNat * 2 ^ 64
        + (ops.subWithBorrow a.low b.low borrow).1.toNat := rfl
  have hborrow : (sub ops a b borrow).2 =
      (ops.subWithBorrow a.high b.high (ops.subWithBorrow a.low b.low borrow).2).2 := rfl
  rw [hvalue, hborrow]
  unfold UInt128.toNat
  omega

/-- Only the product of the low limbs is needed in full. The cross products
contribute their low halves and the product of the high limbs nothing. -/
def mul (a b : UInt128) : UInt128 :=
  let product := ops.wideningMul a.low b.low
  ⟨product.high + a.high * b.low + a.low * b.high, product.low⟩

/-- The product is too large when both high limbs contribute, when a cross product
leaves its limb, or when adding a cross product leaves the high limb. -/
def overflowingMul (a b : UInt128) : UInt128 × Bool :=
  let product := ops.wideningMul a.low b.low
  let (crossA, overflowA) := a.high.overflowingMul b.low
  let (crossB, overflowB) := a.low.overflowingMul b.high
  let (high, overflowC) := product.high.overflowingAdd crossA
  let (high, overflowD) := Limb.overflowingAdd high crossB
  (⟨high, product.low⟩,
    (a.high != 0 && b.high != 0) || overflowA || overflowB || overflowC || overflowD)

/-- What restoring division carries from round to round. -/
structure Restoring where
  quotient : UInt128
  remainder : UInt128
  denominator : UInt128
deriving DecidableEq, Inhabited

namespace Restoring

/-- The state before the first round: the divisor moved up by `shift`, nothing
subtracted yet. -/
def start (dividend divisor : UInt128) (shift : Nat) : Restoring :=
  ⟨.zero, dividend, shl divisor shift⟩

/-- One round appends a digit to the quotient: one, after subtracting the
denominator, if it fits into the remainder, and zero otherwise. The denominator
moves down by one place for the next round. -/
def round (s : Restoring) : Restoring :=
  let quotient := shl s.quotient 1
  if s.denominator.isGreaterThan s.remainder then
    ⟨quotient, s.remainder, shr s.denominator 1⟩
  else
    ⟨⟨quotient.high, quotient.low ||| 1⟩, (sub ops s.remainder s.denominator false).1,
      shr s.denominator 1⟩

/-- The given number of rounds, one after the other. -/
def run : (rounds : Nat) → Restoring → Restoring
  | 0, s => s
  | rounds + 1, s => run rounds (round ops s)

end Restoring

/-- The distance by which the divisor is moved up so that its topmost set bit meets
that of the dividend. -/
def alignment (dividend divisor : UInt128) : Nat :=
  divisor.leadingZeros - dividend.leadingZeros

/-- A two-limb dividend by one limb: the high quotient limb is a limb division, and
its remainder is the upper half of a wide division. -/
def divModLimb (dividend : UInt128) (divisor : Limb) : DivMod UInt128 :=
  let (low, remainder) := ops.divPair (dividend.high % divisor) dividend.low divisor
  ⟨⟨dividend.high / divisor, low⟩, .ofLimb remainder⟩

/-- A divisor of two limbs that does not exceed the dividend. Its high limb is not
zero, so there are at most 64 rounds. -/
def divModRestoring (dividend divisor : UInt128) : DivMod UInt128 :=
  let shift := alignment dividend divisor
  let last := Restoring.run ops (shift + 1) (.start dividend divisor shift)
  ⟨last.quotient, last.remainder⟩

/-- Quotient and remainder for a divisor that is not zero. -/
def divMod (dividend divisor : UInt128) : DivMod UInt128 :=
  if divisor.high = 0 then divModLimb ops dividend divisor.low
  else if divisor.isGreaterThan dividend then ⟨.zero, dividend⟩
  else divModRestoring ops dividend divisor

end Limbwise

/-- The engine that computes with the given limb primitives. -/
def ofLimbOps (strategy : Strategy) (ops : LimbOps) : Engine where
  toLimbOps := ops
  strategy := strategy
  add := Limbwise.add ops
  sub := Limbwise.sub ops
  mul := Limbwise.mul ops
  overflowingMul := Limbwise.overflowingMul ops
  divMod := Limbwise.divMod ops
  shl := Limbwise.shl
  shr := Limbwise.shr

end TwoLimb.Engine
