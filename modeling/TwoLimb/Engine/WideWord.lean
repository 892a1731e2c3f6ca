/-
# The wide word engine

All arithmetic happens on one 128-bit word. Limb primitives widen their operands,
compute once, and cut the result; carries and borrows are read off the upper half
of the wide result. Words are `BitVec 128`, whose arithmetic is arithmetic modulo
`2^128`.
-/

import TwoLimb.Engine.Basic

namespace TwoLimb.Engine.WideWord

/-- A limb in the lower half of a wide word. -/
def widen (x : Limb) : BitVec 128 := x.toBitVec.setWidth 128

/-- The lower half of a wide word. -/
def lowHalf (w : BitVec 128) : Limb := UInt64.ofBitVec (w.setWidth 64)

/-- A flag as a wide word. -/
def ofFlag (flag : Bool) : BitVec 128 := (BitVec.ofBool flag).setWidth 128

/-- The sum stays far below the top of the wide word; its upper half is the carry. -/
def addWithCarry (a b : Limb) (carry : Bool) : Limb × Bool :=
  let sum := widen a + widen b + ofFlag carry
  (lowHalf sum, sum >>> 64 != 0)

/-- An underflow leaves the upper half of the wide difference all ones. -/
def subWithBorrow (a b : Limb) (borrow : Bool) : Limb × Bool :=
  let difference := widen a - widen b - ofFlag borrow
  (lowHalf difference, difference >>> 64 != 0)

/-- One wide multiplication of widened operands. -/
def wideningMul (a b : Limb) : UInt128 := .ofWide (widen a * widen b)

/-- One wide division by the widened divisor. -/
def divPair (high low divisor : Limb) : Limb × Limb :=
  let x := UInt128.toWide ⟨high, low⟩
  (lowHalf (x / widen divisor), lowHalf (x % widen divisor))

/-- The carry is added after the operands; at most one of the two sums overflows. -/
def add (a b : UInt128) (carry : Bool) : UInt128 × Bool :=
  let sum := a.toWide + b.toWide
  let first := BitVec.uaddOverflow a.toWide b.toWide
  let second := BitVec.uaddOverflow sum (ofFlag carry)
  (.ofWide (sum + ofFlag carry), first || second)

/-- The borrow is subtracted after the operands. -/
def sub (a b : UInt128) (borrow : Bool) : UInt128 × Bool :=
  let difference := a.toWide - b.toWide
  let first := BitVec.usubOverflow a.toWide b.toWide
  let second := BitVec.usubOverflow difference (ofFlag borrow)
  (.ofWide (difference - ofFlag borrow), first || second)

def mul (a b : UInt128) : UInt128 := .ofWide (a.toWide * b.toWide)

/-- The wide product, and whether it was truncated. -/
def overflowingMul (a b : UInt128) : UInt128 × Bool :=
  (.ofWide (a.toWide * b.toWide), BitVec.umulOverflow a.toWide b.toWide)

/-- Quotient and remainder of wide words. -/
def divMod (dividend divisor : UInt128) : DivMod UInt128 :=
  ⟨.ofWide (dividend.toWide / divisor.toWide), .ofWide (dividend.toWide % divisor.toWide)⟩

/-- A shift of the wide word. -/
def shl (value : UInt128) (amount : Nat) : UInt128 := .ofWide (value.toWide <<< amount)

/-- A shift of the wide word. -/
def shr (value : UInt128) (amount : Nat) : UInt128 := .ofWide (value.toWide >>> amount)

end WideWord

/-- Arithmetic on one wide word. -/
def wideWord : Engine where
  strategy := .wideWord
  addWithCarry := WideWord.addWithCarry
  subWithBorrow := WideWord.subWithBorrow
  wideningMul := WideWord.wideningMul
  divPair := WideWord.divPair
  add := WideWord.add
  sub := WideWord.sub
  mul := WideWord.mul
  overflowingMul := WideWord.overflowingMul
  divMod := WideWord.divMod
  shl := WideWord.shl
  shr := WideWord.shr

end TwoLimb.Engine
