/-
# Integers and floats

An integer becomes the nearest float. Its topmost 64 bits are rounded, with the
lowest of them set when any bit below was set: that bit lies far below the rounding
position and only decides what would otherwise be a tie. A product with the float that
is a power of two puts the result back in place, and this is exact.

A float becomes an integer by truncation towards zero. What has no integer value of
the wanted type is refused first, for one of four reasons.
-/

import TwoLimb.Float.Format
import TwoLimb.Int128.Basic

namespace TwoLimb

namespace BinaryFloat

/-- The float whose pattern is the given limb, with its sign. -/
def ofBits (bits : Limb) : Binary64 := ⟨BitVec.ofNat _ bits.toNat⟩

/-- The float `2^exponent` for exponents below 1024, put together from its exponent field. -/
def powerOfTwo (exponent : Nat) : Binary64 := ofBits (Limb.shl (.ofNat (1023 + exponent)) 52)

end BinaryFloat

namespace UInt128

/-- The topmost 64 bits of a value, the lowest of them set when a bit below was set,
and how many bits were below. -/
def topLimb (a : UInt128) : Limb × Nat :=
  let width := a.bitWidth
  if width ≤ Limb.bits then (a.low, 0)
  else
    let discarded := width - Limb.bits
    let top := (a.shr discarded).low
    let mask := if discarded ≥ Limb.bits then Limb.max else Limb.shl 1 discarded - 1
    (top ||| .ofFlag (a.low &&& mask != 0), discarded)

/-- The nearest 64-bit float. -/
def toBinary64 (a : UInt128) : Binary64 :=
  let (top, discarded) := a.topLimb
  (BinaryFloat.ofNat top.toNat).mul (.powerOfTwo discarded)

/-- The nearest 32-bit float. The product is formed in the wider format, so that only the
rounding of the topmost bits and, at the very end, the step to infinity remain. -/
def toBinary32 (a : UInt128) : Binary32 :=
  let (top, discarded) := a.topLimb
  let rounded : Binary32 := .ofNat top.toNat
  ((rounded.convert .binary64).mul (.powerOfTwo discarded)).convert .binary32

/-- The integer part of a finite float that is not negative and below `2^128`, read
off its fields. -/
def truncateBinary64 (x : Binary64) : UInt128 :=
  let bits : Limb := UInt64.ofBitVec x.bits
  let biased := (bits.shr 52 &&& 0x7ff).toNat
  if biased < 1023 then zero
  else
    let significand := (bits &&& 0xfffffffffffff) ||| 0x10000000000000
    if biased ≥ 1075 then (ofLimb significand).shl (biased - 1075)
    else ofLimb (significand.shr (1075 - biased))

/-- The integer part of a float, refused for what is no number, infinite, below zero
or at least `2^128`. The negative zero is not below zero. -/
def ofBinary64 (x : Binary64) : Except FloatError UInt128 :=
  if x.isNaN then .error .notANumber
  else if x.isInfinite then .error .infinite
  else if x.LtInt 0 then .error .negative
  else if ¬x.LtInt (2 ^ 128) then .error .outOfRange
  else .ok (truncateBinary64 x)

/-- The integer part of a 32-bit float; every finite one is below `2^128`. -/
def ofBinary32 (x : Binary32) : Except FloatError UInt128 :=
  if x.isNaN then .error .notANumber
  else if x.isInfinite then .error .infinite
  else if x.LtInt 0 then .error .negative
  else .ok (truncateBinary64 (x.convert .binary64))

end UInt128

namespace Int128

/-- The nearest 64-bit float: that of the magnitude, with the sign put back. -/
def toBinary64 (a : Int128) : Binary64 :=
  let magnitude := a.unsignedAbs.toBinary64
  if a.isNegative then magnitude.neg else magnitude

def toBinary32 (a : Int128) : Binary32 :=
  let magnitude := a.unsignedAbs.toBinary32
  if a.isNegative then magnitude.neg else magnitude

/-- The integer part of a finite float between `-2^127` and `2^127`. -/
def truncateBinary64 (x : Binary64) : Int128 :=
  let magnitude := UInt128.truncateBinary64 x.abs
  if x.LtInt 0 then ⟨-magnitude⟩ else ⟨magnitude⟩

/-- The integer part of a float, refused for what is no number, infinite, below
`-2^127` or at least `2^127`. -/
def ofBinary64 (x : Binary64) : Except FloatError Int128 :=
  if x.isNaN then .error .notANumber
  else if x.isInfinite then .error .infinite
  else if ¬x.LtInt (2 ^ 127) ∨ x.LtInt (-2 ^ 127) then .error .outOfRange
  else .ok (truncateBinary64 x)

/-- The integer part of a 32-bit float, by way of the 64-bit float of equal value. -/
def ofBinary32 (x : Binary32) : Except FloatError Int128 := ofBinary64 (x.convert .binary64)

end Int128

end TwoLimb
