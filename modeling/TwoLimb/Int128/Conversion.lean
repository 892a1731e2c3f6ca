/-
# Conversions of signed integers

A signed machine integer is widened with copies of its sign, an unsigned one with
zeros. In the other direction a value fits a signed type when its high limb is the
sign extension of its low limb and the low limb is in the range of the type, and an
unsigned type when its high limb is zero and the low limb in range. Between the two
128-bit types exactly the values with a clear sign bit are exchanged.
-/

import TwoLimb.FixedWidth
import TwoLimb.Int128.Basic

namespace TwoLimb.Int128

/-- One for true and zero for false. -/
def ofFlag (flag : Bool) : Int128 := ofParts 0 (.ofFlag flag)

/-- A machine integer. -/
def ofFixedWidth (t : FixedWidth) (x : t.Value) : Int128 :=
  let low := t.widen x
  if t.signed then ofParts (low.toInt64 >>> 63) low else ofParts 0 low

/-- The value whose two's complement bits are the given word. -/
def ofWide (w : BitVec 128) : Int128 := ⟨.ofWide w⟩

/-- The two's complement bits of a value as one word. -/
def toWide (a : Int128) : BitVec 128 := a.bits.toWide

/-- The unsigned integer of the same value, refused when there is none. -/
def toUInt128 (a : Int128) : Except Error UInt128 :=
  if a.isNegative then .error .outOfRange else .ok a.bits

/-- The signed integer of the same value, refused when there is none. -/
def ofUInt128 (a : UInt128) : Except Error Int128 :=
  if a.high &&& Limb.signBit ≠ 0 then .error .outOfRange else .ok ⟨a⟩

/-- The machine integer of the same value, refused when the type does not hold it. -/
def toFixedWidth (t : FixedWidth) (a : Int128) : Except Error t.Value :=
  if t.signed then
    let low := a.low.toInt64
    if a.high ≠ low >>> 63 ∨ low.toInt < t.least ∨ t.greatest < low.toInt then
      .error .outOfRange
    else .ok (t.truncate a.low)
  else if a.high ≠ 0 ∨ t.greatest < a.low.toNat then .error .outOfRange
  else .ok (t.truncate a.low)

/-- The lowest bits of a value as a machine integer. -/
def truncate (t : FixedWidth) (a : Int128) : t.Value := t.truncate a.low

end TwoLimb.Int128
