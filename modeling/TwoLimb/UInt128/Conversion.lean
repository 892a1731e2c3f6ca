/-
# Conversions of unsigned integers

Towards a wider type every value that is not negative survives. Towards a narrower
one a value converts when the type holds it, and is refused otherwise; the
truncating conversions never refuse and keep the lowest bits.
-/

import TwoLimb.Fault
import TwoLimb.FixedWidth
import TwoLimb.UInt128.Basic

namespace TwoLimb.UInt128

/-- One for true and zero for false. -/
def ofFlag (flag : Bool) : UInt128 := ⟨0, .ofFlag flag⟩

/-- A machine integer, refused when it is negative. -/
def ofFixedWidth (t : FixedWidth) (x : t.Value) : Except Error UInt128 :=
  if t.toInt x < 0 then .error .outOfRange else .ok ⟨0, t.widen x⟩

/-- A signed 128-bit word, refused when it is negative. -/
def ofSignedWide (w : BitVec 128) : Except Error UInt128 :=
  if w.msb then .error .outOfRange else .ok (ofWide w)

/-- The machine integer of the same value, refused when the type does not hold it:
the high limb must be zero and the low limb at most the greatest value. -/
def toFixedWidth (t : FixedWidth) (a : UInt128) : Except Error t.Value :=
  if a.high ≠ 0 ∨ t.greatest < a.low.toNat then .error .outOfRange
  else .ok (t.truncate a.low)

/-- The lowest bits of a value as a machine integer. -/
def truncate (t : FixedWidth) (a : UInt128) : t.Value := t.truncate a.low

end TwoLimb.UInt128
