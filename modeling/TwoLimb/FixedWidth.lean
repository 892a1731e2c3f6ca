/-
# Fixed-width integer types

The integer types of a machine with 64-bit words: four widths, each signed or
unsigned. A value of such a type is its bits, and the type says which integer the
bits stand for. Sizes and offsets in memory are 64-bit values and need no type of
their own.
-/

import TwoLimb.Limb

namespace TwoLimb

/-- The widths of the machine's integer types. -/
inductive Width
  | w8
  | w16
  | w32
  | w64
deriving DecidableEq, Inhabited

/-- The number of bits of a width. -/
def Width.bits : Width → Nat
  | .w8 => 8
  | .w16 => 16
  | .w32 => 32
  | .w64 => 64

structure FixedWidth where
  signed : Bool
  width : Width
deriving DecidableEq, Inhabited

namespace FixedWidth

/-- The number of bits of a type. -/
def bits (t : FixedWidth) : Nat := t.width.bits

/-- The values of a type, as their bits. -/
abbrev Value (t : FixedWidth) := BitVec t.bits

/-- The integer that a value stands for. -/
def toInt (t : FixedWidth) (x : t.Value) : Int := if t.signed then x.toInt else x.toNat

/-- The value that stands for an integer, taken modulo the width. -/
def ofInt (t : FixedWidth) (n : Int) : t.Value := BitVec.ofInt t.bits n

/-- The least integer of a type. -/
def least (t : FixedWidth) : Int := if t.signed then -2 ^ (t.bits - 1) else 0

/-- The greatest integer of a type. -/
def greatest (t : FixedWidth) : Int :=
  if t.signed then 2 ^ (t.bits - 1) - 1 else 2 ^ t.bits - 1

/-- The type holds the integer. -/
def Holds (t : FixedWidth) (n : Int) : Prop := t.least ≤ n ∧ n ≤ t.greatest

instance (t : FixedWidth) (n : Int) : Decidable (t.Holds n) :=
  inferInstanceAs (Decidable (_ ∧ _))

/-- A value widened to a limb: with copies of its sign for a signed type, with zeros
for an unsigned one. -/
def widen (t : FixedWidth) (x : t.Value) : Limb :=
  UInt64.ofBitVec (if t.signed then x.signExtend 64 else x.setWidth 64)

/-- The lowest bits of a limb as a value. -/
def truncate (t : FixedWidth) (x : Limb) : t.Value := x.toBitVec.setWidth t.bits

end FixedWidth

end TwoLimb
