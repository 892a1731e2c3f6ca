/-
# Bytes of an unsigned integer

Sixteen bytes in little-endian order are the eight bytes of the low limb and then
the eight of the high limb, each with its least significant byte first. Big-endian
order is the same list reversed.
-/

import TwoLimb.UInt128.Basic

namespace TwoLimb

/-- The two orders in which bytes of a number are laid out. -/
inductive ByteOrder
  | little
  | big
deriving DecidableEq, Inhabited

namespace Limb

/-- The limb with the given bytes, least significant first. -/
def ofBytes : List UInt8 → Limb
  | [] => 0
  | byte :: rest => byte.toUInt64 ||| (ofBytes rest).shl 8

/-- The eight bytes of a limb, least significant first. -/
def bytes (x : Limb) : List UInt8 := (List.range 8).map x.byte

@[simp]
theorem length_bytes (x : Limb) : x.bytes.length = 8 := by
  simp [bytes]

end Limb

namespace UInt128

/-- The value whose little-endian bytes are given. -/
def ofLittleEndian (bytes : Vector UInt8 16) : UInt128 :=
  ⟨.ofBytes (bytes.toList.drop 8), .ofBytes (bytes.toList.take 8)⟩

/-- The bytes of a value, least significant first. -/
def toLittleEndian (a : UInt128) : Vector UInt8 16 :=
  ⟨(a.low.bytes ++ a.high.bytes).toArray, by simp⟩

/-- The value whose big-endian bytes are given. -/
def ofBigEndian (bytes : Vector UInt8 16) : UInt128 := ofLittleEndian bytes.reverse

/-- The bytes of a value, most significant first. -/
def toBigEndian (a : UInt128) : Vector UInt8 16 := a.toLittleEndian.reverse

/-- The value whose bytes are given in the given order. -/
def ofBytes : ByteOrder → Vector UInt8 16 → UInt128
  | .little => ofLittleEndian
  | .big => ofBigEndian

/-- The bytes of a value in the given order. -/
def toBytes (a : UInt128) : ByteOrder → Vector UInt8 16
  | .little => a.toLittleEndian
  | .big => a.toBigEndian

end UInt128

end TwoLimb
