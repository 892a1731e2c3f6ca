/-
# Storage of a value

A 128-bit value is kept in memory either as one wide word or as two limbs. Two
limbs lie in the byte order of the machine: low limb first on a little-endian
machine and high limb first on a big-endian one, so in both cases the sixteen bytes
are those of the wide word. A pair of limbs can therefore be read as a wide word
without touching a byte, and back.
-/

import TwoLimb.UInt128.Bytes

namespace TwoLimb

namespace ByteOrder

/-- The list as it lies in memory, given with the least significant entry first. -/
def arrange {α : Type} : ByteOrder → List α → List α
  | .little, entries => entries
  | .big, entries => entries.reverse

end ByteOrder

/-- Two limbs in the order in which they lie in memory. -/
structure LimbPair where
  first : Limb
  second : Limb
deriving DecidableEq, Inhabited

namespace LimbPair

/-- The pair that stores the given limbs. -/
def ofParts (order : ByteOrder) (high low : Limb) : LimbPair :=
  match order with
  | .little => ⟨low, high⟩
  | .big => ⟨high, low⟩

/-- The high limb of a stored pair. -/
def high (order : ByteOrder) (pair : LimbPair) : Limb :=
  match order with
  | .little => pair.second
  | .big => pair.first

/-- The low limb of a stored pair. -/
def low (order : ByteOrder) (pair : LimbPair) : Limb :=
  match order with
  | .little => pair.first
  | .big => pair.second

def value (order : ByteOrder) (pair : LimbPair) : UInt128 := ⟨pair.high order, pair.low order⟩

/-- The pair that stores a wide word, by shifting and truncating. -/
def ofWide (order : ByteOrder) (word : BitVec 128) : LimbPair :=
  ofParts order (UInt128.ofWide word).high (UInt128.ofWide word).low

/-- The wide word of a stored pair, by shifting and combining. -/
def toWide (order : ByteOrder) (pair : LimbPair) : BitVec 128 := (pair.value order).toWide

/-- The sixteen bytes of a pair, lowest address first. -/
def image (order : ByteOrder) (pair : LimbPair) : List UInt8 :=
  order.arrange pair.first.bytes ++ order.arrange pair.second.bytes

end LimbPair

/-- The number written by bytes with the least significant one first. -/
def byteValue (bytes : List UInt8) : Nat :=
  bytes.foldr (fun byte rest => byte.toNat + 256 * rest) 0

/-- A value stored as one wide word. -/
structure WideCell where
  word : BitVec 128
deriving DecidableEq, Inhabited

namespace WideCell

/-- The sixteen bytes of a wide word, lowest address first. -/
def image (order : ByteOrder) (cell : WideCell) : List UInt8 :=
  order.arrange ((List.range 16).map fun i => UInt8.ofNat (cell.word.toNat / 256 ^ i))

/-- The wide word with the given bytes, lowest address first. -/
def ofImage (order : ByteOrder) (bytes : List UInt8) : WideCell :=
  ⟨BitVec.ofNat 128 (byteValue (order.arrange bytes))⟩

/-- A pair of limbs read as a wide word, byte for byte. -/
def ofPair (order : ByteOrder) (pair : LimbPair) : WideCell :=
  ofImage order (pair.image order)

/-- A wide word read as a pair of limbs, byte for byte. -/
def toPair (order : ByteOrder) (cell : WideCell) : LimbPair :=
  let bytes := cell.image order
  ⟨.ofBytes (order.arrange (bytes.take 8)), .ofBytes (order.arrange (bytes.drop 8))⟩

/-- The cell that stores the given limbs. -/
def ofParts (order : ByteOrder) (high low : Limb) : WideCell :=
  ofPair order (.ofParts order high low)

/-- The high limb of a stored word. -/
def high (order : ByteOrder) (cell : WideCell) : Limb := (cell.toPair order).high order

/-- The low limb of a stored word. -/
def low (order : ByteOrder) (cell : WideCell) : Limb := (cell.toPair order).low order

end WideCell

/-- A way to keep values in memory. These operations know how a cell lies in memory, and all
others go through them. -/
structure Storage (α : Type) where
  /-- The order of bytes on the target. -/
  order : ByteOrder
  ofParts : Limb → Limb → α
  high : α → Limb
  low : α → Limb
  ofWide : BitVec 128 → α
  toWide : α → BitVec 128
  /-- The sixteen bytes of a cell, lowest address first. -/
  image : α → List UInt8

/-- Storage as two limbs. -/
def LimbPair.storage (order : ByteOrder) : Storage LimbPair where
  order := order
  ofParts := LimbPair.ofParts order
  high := LimbPair.high order
  low := LimbPair.low order
  ofWide := LimbPair.ofWide order
  toWide := LimbPair.toWide order
  image := LimbPair.image order

/-- Storage as one wide word. -/
def WideCell.storage (order : ByteOrder) : Storage WideCell where
  order := order
  ofParts := WideCell.ofParts order
  high := WideCell.high order
  low := WideCell.low order
  ofWide := WideCell.mk
  toWide := WideCell.word
  image := WideCell.image order

namespace Storage

variable {α : Type} (s : Storage α)

/-- The value of a cell, limb by limb. -/
def view (cell : α) : UInt128 := ⟨s.high cell, s.low cell⟩

/-- The cell that keeps a value. -/
def keep (value : UInt128) : α := s.ofParts value.high value.low

/-- The limbs of a cell with the low one first. -/
def toLimbs (cell : α) : Limb × Limb := (s.view cell).limbs

def ofLimbs (limbs : Limb × Limb) : α := s.keep (.ofLimbs limbs)

/-- The bytes of a cell in the given order. -/
def toBytes (cell : α) (order : ByteOrder) : Vector UInt8 16 := (s.view cell).toBytes order

def ofBytes (order : ByteOrder) (bytes : Vector UInt8 16) : α := s.keep (.ofBytes order bytes)

/-- The bytes of a cell in the order of the target. -/
def toNativeBytes (cell : α) : Vector UInt8 16 := s.toBytes cell s.order

def ofNativeBytes (bytes : Vector UInt8 16) : α := s.ofBytes s.order bytes

end Storage

end TwoLimb
