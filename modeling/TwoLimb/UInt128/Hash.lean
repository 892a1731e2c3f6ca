/-
# Hashing

A deterministic 64-bit digest of a value, the same on every machine and for every
engine. A digest is mixed limb by limb into a seed; what is fed to an outer hasher
are the limbs themselves, high limb first.
-/

import TwoLimb.UInt128.Basic

namespace TwoLimb

namespace Limb

/-- The fractional part of the golden ratio in 64 bits. -/
def goldenRatio : Limb := 0x9e3779b97f4a7c15

/-- Mix a limb into a seed. -/
def mix (seed value : Limb) : Limb :=
  seed ^^^ (value + goldenRatio + seed.shl 6 + seed.shr 2)

end Limb

namespace UInt128

/-- The digest of a value: the high limb and then the low limb, mixed into zero. -/
def digest (a : UInt128) : Limb := Limb.mix (Limb.mix 0 a.high) a.low

/-- The words a value feeds to a hasher. -/
def hashWords (a : UInt128) : List Limb := [a.high, a.low]

end UInt128

end TwoLimb
