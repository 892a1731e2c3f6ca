/-
# Binary floating point numbers

A float is a bit pattern: a sign, an exponent field and a fraction field. Its format
says how wide the fields are. The magnitude of every finite float is a whole number
of units, where the unit is the least positive float of the format, so exact
arithmetic on floats is arithmetic on natural numbers. An operation on floats is the
exact operation followed by `nearest`, which finds the pattern nearest to a number
of units, the even one of two, and infinity beyond the largest finite float.
-/

import TwoLimb.Float.Rounding

namespace TwoLimb

/-- A binary interchange format. -/
structure BinaryFormat where
  /-- The digits of a significand, with the leading one. -/
  precision : Nat
  /-- The width of the exponent field. -/
  exponentBits : Nat
deriving DecidableEq, Inhabited

namespace BinaryFormat

def binary64 : BinaryFormat := ⟨53, 11⟩

def binary32 : BinaryFormat := ⟨24, 8⟩

variable (f : BinaryFormat)

/-- The number of bits in a pattern. -/
def width : Nat := f.exponentBits + f.precision

/-- The width of the fraction field, which omits the leading one. -/
def fractionBits : Nat := f.precision - 1

/-- The unit is `2^(-unitExponent)`. -/
def unitExponent : Nat := 2 ^ (f.exponentBits - 1) - 2 + f.fractionBits

/-- The pattern of infinity without its sign: all exponent bits set. -/
def infinity : Nat := (2 ^ f.exponentBits - 1) * 2 ^ f.fractionBits

/-- The pattern without its sign that an operation gives where it has no number to give. -/
def quietNaN : Nat := f.infinity + 2 ^ (f.fractionBits - 1)

/-- The magnitude of a finite pattern without sign, in units. With exponent field
zero the fraction counts units; otherwise the leading one is restored. -/
def units (pattern : Nat) : Nat :=
  let exponent := pattern / 2 ^ f.fractionBits
  let fraction := pattern % 2 ^ f.fractionBits
  if exponent = 0 then fraction else (2 ^ f.fractionBits + fraction) * 2 ^ (exponent - 1)

/-- The pattern without sign nearest to `n / 2^places` units. Patterns count upwards
with their magnitudes, so a significand that rounds up to the next power of two
carries into the exponent field by itself. -/
def nearest (n places : Nat) : Nat :=
  let excess := bitLength n - places - f.precision
  let pattern := excess * 2 ^ f.fractionBits + roundHalfEven n (places + excess)
  if pattern < f.infinity then pattern else f.infinity

end BinaryFormat

/-- A float of the given format as its bit pattern. -/
structure BinaryFloat (f : BinaryFormat) where
  bits : BitVec f.width
deriving DecidableEq

abbrev Binary64 := BinaryFloat .binary64

abbrev Binary32 := BinaryFloat .binary32

namespace BinaryFloat

variable {f : BinaryFormat}

/-- The float with the given sign and unsigned pattern. -/
def ofPattern (negative : Bool) (pattern : Nat) : BinaryFloat f :=
  ⟨BitVec.ofNat f.width (negative.toNat * 2 ^ (f.width - 1) + pattern)⟩

def isNegative (x : BinaryFloat f) : Bool := x.bits.msb

def pattern (x : BinaryFloat f) : Nat := x.bits.toNat % 2 ^ (f.width - 1)

/-- Whether the pattern stands for no number. -/
def isNaN (x : BinaryFloat f) : Bool := f.infinity < x.pattern

/-- Whether the pattern stands for one of the two infinities. -/
def isInfinite (x : BinaryFloat f) : Bool := x.pattern == f.infinity

/-- The magnitude of a finite float in units. -/
def units (x : BinaryFloat f) : Nat := f.units x.pattern

/-- The exact value of a finite float in units, with its sign. -/
def value (x : BinaryFloat f) : Int := if x.isNegative then -x.units else x.units

/-- A finite float is less than an integer. -/
def LtInt (x : BinaryFloat f) (n : Int) : Prop := x.value < n * 2 ^ f.unitExponent

instance (x : BinaryFloat f) (n : Int) : Decidable (x.LtInt n) :=
  inferInstanceAs (Decidable (_ < _))

/-- The float of opposite sign. -/
def neg (x : BinaryFloat f) : BinaryFloat f := ofPattern (!x.isNegative) x.pattern

/-- The float without its sign. -/
def abs (x : BinaryFloat f) : BinaryFloat f := ofPattern false x.pattern

/-- The float nearest to a natural number. -/
def ofNat (n : Nat) : BinaryFloat f := ofPattern false (f.nearest (n * 2 ^ f.unitExponent) 0)

/-- The product, rounded to nearest. The units of two floats multiply to a number of squared
units. An infinity times a zero is no number. -/
def mul (x y : BinaryFloat f) : BinaryFloat f :=
  let negative := x.isNegative ^^ y.isNegative
  if x.isNaN || y.isNaN then ofPattern negative f.quietNaN
  else if x.isInfinite || y.isInfinite then
    ofPattern negative (if x.pattern = 0 ∨ y.pattern = 0 then f.quietNaN else f.infinity)
  else ofPattern negative (f.nearest (x.units * y.units) f.unitExponent)

/-- The float of another format nearest to the given one. Infinities keep their
sign, and a pattern that stands for no number becomes one that stands for none. -/
def convert (g : BinaryFormat) (x : BinaryFloat f) : BinaryFloat g :=
  if x.isNaN then ofPattern x.isNegative g.quietNaN
  else if x.isInfinite then ofPattern x.isNegative g.infinity
  else ofPattern x.isNegative (g.nearest (x.units * 2 ^ g.unitExponent) f.unitExponent)

end BinaryFloat

end TwoLimb
