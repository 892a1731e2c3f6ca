/-
# Numerals

The digits of a value in one of four radices, most significant first, as ASCII bytes
without sign or base mark. For a power of two the digits are groups of bits. Decimal
digits come in chunks of nineteen, the most that fit a limb: the value is divided by
`10^19` until nothing is left, every chunk but the first keeps its leading zeros, and
the first has none.
-/

import TwoLimb.UInt128.Division
import TwoLimb.UInt128.Shift

namespace TwoLimb.Text

/-- The radices in which values are written. -/
inductive Radix
  | binary
  | octal
  | decimal
  | hexadecimal
deriving DecidableEq, Inhabited

namespace Radix

/-- The number of digits of a radix. -/
def value : Radix → Nat
  | .binary => 2
  | .octal => 8
  | .decimal => 10
  | .hexadecimal => 16

/-- The base mark that may stand before the digits. -/
def mark : Radix → String
  | .binary => "0b"
  | .octal => "0o"
  | .decimal => ""
  | .hexadecimal => "0x"

def name : Radix → String
  | .binary => "Binary"
  | .octal => "Octal"
  | .decimal => "Decimal"
  | .hexadecimal => "Hexadecimal"

end Radix

def zeroDigit : UInt8 := 0x30

/-- The ASCII digit of a number below sixteen. -/
def digitByte (uppercase : Bool) (digit : Nat) : UInt8 :=
  if digit < 10 then UInt8.ofNat (0x30 + digit)
  else UInt8.ofNat ((if uppercase then 0x41 else 0x61) + (digit - 10))

/-- Cutting off the lowest digit makes a value smaller. -/
theorem shr_lt_of_not_isZero {a : UInt128} (ha : ¬a.isZero = true) {places : Nat}
    (hplaces : 0 < places ∧ places < 64) : (a.shr places).toNat < a.toNat := by
  rw [UInt128.toNat_shr a (by omega)]
  have hpos : a.toNat ≠ 0 := fun hzero => ha ((UInt128.isZero_iff a).mpr hzero)
  exact Nat.div_lt_self (Nat.pos_of_ne_zero hpos) (Nat.one_lt_two_pow (by omega))

/-- The lowest digit of a value in the radix `2^places`. -/
def lowestDigit (places : Nat) (a : UInt128) : Nat := (a.low &&& Limb.shl 1 places - 1).toNat

/-- The digits of a value in the radix `2^places`, in front of `tail`; none for zero. -/
def bitDigits (uppercase : Bool) (places : Nat) (hplaces : 0 < places ∧ places < 64)
    (rest : UInt128) (tail : List UInt8) : List UInt8 :=
  if hrest : rest.isZero = true then tail
  else
    have : (rest.shr places).toNat < rest.toNat := shr_lt_of_not_isZero hrest hplaces
    bitDigits uppercase places hplaces (rest.shr places)
      (digitByte uppercase (lowestDigit places rest) :: tail)
termination_by rest.toNat

/-- The decimal digits of a limb, in front of `tail`; none for zero. -/
def limbDigits (x : Limb) (tail : List UInt8) : List UInt8 :=
  if hx : x = 0 then tail
  else limbDigits (x / 10) (digitByte false (x % 10).toNat :: tail)
termination_by x.toNat
decreasing_by
  have hpos : x.toNat ≠ 0 := fun hzero => hx (UInt64.toNat_inj.mp hzero)
  rw [UInt64.toNat_div]
  exact Nat.div_lt_self (Nat.pos_of_ne_zero hpos) (by decide)

/-- The number of decimal digits in a chunk. -/
def chunkDigits : Nat := 19

/-- The largest power of ten that fits a limb. -/
def chunkSize : Limb := 10000000000000000000

/-- The digits of a chunk that is not the first: leading zeros fill it up. -/
def paddedChunk (x : Limb) (tail : List UInt8) : List UInt8 :=
  let digits := limbDigits x []
  List.replicate (chunkDigits - digits.length) zeroDigit ++ digits ++ tail

/-- The digits of at most `chunks` chunks, in front of `tail`. -/
def decimalDigits : (chunks : Nat) → (rest : UInt128) → (tail : List UInt8) → List UInt8
  | 0, _, tail => tail
  | chunks + 1, rest, tail =>
      let result := rest.divMod (.ofLimb chunkSize)
      if result.quotient.isZero then limbDigits result.remainder.low tail
      else decimalDigits chunks result.quotient (paddedChunk result.remainder.low tail)

/-- The most chunks a value has: `2^128` is below the third power of `10^19`. -/
def maxChunks : Nat := 3

/-- The digits of a value; zero has the one digit zero. -/
def digits (a : UInt128) (radix : Radix) (uppercase : Bool) : List UInt8 :=
  if a.isZero then [zeroDigit]
  else
    match radix with
    | .binary => bitDigits uppercase 1 (by decide) a []
    | .octal => bitDigits uppercase 3 (by decide) a []
    | .hexadecimal => bitDigits uppercase 4 (by decide) a []
    | .decimal => decimalDigits maxChunks a []

def asciiChars (bytes : List UInt8) : List Char := bytes.map fun byte => Char.ofNat byte.toNat

end TwoLimb.Text

namespace TwoLimb

/-- The decimal numeral of an unsigned value. -/
def UInt128.toDecimal (a : UInt128) : String :=
  String.ofList (Text.asciiChars (Text.digits a .decimal false))

end TwoLimb
