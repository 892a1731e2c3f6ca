/-
# Reading numbers

The text of a number may have margins around it, which are ASCII whitespace and
separators. It starts with a hexadecimal mark or with decimal digits. Separators
between digits are skipped. Digits are taken one by one, each step refusing what is
no digit and what no longer fits, so the first offending unit decides the error.

A signed text may start with one sign. Hexadecimal without a sign stands for two's
complement bits, which is how negative values are written in it; with a sign it is a
magnitude, as decimal always is.
-/

import TwoLimb.Fault
import TwoLimb.Int128.Basic
import TwoLimb.Text.CodeUnit
import TwoLimb.Text.Numeral

namespace TwoLimb.Text

/-- The separator, skipped between digits. -/
def separator : UInt8 := 0x5f

/-- ASCII whitespace: space, tabulator, line feed, form feed and carriage return. -/
def isBlank (byte : UInt8) : Bool :=
  byte == 0x20 || byte == 0x09 || byte == 0x0a || byte == 0x0c || byte == 0x0d

/-- The number that an ASCII digit stands for in a radix up to sixteen. -/
def digitValue? (radix : Radix) (byte : UInt8) : Option Nat :=
  let digit? : Option Nat :=
    if 0x30 ≤ byte ∧ byte ≤ 0x39 then some (byte.toNat - 0x30)
    else if 0x61 ≤ byte ∧ byte ≤ 0x66 then some (byte.toNat - 0x61 + 10)
    else if 0x41 ≤ byte ∧ byte ≤ 0x46 then some (byte.toNat - 0x41 + 10)
    else none
  digit?.filter (· < radix.value)

/-- What is known after some digits of a number. -/
structure DigitReader where
  radix : Radix
  value : UInt128 := .zero
  /-- Whether there was a digit. -/
  started : Bool := false
  /-- Whether the first digit was a zero. -/
  leadingZero : Bool := false
  /-- Whether a decimal number must not go on after a leading zero. -/
  strict : Bool := false
deriving DecidableEq, Inhabited

namespace DigitReader

/-- A reader that takes leading zeros as they come. -/
def lenient (radix : Radix) : DigitReader := { radix := radix }

/-- A reader that refuses decimal digits other than zero after a leading zero. -/
def strictly (radix : Radix) : DigitReader := { radix := radix, strict := true }

def read (r : DigitReader) (byte : UInt8) : Except NumeralError DigitReader :=
  match digitValue? r.radix byte with
  | none => .error .invalidDigit
  | some digit =>
      if r.strict && r.radix == .decimal && r.leadingZero && digit != 0 then
        .error .leadingZero
      else
        match r.value.mul? (.ofNat r.radix.value) with
        | none => .error .overflow
        | some shifted =>
            match shifted.add? (.ofNat digit) with
            | none => .error .overflow
            | some value =>
                .ok { r with
                  value := value
                  started := true
                  leadingZero := r.leadingZero || (!r.started && digit == 0) }

/-- The number read, an error when there was no digit. -/
def result (r : DigitReader) (marked : Bool) : Except NumeralError UInt128 :=
  if r.started then .ok r.value
  else if marked then .error .missingDigits
  else .error .empty

end DigitReader

variable {C : Type} [CodeUnit C]

/-- Whether a unit belongs to a margin: whitespace and separators, which is what fill
may consist of. -/
def isMargin (unit : C) : Bool :=
  match CodeUnit.toAscii? unit with
  | some byte => isBlank byte || byte == separator
  | none => false

/-- The text without the margin before it. -/
def dropMargin (units : List C) : List C := units.dropWhile isMargin

/-- The text without the margin after it. -/
def dropEndMargin (units : List C) : List C :=
  (units.reverse.dropWhile isMargin).reverse

/-- The text without the margins around it. -/
def trimMargins (units : List C) : List C := dropEndMargin (dropMargin units)

/-- Whether a unit is the given ASCII byte. -/
def isAscii (unit : C) (byte : UInt8) : Bool := CodeUnit.toAscii? unit == some byte

/-- The radix of a text and what follows its base mark. A margin may sit between the
mark and the digits. -/
def splitMark (units : List C) : Radix × List C :=
  match units with
  | zero :: mark :: rest =>
      if isAscii zero 0x30 && (isAscii mark 0x78 || isAscii mark 0x58) then
        (.hexadecimal, dropMargin rest)
      else (.decimal, units)
  | _ => (.decimal, units)

/-- Take the digits of a text, skipping separators. -/
def scan (r : DigitReader) : List C → Except NumeralError DigitReader
  | [] => .ok r
  | unit :: rest =>
      match CodeUnit.toAscii? unit with
      | none => .error .invalidDigit
      | some byte =>
          if byte == separator then scan r rest
          else
            match r.read byte with
            | .error cause => .error cause
            | .ok next => scan next rest

/-- The number written by a text without sign, and its radix. A margin may precede it,
as between a sign and the digits. -/
def readMagnitude (units : List C) : Except NumeralError (UInt128 × Radix) :=
  let (radix, body) := splitMark (dropMargin units)
  match scan (.lenient radix) body with
  | .error cause => .error cause
  | .ok reader =>
      match reader.result (radix == .hexadecimal) with
      | .error cause => .error cause
      | .ok value => .ok (value, radix)

/-- The number written by an unsigned text. -/
def readUnsigned (units : List C) : Except NumeralError UInt128 :=
  match readMagnitude (trimMargins units) with
  | .error cause => .error cause
  | .ok (value, _) => .ok value

/-- The signs that may precede a number. -/
inductive Sign
  | minus
  | plus
deriving DecidableEq, Inhabited

/-- The sign of a text, if it has one, and what follows. -/
def splitSign (units : List C) : Option Sign × List C :=
  match units with
  | [] => (none, [])
  | first :: rest =>
      if isAscii first 0x2d then (some .minus, rest)
      else if isAscii first 0x2b then (some .plus, rest)
      else (none, units)

/-- The signed value of a magnitude after a sign. The limit `2^127` itself is taken
only by the minus sign. -/
def applySign (sign : Option Sign) (radix : Radix) (value : UInt128) :
    Except NumeralError Int128 :=
  let limit := Int128.min.bits
  match sign with
  | none =>
      if radix = .hexadecimal ∨ value.isLessThan limit then .ok ⟨value⟩ else .error .overflow
  | some .minus =>
      if value.isGreaterThan limit then .error .overflow else .ok ⟨-value⟩
  | some .plus => if value.isLessThan limit then .ok ⟨value⟩ else .error .overflow

/-- The number written by a signed text. -/
def readSigned (units : List C) : Except NumeralError Int128 :=
  let (sign, rest) := splitSign (trimMargins units)
  match readMagnitude rest with
  | .error cause => .error cause
  | .ok (value, radix) => applySign sign radix value

/-- The result of a reading, its failure reported with the whole text. -/
def reportText {α : Type} (units : List C) : Except NumeralError α → Except ParseError α
  | .ok value => .ok value
  | .error cause => .error ⟨cause, textOfUnits units⟩

end TwoLimb.Text

namespace TwoLimb

open Text

/-- The unsigned value of a text in any encoding. -/
def UInt128.ofUnits {C : Type} [CodeUnit C] (units : List C) : Except ParseError UInt128 :=
  reportText units (readUnsigned units)

/-- The signed value of a text in any encoding. -/
def Int128.ofUnits {C : Type} [CodeUnit C] (units : List C) : Except ParseError Int128 :=
  reportText units (readSigned units)

end TwoLimb
