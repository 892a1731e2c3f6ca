/-
# Literals

A literal is the text of a constant, possibly in double quotes. It has no margins,
its digit groups are separated by underscores or apostrophes, and a decimal literal
with a leading zero must be all zeros, so that no octal notation passes for decimal.
The mark of a hexadecimal literal stands at its very start. A signed literal may
start with a minus sign and spaces. What denotes no value faults.
-/

import TwoLimb.Text.Encoding
import TwoLimb.Text.Reader

namespace TwoLimb.Text

/-- The separators between the digit groups of a literal. -/
def isGroupMark (byte : UInt8) : Bool := byte == separator || byte == 0x27

/-- A literal without the double quotes around it. -/
def withoutQuotes (bytes : List UInt8) : List UInt8 :=
  match bytes with
  | 0x22 :: rest => if rest.getLast? = some 0x22 then rest.dropLast else bytes
  | _ => bytes

/-- The radix of a literal and what follows its mark. -/
def splitLiteralMark (bytes : List UInt8) : Radix × List UInt8 :=
  match bytes with
  | 0x30 :: mark :: rest =>
      if mark == 0x78 || mark == 0x58 then (.hexadecimal, rest) else (.decimal, bytes)
  | _ => (.decimal, bytes)

/-- Take the digits of a literal, skipping the marks between groups. -/
def scanLiteral (r : DigitReader) : List UInt8 → Except NumeralError DigitReader
  | [] => .ok r
  | byte :: rest =>
      if isGroupMark byte then scanLiteral r rest
      else
        match r.read byte with
        | .error cause => .error cause
        | .ok next => scanLiteral next rest

/-- The number written by a literal without quotes and sign. -/
def literalMagnitude (bytes : List UInt8) : Except NumeralError UInt128 :=
  let (radix, body) := splitLiteralMark bytes
  match scanLiteral (.strictly radix) body with
  | .error cause => .error cause
  | .ok reader => reader.result (radix == .hexadecimal)

/-- The number written by an unsigned literal. -/
def readLiteral (bytes : List UInt8) : Except NumeralError UInt128 :=
  literalMagnitude (withoutQuotes bytes)

/-- Whether a literal is negated, and what follows its sign and spaces. -/
def splitLiteralSign (bytes : List UInt8) : Bool × List UInt8 :=
  match bytes with
  | 0x2d :: rest => (true, rest.dropWhile (· == 0x20))
  | _ => (false, bytes)

/-- The number written by a signed literal. -/
def readSignedLiteral (bytes : List UInt8) : Except NumeralError Int128 :=
  let (negative, body) := splitLiteralSign (withoutQuotes bytes)
  let limit := Int128.min.bits
  match literalMagnitude body with
  | .error cause => .error cause
  | .ok value =>
      if negative then
        if value.isGreaterThan limit then .error .overflow else .ok ⟨-value⟩
      else if value.isLessThan limit then .ok ⟨value⟩
      else .error .overflow

/-- The result of reading a literal, its failure turned into a fault. -/
def faultText {α : Type} : Except NumeralError α → Except Fault α
  | .ok value => .ok value
  | .error cause => .error (.literal cause)

end TwoLimb.Text

namespace TwoLimb

open Text

/-- The value of an unsigned literal. -/
def UInt128.ofLiteral (text : String) : Except Fault UInt128 :=
  faultText (readLiteral (utf8 text.toList))

/-- The value of a signed literal. -/
def Int128.ofLiteral (text : String) : Except Fault Int128 :=
  faultText (readSignedLiteral (utf8 text.toList))

end TwoLimb
