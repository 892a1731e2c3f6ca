/-
# Faults and errors

Two kinds of failure exist. A fault stops the operation that was asked for, with
a fixed message: an operator was given an operand it is not defined on, or a
literal is malformed. An error is a value handed back to the caller, who is
expected to look at it: an unusable divisor, a text that is no number, a float or
an integer that does not fit.
-/

namespace TwoLimb

/-- Why a text is not a number, or not one that fits. -/
inductive NumeralError
  /-- Nothing but whitespace and separators. -/
  | empty
  /-- A character that is no digit of the radix in force. -/
  | invalidDigit
  /-- A decimal number that starts with a zero and goes on with another digit. -/
  | leadingZero
  /-- A base mark that no digit follows. -/
  | missingDigits
  /-- More than the type holds. -/
  | overflow
deriving DecidableEq, Inhabited

/-- Why a float has no integer value of the wanted type. -/
inductive FloatError
  | negative
  | notANumber
  | infinite
  | outOfRange
deriving DecidableEq, Inhabited

/-- A failed parse, with the text that caused it. -/
structure ParseError where
  cause : NumeralError
  text : String
deriving DecidableEq, Inhabited

/-- Everything that is handed back to the caller. -/
inductive Error
  | divideByZero
  | parse (error : ParseError)
  | floatConversion (error : FloatError)
  | outOfRange
deriving DecidableEq, Inhabited

/-- Everything that stops an operation. -/
inductive Fault
  /-- A quotient was asked for with divisor zero. -/
  | divisionByZero
  /-- A remainder was asked for with divisor zero. -/
  | remainderByZero
  /-- A left shift by a negative amount or by 128 and more. -/
  | shiftLeft
  /-- A right shift by a negative amount or by 128 and more. -/
  | shiftRight
  /-- A bit position of 128 or more. -/
  | bitIndex
  /-- A fill that is no ASCII character. -/
  | fillNotAscii
  /-- A two-limb dividend whose quotient does not fit a limb. -/
  | wideQuotient
  /-- A literal that denotes no value. -/
  | literal (cause : NumeralError)
deriving DecidableEq, Inhabited

/-- The description of a failed parse. -/
def NumeralError.description : NumeralError → String
  | .empty => "no digits"
  | .invalidDigit => "invalid digit"
  | .leadingZero => "leading zero in decimal number"
  | .missingDigits => "prefix without digits"
  | .overflow => "number too large"

/-- The message of a failed float conversion. -/
def FloatError.message : FloatError → String
  | .negative => "negative float has no unsigned value"
  | .notANumber => "NaN has no integer value"
  | .infinite => "infinite float has no integer value"
  | .outOfRange => "float out of range of the integer type"

/-- The message of a malformed literal. -/
def NumeralError.literalMessage : NumeralError → String
  | .empty => "128-bit literal without digits"
  | .invalidDigit =>
      "invalid digit in 128-bit literal (only decimal and 0x are supported, without suffix)"
  | .leadingZero => "leading zero in decimal 128-bit literal"
  | .missingDigits => "no digits after 0x in 128-bit literal"
  | .overflow => "128-bit literal out of range"

/-- The message a fault stops with. -/
def Fault.message : Fault → String
  | .divisionByZero => "attempt to divide by zero"
  | .remainderByZero => "attempt to calculate the remainder with a divisor of zero"
  | .shiftLeft => "attempt to shift left with overflow"
  | .shiftRight => "attempt to shift right with overflow"
  | .bitIndex => "assertion failed: index < Self::BITS"
  | .fillNotAscii => "assertion failed: fill.is_ascii()"
  | .wideQuotient => "assertion failed: high < divisor"
  | .literal cause => cause.literalMessage

end TwoLimb
