/-
# Quoted text and messages

A text is quoted for a message: in double quotes, with the usual short escapes, and
with the code point in braces for every character that has no printed form of its own
or would attach to the character before it.
-/

import TwoLimb.Fault
import TwoLimb.Text.CombiningMark
import TwoLimb.Text.Hangul
import TwoLimb.Text.Unprintable

namespace TwoLimb.Text

/-- Whether a code point lies in one of the ranges. -/
def inRanges (ranges : List (Nat × Nat)) (value : Nat) : Bool :=
  ranges.any fun range => range.1 ≤ value && value ≤ range.2

/-- Whether a code point beyond ASCII attaches to the one before it. -/
def isAttached (value : Nat) : Bool :=
  inRanges combiningMarks value || inRanges conjoiningJamo value

/-- Whether a code point beyond ASCII has nothing to show. -/
def isInvisible (value : Nat) : Bool :=
  inRanges unprintable value || inRanges hangulFillers value

/-- Whether a character is written as it is. -/
def isPrintable (c : Char) : Bool :=
  if c.toNat < 0x80 then 0x20 ≤ c.toNat && c.toNat < 0x7f
  else !isAttached c.toNat && !isInvisible c.toNat

/-- A character as it is written between quotes. -/
def quoteChar (c : Char) : List Char :=
  match c with
  | '\x00' => ['\\', '0']
  | '\t' => ['\\', 't']
  | '\n' => ['\\', 'n']
  | '\x0d' => ['\\', 'r']
  | '\x22' => ['\\', '\x22']
  | '\\' => ['\\', '\\']
  | c =>
      if isPrintable c then [c]
      else ['\\', 'u', '\x7b'] ++ Nat.toDigits 16 c.toNat ++ ['\x7d']

def quote (text : String) : String :=
  String.ofList (['\x22'] ++ text.toList.flatMap quoteChar ++ ['\x22'])

end TwoLimb.Text

namespace TwoLimb

/-- The message of a failed parse. -/
def ParseError.message (error : ParseError) : String :=
  "cannot parse " ++ Text.quote error.text ++ ": " ++ error.cause.description

def Error.message : Error → String
  | .divideByZero => "division or modulus by zero"
  | .parse error => error.message
  | .floatConversion error => error.message
  | .outOfRange => "value out of range of the target type"

/-- The message of what caused an error, for an error that has a cause of its own. -/
def Error.source : Error → Option String
  | .parse error => some error.message
  | .floatConversion error => some error.message
  | _ => none

end TwoLimb
