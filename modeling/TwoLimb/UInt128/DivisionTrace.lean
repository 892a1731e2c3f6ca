/-
# Traced division

A division that reports what it does: the operands and the engine, the way it takes,
and the result. The result is that of the plain division; a zero divisor is reported
and nothing follows.
-/

import TwoLimb.Target
import TwoLimb.Text.Numeral

namespace TwoLimb

/-- The way of a division in words. -/
def DivisionPath.describe : DivisionPath → String
  | .zeroDivisor => "zero divisor"
  | .oneLimb divisor =>
      "one limb divisor 0x"
        ++ String.ofList (Text.asciiChars (Text.digits (.ofLimb divisor) .hexadecimal false))
        ++ ", wide division"
  | .divisorExceeds => "divisor exceeds dividend, quotient zero"
  | .twoLimb rounds =>
      "two limb divisor, " ++ Nat.repr rounds ++ " shift-subtract rounds"

namespace UInt128

def divisionLine (text : String) : LogLine := ⟨.debug, "div_mod: " ++ text⟩

/-- The line that opens the trace of a division. -/
def operandLine (a b : UInt128) : LogLine :=
  divisionLine (a.toDecimal ++ " / " ++ b.toDecimal ++ " in mode "
    ++ Engine.selected.strategy.name)

/-- The line that closes the trace of a division. -/
def resultLine (result : DivMod UInt128) : LogLine :=
  divisionLine ("quotient " ++ result.quotient.toDecimal
    ++ " remainder " ++ result.remainder.toDecimal)

/-- What a division reports, with the lines about it: the opening lines are there
before anything is divided, the result has its line after them. -/
def traceReport (a b : UInt128) :
    Option (DivMod UInt128) → Except Error (DivMod UInt128) × List LogLine :=
  let opening := [operandLine a b, divisionLine (a.divisionPath b).describe]
  fun
    | none => (.error .divideByZero, opening)
    | some result => (.ok result, opening ++ [resultLine result])

/-- Quotient and remainder, an error for divisor zero, with the lines that report the
division. The numerals in these lines are made by divisions of their own. -/
def tracedDivMod (a b : UInt128) : Except Error (DivMod UInt128) × List LogLine :=
  divide (traceReport a b) a b

end UInt128

end TwoLimb
