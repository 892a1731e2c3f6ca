/-
# The target

What the machine under this library offers, and which engine was chosen for it. None
of it changes a result. It is reported in one line of text and, on request, logged.
-/

import TwoLimb.UInt128.Arithmetic
import TwoLimb.UInt128.Bytes

namespace TwoLimb

/-- The levels at which the library logs. -/
inductive LogLevel
  | info
  | debug
deriving DecidableEq, Inhabited

structure LogLine where
  level : LogLevel
  text : String
deriving DecidableEq, Inhabited

/-- The written name of a log level. -/
def LogLevel.name : LogLevel → String
  | .info => "INFO"
  | .debug => "DEBUG"

/-- A logged line with its level in front. -/
def LogLine.render (line : LogLine) : String := line.level.name ++ " " ++ line.text

/-- The written name of a byte order. -/
def ByteOrder.name : ByteOrder → String
  | .little => "LittleEndian"
  | .big => "BigEndian"

/-- Capabilities of a target, together with the strategy chosen for it. -/
structure Target where
  strategy : Strategy
  /-- Whether wide words lower to two machine words. -/
  hasWideWords : Bool
  /-- Whether carry and borrow instructions exist. -/
  hasCarry : Bool
  /-- Whether a multiplication of two limbs into a pair exists. -/
  hasWideMul : Bool
  /-- Whether a division of a pair by a limb exists. -/
  hasWideDiv : Bool
  byteOrder : ByteOrder
deriving DecidableEq, Inhabited

namespace Target

/-- The 64-bit little-endian target that this library is set up for. -/
def selected : Target where
  strategy := Engine.selected.strategy
  hasWideWords := true
  hasCarry := true
  hasWideMul := true
  hasWideDiv := true
  byteOrder := .little

def flagText (flag : Bool) : String := if flag then "true" else "false"

/-- The capabilities on one line. -/
def render (target : Target) : String :=
  "mode=" ++ target.strategy.name
    ++ " native_wide_word=" ++ flagText target.hasWideWords
    ++ " carry_intrinsic=" ++ flagText target.hasCarry
    ++ " wide_multiply=" ++ flagText target.hasWideMul
    ++ " wide_divide=" ++ flagText target.hasWideDiv
    ++ " byte_order=" ++ target.byteOrder.name

/-- The line that reports a target. -/
def report (target : Target) : LogLine := ⟨.info, "uint128 backend: " ++ target.render⟩

end Target

end TwoLimb
