/-
# Fields

A field is a numeral laid out in code units: sign, base mark, digits, and fill up to
a minimum width. Fill goes to the right of the text, to its left, to both sides, or
between the mark and the digits. The layout knows nothing of the encoding but how it
encodes ASCII.
-/

import TwoLimb.Int128.Basic
import TwoLimb.Text.CodeUnit
import TwoLimb.Text.Numeral

namespace TwoLimb.Text

/-- Where the fill of a field goes. -/
inductive Alignment
  | left
  | right
  | center
  /-- Between sign and mark on one side and the digits on the other. -/
  | internal
deriving DecidableEq

instance : Inhabited Alignment := ⟨.right⟩

def Alignment.name : Alignment → String
  | .left => "Left"
  | .right => "Right"
  | .center => "Center"
  | .internal => "Internal"

/-- How a numeral is laid out. -/
structure FieldSpec where
  radix : Radix := .decimal
  /-- The least number of code units. -/
  width : Nat := 0
  /-- The fill, an ASCII byte. -/
  fill : UInt8 := 0x20
  /-- Whether hexadecimal digits, and their mark, are in upper case. -/
  uppercase : Bool := false
  /-- Whether the base mark is written. -/
  marked : Bool := false
  align : Alignment := .right
deriving DecidableEq, Inhabited

/-- The amounts of fill before the text, between mark and digits, and after the text. -/
structure Fill where
  before : Nat
  inside : Nat
  after : Nat
deriving DecidableEq, Inhabited

/-- How an amount of fill is distributed. When it cannot be halved, the larger part
of centred fill comes after the text. -/
def Alignment.fill (align : Alignment) (amount : Nat) : Fill :=
  match align with
  | .left => ⟨0, 0, amount⟩
  | .right => ⟨amount, 0, 0⟩
  | .center => ⟨amount / 2, 0, amount - amount / 2⟩
  | .internal => ⟨0, amount, 0⟩

namespace FieldSpec

/-- The specification with another fill, a fault unless it is ASCII. -/
def setFill (spec : FieldSpec) (fill : UInt8) : Except Fault FieldSpec :=
  if fill < 0x80 then .ok { spec with fill := fill } else .error .fillNotAscii

/-- The base mark that a specification asks for, as ASCII bytes. Only hexadecimal has
a mark in upper case. -/
def markBytes (spec : FieldSpec) : List UInt8 :=
  if !spec.marked then []
  else if spec.uppercase && spec.radix = .hexadecimal then [0x30, 0x58]
  else spec.radix.mark.toList.map fun c => UInt8.ofNat c.toNat

def describe (spec : FieldSpec) : String :=
  let flag (b : Bool) := if b then "true" else "false"
  "FormatSpec \x7b radix: " ++ spec.radix.name
    ++ ", width: " ++ Nat.repr spec.width
    ++ ", fill: " ++ Nat.repr spec.fill.toNat
    ++ ", uppercase: " ++ flag spec.uppercase
    ++ ", prefix: " ++ flag spec.marked
    ++ ", align: " ++ spec.align.name ++ " \x7d"

/-- The field of a numeral with its sign. -/
def render {C : Type} [CodeUnit C] (spec : FieldSpec) (negative : Bool)
    (digits : List UInt8) : List C :=
  let sign : List UInt8 := if negative then [0x2d] else []
  let mark := spec.markBytes
  let amount := spec.width - (sign.length + mark.length + digits.length)
  let pads := spec.align.fill amount
  let fill (count : Nat) : List C := List.replicate count (CodeUnit.ofAscii spec.fill)
  fill pads.before ++ (sign ++ mark).map CodeUnit.ofAscii ++ fill pads.inside
    ++ digits.map CodeUnit.ofAscii ++ fill pads.after

end FieldSpec

end TwoLimb.Text

namespace TwoLimb

open Text

/-- The field of an unsigned value. -/
def UInt128.toUnits {C : Type} [CodeUnit C] (a : UInt128) (spec : FieldSpec) : List C :=
  spec.render false (digits a spec.radix spec.uppercase)

/-- The field of a signed value: sign and magnitude in decimal, and the two's
complement bits in the other radices. -/
def Int128.toUnits {C : Type} [CodeUnit C] (a : Int128) (spec : FieldSpec) : List C :=
  match spec.radix with
  | .decimal => spec.render a.isNegative (digits a.unsignedAbs .decimal false)
  | _ => a.bits.toUnits spec

end TwoLimb
