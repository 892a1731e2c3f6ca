/-
# Display

Numbers written with the options of a format string: fill and alignment, a minimum
width in characters, a plus sign, a base mark, and zero fill. Zero fill overrides
fill and alignment and goes after sign and mark. This layout works on characters and
is independent of the layout of fields; where the two overlap they agree.
-/

import TwoLimb.Int128.Basic
import TwoLimb.Text.Numeral

namespace TwoLimb.Text

/-- The alignments of a format string. -/
inductive TextAlign
  | left
  | right
  | center
deriving DecidableEq, Inhabited

/-- The options of a format string. -/
structure FormatOptions where
  fill : Char := ' '
  /-- The alignment, right when none is given. -/
  align : Option TextAlign := none
  width : Option Nat := none
  /-- Whether a value that is not negative gets a plus sign. -/
  plus : Bool := false
  /-- Whether the base mark is written. -/
  alternate : Bool := false
  /-- Whether zeros fill the width after sign and mark. -/
  zero : Bool := false
deriving DecidableEq, Inhabited

namespace FormatOptions

/-- The sign that is written for a number. -/
def sign (options : FormatOptions) (nonnegative : Bool) : List Char :=
  if !nonnegative then ['-'] else if options.plus then ['+'] else []

/-- The amounts of fill before and after a text of the given shortfall. -/
def padding (options : FormatOptions) (shortfall : Nat) : Nat × Nat :=
  match options.align.getD .right with
  | .left => (0, shortfall)
  | .right => (shortfall, 0)
  | .center => (shortfall / 2, (shortfall + 1) / 2)

/-- A number laid out from its sign, base mark and digits. -/
def padIntegral (options : FormatOptions) (nonnegative : Bool) (mark digits : List Char) :
    List Char :=
  let head := options.sign nonnegative ++ (if options.alternate then mark else [])
  let length := head.length + digits.length
  match options.width with
  | none => head ++ digits
  | some width =>
      if width ≤ length then head ++ digits
      else if options.zero then head ++ List.replicate (width - length) '0' ++ digits
      else
        let (before, after) := options.padding (width - length)
        List.replicate before options.fill ++ head ++ digits
          ++ List.replicate after options.fill

end FormatOptions

/-- The forms in which a number is written. The forms for debugging are decimal,
whatever case of hexadecimal they ask for. -/
inductive NumberForm
  | display
  | debug
  | lowerHex
  | upperHex
  | binary
  | octal
  | debugLowerHex
  | debugUpperHex
deriving DecidableEq, Inhabited

namespace NumberForm

def radix : NumberForm → Radix
  | .lowerHex => .hexadecimal
  | .upperHex => .hexadecimal
  | .binary => .binary
  | .octal => .octal
  | _ => .decimal

/-- Whether digits beyond nine are in upper case. -/
def uppercase : NumberForm → Bool
  | .upperHex => true
  | _ => false

end NumberForm

end TwoLimb.Text

namespace TwoLimb

open Text

/-- An unsigned value written in the given form. -/
def UInt128.format (a : UInt128) (form : NumberForm) (options : FormatOptions) : String :=
  String.ofList (options.padIntegral true form.radix.mark.toList
    (asciiChars (digits a form.radix form.uppercase)))

/-- A signed value written in the given form: in decimal with its sign, in the other
radices as its two's complement bits. -/
def Int128.format (a : Int128) (form : NumberForm) (options : FormatOptions) : String :=
  match form.radix with
  | .decimal =>
      String.ofList (options.padIntegral (!a.isNegative) []
        (asciiChars (digits a.unsignedAbs .decimal false)))
  | _ => a.bits.format form options

instance : ToString UInt128 := ⟨fun a => a.format .display {}⟩

instance : ToString Int128 := ⟨fun a => a.format .display {}⟩

end TwoLimb
