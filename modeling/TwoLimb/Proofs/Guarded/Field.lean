/-
# Guarded fields and traces

A numeral has at most 128 digits, so with sign and mark the length of a field stays far
below the end of a machine word. Fill is added up to the width that was asked for and not
beyond it, so the length with its fill is a machine word whenever the width is one.

The other texts that are made of numerals, those of the format strings and of the lines
that trace a division, are put together from digits without another check.
-/

import TwoLimb.Proofs.Guarded.Division
import TwoLimb.Proofs.Guarded.Numeral
import TwoLimb.Text.Display
import TwoLimb.Text.Field
import TwoLimb.UInt128.DivisionTrace

namespace TwoLimb

open Text

namespace Text

theorem length_digits_le (a : UInt128) (radix : Radix) (uppercase : Bool) :
    (digits a radix uppercase).length ≤ 128 := by
  by_cases ha : a = .zero
  · rw [ha]
    exact Nat.le_of_ble_eq_true rfl
  · have hbase : 2 ≤ radix.value := radix.one_lt_value
    have hfits : a.toNat < radix.value ^ 128 :=
      Nat.lt_of_lt_of_le a.toNat_lt (Nat.pow_le_pow_left hbase 128)
    rw [digits_eq radix ha, numeral, List.length_map, List.length_reverse]
    exact (Nat.digits_length_le_iff hbase a.toNat).mpr hfits

theorem FieldSpec.length_markBytes_le (spec : FieldSpec) : spec.markBytes.length ≤ 2 := by
  unfold markBytes
  split
  · decide
  · split
    · decide
    · cases spec.radix <;> decide

end Text

namespace Guarded

/-! ### Fields -/

/-- How an amount of fill is distributed. -/
def fill (align : Text.Alignment) (amount : Nat) : Guarded Fill :=
  match align with
  | .left => .ok ⟨0, 0, amount⟩
  | .right => .ok ⟨amount, 0, 0⟩
  | .center => do
      let after ← difference amount (amount / 2)
      .ok ⟨amount / 2, 0, after⟩
  | .internal => .ok ⟨0, amount, 0⟩

@[simp]
theorem fill_eq (align : Text.Alignment) (amount : Nat) :
    fill align amount = .ok (align.fill amount) := by
  cases align with
  | left | right | internal => rfl
  | center => rw [fill, difference_eq (Nat.div_le_self amount 2), ok_bind, Text.Alignment.fill]

/-- The specification with another fill, after the assertion that it is ASCII. -/
def setFill (spec : FieldSpec) (fill : UInt8) : Guarded FieldSpec := do
  require (fill < 0x80) (.fault .fillNotAscii)
  .ok { spec with fill := fill }

theorem setFill_eq (spec : FieldSpec) (fill : UInt8) :
    setFill spec fill = documented (spec.setFill fill) := by
  unfold setFill FieldSpec.setFill require provided
  split <;> rfl

variable {C : Type} [CodeUnit C]

/-- The field of a numeral with its sign. Room for the whole of it is asked for before
anything is written. -/
def render (spec : FieldSpec) (negative : Bool) (digits : List UInt8) : Guarded (List C) := do
  let sign : List UInt8 := if negative then [0x2d] else []
  let mark := spec.markBytes
  let head ← sum 64 sign.length mark.length
  let length ← sum 64 head digits.length
  let amount := spec.width - length
  let pads ← fill spec.align amount
  let _ ← sum 64 length amount
  let fill (count : Nat) : List C := List.replicate count (CodeUnit.ofAscii spec.fill)
  .ok (fill pads.before ++ (sign ++ mark).map CodeUnit.ofAscii ++ fill pads.inside
    ++ digits.map CodeUnit.ofAscii ++ fill pads.after)

theorem render_eq {spec : FieldSpec} (hwidth : spec.width < 2 ^ 64) (negative : Bool)
    {digits : List UInt8} (hdigits : digits.length ≤ 128) :
    render (C := C) spec negative digits = .ok (spec.render negative digits) := by
  have hmark := spec.length_markBytes_le
  have hsign : (if negative then [0x2d] else [] : List UInt8).length ≤ 1 := by
    cases negative <;> decide
  unfold render
  simp only
  rw [sum_eq (by omega), ok_bind, sum_eq (by omega), ok_bind, fill_eq, ok_bind,
    sum_eq (by omega), ok_bind]
  rfl

section Texts

variable (ops : GuardedOps)

/-- The field of an unsigned value. -/
def toUnits (a : UInt128) (spec : FieldSpec) : Guarded (List C) := do
  let digits ← digits ops a spec.radix spec.uppercase
  render spec false digits

/-- An unsigned value written in the given form. -/
def format (a : UInt128) (form : NumberForm) (options : FormatOptions) : Guarded String := do
  let digits ← digits ops a form.radix form.uppercase
  .ok (String.ofList (options.padIntegral true form.radix.mark.toList (asciiChars digits)))

/-- The decimal numeral of an unsigned value. -/
def toDecimal (a : UInt128) : Guarded String := do
  let digits ← digits ops a .decimal false
  .ok (String.ofList (asciiChars digits))

/-! ### Traces -/

/-- The way of a division in words. -/
def describe : DivisionPath → Guarded String
  | .oneLimb divisor => do
      let digits ← digits ops (.ofLimb divisor) .hexadecimal false
      .ok ("one limb divisor 0x" ++ String.ofList (asciiChars digits) ++ ", wide division")
  | path => .ok path.describe

/-- Quotient and remainder with the lines that report the division. A zero divisor is
reported before anything is divided. -/
def tracedDivMod (a b : UInt128) :
    Guarded (Except Error (DivMod UInt128) × List LogLine) := do
  let dividend ← toDecimal ops a
  let divisor ← toDecimal ops b
  let path ← divisionPath a b
  let way ← describe ops path
  let opening := [UInt128.divisionLine (dividend ++ " / " ++ divisor ++ " in mode "
    ++ Engine.selected.strategy.name), UInt128.divisionLine way]
  let result? ← divide ops id a b
  match result? with
  | none => .ok (.error .divideByZero, opening)
  | some result =>
      let quotient ← toDecimal ops result.quotient
      let remainder ← toDecimal ops result.remainder
      .ok (.ok result,
        opening ++ [UInt128.divisionLine ("quotient " ++ quotient ++ " remainder " ++ remainder)])

variable {ops} (hops : ops.Sound)

include hops

theorem toUnits_eq (a : UInt128) {spec : FieldSpec} (hwidth : spec.width < 2 ^ 64) :
    toUnits ops a spec = .ok (a.toUnits spec : List C) := by
  rw [toUnits, digits_eq hops, ok_bind, render_eq hwidth false (length_digits_le _ _ _)]
  rfl

theorem format_eq (a : UInt128) (form : NumberForm) (options : FormatOptions) :
    format ops a form options = .ok (a.format form options) := by
  rw [format, digits_eq hops, ok_bind]
  rfl

theorem toDecimal_eq (a : UInt128) : toDecimal ops a = .ok a.toDecimal := by
  rw [toDecimal, digits_eq hops, ok_bind]
  rfl

theorem describe_eq (path : DivisionPath) : describe ops path = .ok path.describe := by
  cases path with
  | oneLimb divisor =>
      rw [describe, digits_eq hops, ok_bind]
      rfl
  | zeroDivisor | divisorExceeds | twoLimb rounds => rfl

theorem tracedDivMod_eq (a b : UInt128) : tracedDivMod ops a b = .ok (a.tracedDivMod b) := by
  rw [tracedDivMod, toDecimal_eq hops, ok_bind, toDecimal_eq hops, ok_bind, divisionPath_eq,
    ok_bind, describe_eq hops, ok_bind, divide_eq hops, ok_bind]
  rw [UInt128.tracedDivMod, UInt128.divide_eq_report, UInt128.divide_eq_report]
  cases a.divMod? b with
  | none => rfl
  | some result =>
      simp only [id]
      rw [toDecimal_eq hops, ok_bind, toDecimal_eq hops, ok_bind]
      rfl

end Texts

end Guarded

end TwoLimb
