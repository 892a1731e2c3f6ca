/-
# Fields and format strings lay out alike

Two layouts write a number. A field puts its units together itself, a format string hands
sign, base mark and digits to the layout of the standard formatter. Both enclose the same
head and the same digits in the same amounts of fill: fill around the text where the format
string has the alignment of the field, and zeros between head and digits where it has the
flag for zeros. So they differ at most in the head, and there only in the case of the mark
of hexadecimal, which a format string always writes in lower case.
-/

import TwoLimb.Proofs.Text.RoundTrip
import TwoLimb.Text.Display

namespace TwoLimb.Text

/-- The alignment of a field that puts the fill where a format string puts it. -/
def TextAlign.alignment : TextAlign → Alignment
  | .left => .left
  | .right => .right
  | .center => .center

/-- A format string asks for the layout of a field. Without the flag for zeros it has the
same fill at the same place; with the flag, whatever its own fill and alignment are, the
field has zeros between head and digits. -/
structure FormatOptions.Matches (options : FormatOptions) (spec : FieldSpec) : Prop where
  width : options.width.getD 0 = spec.width
  plus : options.plus = false
  alternate : options.alternate = spec.marked
  inside : options.zero = true → spec.align = .internal ∧ spec.fill = zeroDigit
  around : options.zero = false → spec.align = (options.align.getD .right).alignment ∧
    options.fill = Char.ofNat spec.fill.toNat

/-- A form of a format string writes the digits of a field. Only hexadecimal has a case. -/
structure NumberForm.Matches (form : NumberForm) (spec : FieldSpec) : Prop where
  radix : form.radix = spec.radix
  uppercase : spec.radix = .hexadecimal → form.uppercase = spec.uppercase

/-- The field has a base mark in upper case, as no format string has. -/
def FieldSpec.HasUppercaseMark (spec : FieldSpec) : Prop :=
  spec.radix = .hexadecimal ∧ spec.uppercase = true ∧ spec.marked = true

namespace FieldSpec

/-- Sign and mark on one side and the digits on the other, enclosed in the fill of a
field. -/
def enclose (spec : FieldSpec) (head digits : List Char) : List Char :=
  let pads := spec.align.fill (spec.width - (head.length + digits.length))
  let fill (count : Nat) : List Char := List.replicate count (Char.ofNat spec.fill.toNat)
  fill pads.before ++ head ++ fill pads.inside ++ digits ++ fill pads.after

/-- Heads of one length are enclosed alike, so only the heads can differ. -/
theorem enclose_inj {spec : FieldSpec} {head other digits : List Char}
    (hlength : head.length = other.length) :
    spec.enclose head digits = spec.enclose other digits ↔ head = other := by
  unfold enclose
  simp only [hlength, List.append_cancel_right_eq, List.append_cancel_left_eq]

theorem render_eq_enclose (spec : FieldSpec) (negative : Bool) (digits : List UInt8) :
    (spec.render negative digits : List Char) =
      spec.enclose (asciiChars (spec.headBytes negative)) (asciiChars digits) := by
  simp only [render, enclose, headBytes, asciiChars, List.length_map, List.length_append]
  rfl

end FieldSpec

namespace FormatOptions

variable {options : FormatOptions} {spec : FieldSpec}

/-- A text that is as wide as asked for already has no fill, so one formula gives the layout
for every width, none included. -/
theorem padIntegral_eq (options : FormatOptions) (nonnegative : Bool) (mark digits : List Char) :
    options.padIntegral nonnegative mark digits =
      let head := options.sign nonnegative ++ if options.alternate then mark else []
      let amount := options.width.getD 0 - (head.length + digits.length)
      if options.zero then head ++ List.replicate amount '0' ++ digits
      else List.replicate (options.padding amount).1 options.fill ++ head ++ digits
        ++ List.replicate (options.padding amount).2 options.fill := by
  have hnone : options.padding 0 = (0, 0) := by
    unfold padding
    split <;> rfl
  unfold padIntegral
  simp only
  generalize options.sign nonnegative ++ (if options.alternate then mark else []) = head
  split
  · rename_i hwidth
    rw [hwidth, Option.getD_none, Nat.zero_sub, hnone]
    simp
  · rename_i width hwidth
    rw [hwidth, Option.getD_some]
    split
    · rename_i hle
      rw [Nat.sub_eq_zero_of_le hle, hnone]
      simp
    · rfl

/-- Centred fill is halved alike. -/
theorem fill_alignment (options : FormatOptions) (amount : Nat) :
    (options.align.getD .right).alignment.fill amount =
      ⟨(options.padding amount).1, 0, (options.padding amount).2⟩ := by
  have hhalf : amount - amount / 2 = (amount + 1) / 2 := by omega
  unfold padding
  cases options.align.getD .right with
  | left | right => rfl
  | center => exact congrArg (Fill.mk (amount / 2) 0) hhalf

theorem padIntegral_eq_enclose (hmatch : options.Matches spec) (nonnegative : Bool)
    (mark digits : List Char) :
    options.padIntegral nonnegative mark digits =
      spec.enclose (options.sign nonnegative ++ if spec.marked then mark else []) digits := by
  rw [padIntegral_eq, FieldSpec.enclose, hmatch.alternate, hmatch.width]
  generalize options.sign nonnegative ++ (if spec.marked then mark else []) = head
  simp only
  split
  · rename_i hzero
    obtain ⟨halign, hfill⟩ := hmatch.inside hzero
    have hzeros : Char.ofNat zeroDigit.toNat = '0' := rfl
    simp only [halign, hfill, hzeros, Alignment.fill, List.replicate_zero, List.nil_append,
      List.append_nil]
  · rename_i hzero
    obtain ⟨halign, hfill⟩ := hmatch.around (Bool.eq_false_iff.mpr hzero)
    simp only [halign, hfill, fill_alignment, List.replicate_zero, List.append_nil]

/-- Without the flag for plus signs, only a value below zero has a sign. -/
theorem sign_eq (hmatch : options.Matches spec) (negative : Bool) :
    options.sign (!negative) = asciiChars (if negative then [0x2d] else []) := by
  rw [sign, hmatch.plus]
  cases negative <;> rfl

end FormatOptions

namespace FieldSpec

/-- Field and format string write the same mark but for the one in upper case, and either
has the same length. -/
theorem markChars_eq_iff (spec : FieldSpec) :
    (asciiChars spec.markBytes = (if spec.marked then spec.radix.mark.toList else []) ↔
      ¬spec.HasUppercaseMark) ∧
    (asciiChars spec.markBytes).length =
      (if spec.marked then spec.radix.mark.toList else []).length := by
  unfold markBytes HasUppercaseMark
  generalize spec.radix = radix
  generalize spec.uppercase = uppercase
  generalize spec.marked = marked
  revert uppercase marked
  cases radix <;> decide

end FieldSpec

variable {spec : FieldSpec} {options : FormatOptions} {form : NumberForm}

/-- A numeral in a field is that of a format string, unless the mark is in upper case. -/
theorem render_eq_padIntegral_iff (hoptions : options.Matches spec) (negative : Bool)
    (digits : List UInt8) :
    (spec.render negative digits : List Char) =
        options.padIntegral (!negative) spec.radix.mark.toList (asciiChars digits) ↔
      ¬spec.HasUppercaseMark := by
  obtain ⟨hmark, hlength⟩ := spec.markChars_eq_iff
  have hhead : asciiChars (spec.headBytes negative) =
      options.sign (!negative) ++ asciiChars spec.markBytes := by
    rw [FieldSpec.headBytes, FormatOptions.sign_eq hoptions, asciiChars, List.map_append]
    rfl
  rw [FieldSpec.render_eq_enclose, FormatOptions.padIntegral_eq_enclose hoptions, hhead,
    FieldSpec.enclose_inj (by rw [List.length_append, List.length_append, hlength]),
    List.append_cancel_left_eq, hmark]

/-- Only hexadecimal digits have a case. -/
theorem digits_uppercase (a : UInt128) {radix : Radix} (hradix : radix ≠ .hexadecimal)
    (uppercase : Bool) : digits a radix uppercase = digits a radix false := by
  by_cases ha : a = .zero
  · rw [ha]
    rfl
  · have hbase : 1 < radix.value ∧ radix.value ≤ 10 := by
      cases radix with
      | hexadecimal => exact absurd rfl hradix
      | binary | octal | decimal => decide
    rw [digits_eq radix ha, digits_eq radix ha, numeral_of_le_ten hbase.1 hbase.2]

theorem digits_eq_of_matches (hform : form.Matches spec) (a : UInt128) :
    digits a form.radix form.uppercase = digits a spec.radix spec.uppercase := by
  rw [hform.radix]
  by_cases hradix : spec.radix = .hexadecimal
  · rw [hform.uppercase hradix]
  · rw [digits_uppercase a hradix, digits_uppercase a hradix spec.uppercase]

/-- An unsigned value in a field, and in a format string that asks for the same. -/
theorem unsigned_toUnits_eq_format_iff (hoptions : options.Matches spec)
    (hform : form.Matches spec) (a : UInt128) :
    (a.toUnits spec : List Char) = (a.format form options).toList ↔
      ¬spec.HasUppercaseMark := by
  rw [UInt128.toUnits, UInt128.format, String.toList_ofList, digits_eq_of_matches hform,
    hform.radix]
  exact render_eq_padIntegral_iff hoptions false _

/-- A signed value in a field, and in a format string that asks for the same: both switch
from sign and magnitude to the two's complement bits where the radix is not ten. -/
theorem signed_toUnits_eq_format_iff (hoptions : options.Matches spec)
    (hform : form.Matches spec) (a : Int128) :
    (a.toUnits spec : List Char) = (a.format form options).toList ↔
      ¬spec.HasUppercaseMark := by
  by_cases hdecimal : spec.radix = .decimal
  · have hlayout := render_eq_padIntegral_iff hoptions a.isNegative
      (digits a.unsignedAbs .decimal false)
    rw [hdecimal] at hlayout
    simp only [Int128.toUnits, Int128.format, hform.radix, hdecimal, String.toList_ofList]
    exact hlayout
  · have hunits : (a.toUnits spec : List Char) = a.bits.toUnits spec := by
      unfold Int128.toUnits
      split
      · exact absurd ‹_› hdecimal
      · rfl
    have hformat : a.format form options = a.bits.format form options := by
      unfold Int128.format
      split
      · exact absurd (hform.radix.symm.trans ‹_›) hdecimal
      · rfl
    rw [hunits, hformat]
    exact unsigned_toUnits_eq_format_iff hoptions hform a.bits

/-- Field and format string write the same characters for every value, in every radix, case
and width, with every fill at every place, and with or without a base mark. The only
exception is the mark of hexadecimal in upper case, and there they never agree. -/
theorem layouts_agree (hoptions : options.Matches spec) (hform : form.Matches spec) :
    (∀ a : UInt128, (a.toUnits spec : List Char) = (a.format form options).toList ↔
      ¬spec.HasUppercaseMark) ∧
    (∀ a : Int128, (a.toUnits spec : List Char) = (a.format form options).toList ↔
      ¬spec.HasUppercaseMark) :=
  ⟨unsigned_toUnits_eq_format_iff hoptions hform, signed_toUnits_eq_format_iff hoptions hform⟩

/-- Three digits and their mark, centred in ten characters. Of the five stars that are left over,
two stand in front. -/
theorem layouts_agree_centered :
    let a : UInt128 := .ofNat 0x7b3
    let spec : FieldSpec := ⟨.hexadecimal, 10, 0x2a, false, true, .center⟩
    let options : FormatOptions := ⟨'*', some .center, some 10, false, true, false⟩
    options.Matches spec ∧ NumberForm.lowerHex.Matches spec ∧
      (a.toUnits spec : List Char) = (a.format .lowerHex options).toList ∧
      a.format .lowerHex options = "**0x7b3***" := by
  intro a spec options
  have hoptions : options.Matches spec :=
    ⟨rfl, rfl, rfl, (fun hzero => nomatch hzero), fun _ => ⟨rfl, rfl⟩⟩
  have hform : NumberForm.lowerHex.Matches spec := ⟨rfl, fun _ => rfl⟩
  refine ⟨hoptions, hform, ((layouts_agree hoptions hform).1 a).mpr ?_, by decide +kernel⟩
  rintro ⟨-, huppercase, -⟩
  nomatch huppercase

end TwoLimb.Text
