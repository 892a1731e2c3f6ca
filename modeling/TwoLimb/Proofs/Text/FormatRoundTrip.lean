/-
# Formatted numbers read back

A format string encloses sign, base mark and digits in fill, or puts zeros between mark and
digits. With fill that makes margins a reader finds all of them again, so what it reads
depends on the sign alone.

Without the flag for plus signs the text is read as the number it was made of. With the flag
the three kinds of text part ways. A signed decimal number has its sign in any case, and one
sign is as good as the other. An unsigned number has no sign for its reader, so the plus sign
is an invalid digit. A signed hexadecimal number is written as bits, but behind a sign its
reader expects a magnitude, and the bits of a number below zero are too large for one.
-/

import TwoLimb.Proofs.Text.Encoding
import TwoLimb.Proofs.Text.Layout

namespace TwoLimb.Text

/-- A format string asks for decimal, or for hexadecimal with its mark. -/
def FormatOptions.IsReadable (options : FormatOptions) (form : NumberForm) : Prop :=
  form.radix = .decimal ∨ form.radix = .hexadecimal ∧ options.alternate = true

section Unsigned

variable {C : Type} [CodeUnit C]

/-- A sign in front of an unsigned number is no digit of it. -/
theorem readUnsigned_of_signed {front units : List C} {m : UInt128} (sign : Sign)
    (hfront : ∀ unit ∈ front, IsMarginUnit unit) (hread : readUnsigned units = .ok m) :
    readUnsigned (front ++ CodeUnit.ofAscii sign.byte :: units) = .error .invalidDigit := by
  obtain ⟨radix, hreading⟩ := exists_isMagnitudeReading_ok hread
  obtain ⟨core, part, hcore, hne, -⟩ := hreading.exists_core
  obtain ⟨rest, hwhole, -⟩ := hcore.exists_signed hne sign hfront (List.forall_mem_nil _)
  have hpart : HasDigitPart (CodeUnit.ofAscii sign.byte :: rest) .decimal
      (CodeUnit.ofAscii sign.byte :: rest) := .plain (not_isMarked_sign sign rest)
  have houtcome : HasOutcome .decimal (CodeUnit.ofAscii sign.byte :: rest)
      (.error .invalidDigit) :=
    .invalidDigit (List.nil_append _).symm .nil (Nat.two_pow_pos 128)
      (ofAscii_sign_ne sign (.inl rfl)).symm fun digit => not_isDigitOf_sign .decimal digit sign
  have hunsigned : IsUnsignedReading (front ++ CodeUnit.ofAscii sign.byte :: units)
      (.error .invalidDigit) := ⟨_, _, _, hwhole, hpart, houtcome⟩
  exact hunsigned.readUnsigned_eq

/-- So a field with a sign is no unsigned number. -/
theorem IsField.readUnsigned_sign {units : List C} {radix : Radix} {mark : List UInt8}
    {a : UInt128} {sign : Sign} (hmark : IsMark radix mark)
    (hfield : IsField radix ((sign.byte :: mark).map CodeUnit.ofAscii) a.toNat units) :
    readUnsigned units = .error .invalidDigit := by
  obtain ⟨front, rest, rfl, hfront, hrest⟩ := hfield.exists_unsigned
  exact readUnsigned_of_signed sign hfront (hrest.readUnsigned_eq hmark)

end Unsigned

section Layout

variable {options : FormatOptions} {form : NumberForm} {radix : Radix} {mark : List UInt8}

/-- The sign that a format string writes for a number, as a reader takes it. -/
def FormatOptions.sign? (options : FormatOptions) (nonnegative : Bool) : Option Sign :=
  if !nonnegative then some .minus else if options.plus then some .plus else none

/-- Sign and mark in front of the digits, written out. -/
theorem FormatOptions.head_eq (options : FormatOptions) (nonnegative : Bool)
    (mark : List UInt8) :
    options.sign nonnegative ++ mark.map CodeUnit.ofAscii =
      (((options.sign? nonnegative).map Sign.byte).toList ++ mark).map CodeUnit.ofAscii := by
  rw [sign, sign?, List.map_append]
  cases nonnegative with
  | false => rfl
  | true => cases options.plus <;> rfl

/-- Fill goes to the margins, and zeros go to the digits. -/
theorem isField_padIntegral (hfill : IsMarginUnit options.fill) (nonnegative : Bool)
    {written digits : List Char} {n : Nat} (hdigits : IsNumeral radix digits n) :
    IsField radix (options.sign nonnegative ++ if options.alternate then written else []) n
      (options.padIntegral nonnegative written digits) := by
  have hmargin : ∀ count, ∀ c ∈ List.replicate count options.fill, isMargin c = true := by
    intro count c hmem
    rw [List.eq_of_mem_replicate hmem]
    exact (isMargin_iff _).mpr hfill
  rw [FormatOptions.padIntegral_eq]
  simp only
  generalize options.sign nonnegative ++ (if options.alternate then written else []) = head
  split
  · exact isField_zeros radix head _ hdigits
  · generalize options.padding _ = pads
    have hfield : IsField radix head n (List.replicate pads.1 options.fill ++ head ++ []
        ++ digits ++ List.replicate pads.2 options.fill) :=
      .intro (hmargin _) (List.forall_mem_nil _) (hmargin _) hdigits
    rw [List.append_nil] at hfield
    exact hfield

/-- A laid out number is read with the sign that it was given. -/
theorem readSigned_padIntegral (hfill : IsMarginUnit options.fill) (nonnegative : Bool)
    {written digits : List Char} {a : UInt128} (hmark : IsMark radix mark)
    (hwritten : (if options.alternate then written else []) = mark.map CodeUnit.ofAscii)
    (hdigits : IsNumeral radix digits a.toNat) :
    readSigned (options.padIntegral nonnegative written digits) =
      applySign (options.sign? nonnegative) radix a := by
  have hfield := @isField_padIntegral options radix hfill nonnegative written digits _ hdigits
  rw [hwritten, options.head_eq] at hfield
  cases hsign : options.sign? nonnegative with
  | none =>
      rw [hsign] at hfield
      exact hfield.readSigned_eq hmark
  | some sign =>
      rw [hsign] at hfield
      exact hfield.readSigned_sign hmark

/-- Read as an unsigned number it must have no sign. -/
theorem readUnsigned_padIntegral (hfill : IsMarginUnit options.fill) (nonnegative : Bool)
    {written digits : List Char} {a : UInt128} (hmark : IsMark radix mark)
    (hwritten : (if options.alternate then written else []) = mark.map CodeUnit.ofAscii)
    (hdigits : IsNumeral radix digits a.toNat) :
    readUnsigned (options.padIntegral nonnegative written digits) =
      if (options.sign? nonnegative).isSome then .error .invalidDigit else .ok a := by
  have hfield := @isField_padIntegral options radix hfill nonnegative written digits _ hdigits
  rw [hwritten, options.head_eq] at hfield
  cases hsign : options.sign? nonnegative with
  | none =>
      rw [hsign] at hfield
      exact hfield.readUnsigned_eq hmark
  | some sign =>
      rw [hsign] at hfield
      exact hfield.readUnsigned_sign hmark

/-- What a readable format string puts in front of the digits is a mark for readers. -/
theorem FormatOptions.IsReadable.exists_mark (hreadable : options.IsReadable form) :
    ∃ mark, IsMark form.radix mark ∧
      (if options.alternate then form.radix.mark.toList else []) =
        mark.map CodeUnit.ofAscii := by
  rcases hreadable with hradix | ⟨hradix, halternate⟩
  · refine ⟨[], hradix ▸ .decimal, ?_⟩
    rw [hradix]
    exact ite_self _
  · refine ⟨[zeroDigit, 0x78], hradix ▸ .hexadecimal (.inl rfl), ?_⟩
    rw [hradix, if_pos halternate]
    decide

end Layout

section Range

variable (options : FormatOptions) (a : Int128)

/-- The bits of a number are taken for it, but behind a plus sign they are a magnitude, which
is too large for a number below zero. -/
theorem applySign_bits :
    applySign (options.sign? true) .hexadecimal a.bits =
      if options.plus = true ∧ a.toInt < 0 then .error .overflow else .ok a := by
  cases hplus : options.plus with
  | false => simp [FormatOptions.sign?, hplus, applySign]
  | true =>
      have hlimit : a.bits.toNat < 2 ^ 127 ↔ ¬a.toInt < 0 := by
        rw [← a.isNegative_iff_toInt_neg, a.isNegative_iff, Nat.not_le]
      simp only [FormatOptions.sign?, hplus, applySign, UInt128.isLessThan_iff,
        Int128.toNat_bits_min, hlimit]
      by_cases hnegative : a.toInt < 0 <;> simp [hnegative]

/-- In decimal a plus sign leaves the range as it is, so each number is within it behind its
own sign. -/
theorem applySign_magnitude :
    applySign (options.sign? (!a.isNegative)) .decimal a.unsignedAbs = .ok a := by
  rw [← applySign_unsignedAbs a .decimal]
  cases a.isNegative with
  | true => rfl
  | false => cases hplus : options.plus <;> simp [FormatOptions.sign?, hplus, applySign]

end Range

section Formats

variable {options : FormatOptions} {form : NumberForm}

theorem isNumeral_asciiChars (a : UInt128) (radix : Radix) (uppercase : Bool) :
    IsNumeral radix (asciiChars (digits a radix uppercase)) a.toNat :=
  isNumeral_digits a radix uppercase

/-- An unsigned number is read back unless it has a sign. -/
theorem readUnsigned_format (hreadable : options.IsReadable form)
    (hfill : IsMarginUnit options.fill) (a : UInt128) :
    readUnsigned (a.format form options).toList =
      if options.plus then .error .invalidDigit else .ok a := by
  obtain ⟨mark, hmark, hwritten⟩ := hreadable.exists_mark
  rw [UInt128.format, String.toList_ofList,
    readUnsigned_padIntegral hfill true hmark hwritten (isNumeral_asciiChars a _ _)]
  cases hplus : options.plus <;> simp [FormatOptions.sign?, hplus]

/-- In hexadecimal a signed number is its bits to both sides. -/
theorem readSigned_format_bits (hreadable : options.IsReadable form)
    (hfill : IsMarginUnit options.fill) (hradix : form.radix = .hexadecimal) (a : Int128) :
    readSigned (a.format form options).toList =
      if options.plus = true ∧ a.toInt < 0 then .error .overflow else .ok a := by
  obtain ⟨mark, hmark, hwritten⟩ := hreadable.exists_mark
  have htext : (a.format form options).toList = options.padIntegral true form.radix.mark.toList
      (asciiChars (digits a.bits form.radix form.uppercase)) := by
    rw [Int128.format, UInt128.format, hradix, String.toList_ofList]
  rw [htext, readSigned_padIntegral hfill true hmark hwritten (isNumeral_asciiChars a.bits _ _),
    hradix, applySign_bits]

/-- In decimal every signed number is read back, whichever sign it has. -/
theorem readSigned_format_decimal (hfill : IsMarginUnit options.fill)
    (hradix : form.radix = .decimal) (a : Int128) :
    readSigned (a.format form options).toList = .ok a := by
  have htext : (a.format form options).toList = options.padIntegral (!a.isNegative) []
      (asciiChars (digits a.unsignedAbs .decimal false)) := by
    rw [Int128.format, hradix, String.toList_ofList]
  rw [htext, readSigned_padIntegral hfill _ .decimal (ite_self _)
    (isNumeral_asciiChars a.unsignedAbs _ _), applySign_magnitude]

/-- In either radix a signed number is read back, except from its bits behind a sign. -/
theorem readSigned_format (hreadable : options.IsReadable form)
    (hfill : IsMarginUnit options.fill) (a : Int128) :
    readSigned (a.format form options).toList =
      if options.plus = true ∧ form.radix = .hexadecimal ∧ a.toInt < 0 then .error .overflow
      else .ok a := by
  rcases hreadable with hradix | ⟨hradix, halternate⟩
  · rw [readSigned_format_decimal hfill hradix]
    simp [hradix]
  · rw [readSigned_format_bits (.inr ⟨hradix, halternate⟩) hfill hradix]
    simp [hradix]

/-- Readers see in UTF-8 what they see in characters. -/
theorem readUnsigned_utf8 (text : List Char) : readUnsigned (utf8 text) = readUnsigned text :=
  reencodes_utf8Char.readUnsigned_flatMap text

theorem readSigned_utf8 (text : List Char) : readSigned (utf8 text) = readSigned text :=
  reencodes_utf8Char.readSigned_flatMap text

end Formats

/-- Formatted text is read back in decimal and in marked hexadecimal, with every width, every
alignment and fill that makes margins, with zeros or without. The flag for plus signs is the
exception: an unsigned number is refused for its sign, and a negative number in hexadecimal is
too large for the magnitude that is expected behind one. -/
theorem formatted_text_read_back (form : NumberForm) (options : FormatOptions)
    (hreadable : options.IsReadable form) (hfill : IsMarginUnit options.fill) :
    (∀ a : UInt128,
      let units := utf8 (a.format form options).toList
      UInt128.ofUnits units =
        reportText units (if options.plus then .error .invalidDigit else .ok a)) ∧
    (∀ a : Int128,
      let units := utf8 (a.format form options).toList
      Int128.ofUnits units =
        reportText units
          (if options.plus = true ∧ form.radix = .hexadecimal ∧ a.toInt < 0 then .error .overflow
          else .ok a)) := by
  constructor
  · intro a units
    rw [UInt128.ofUnits, readUnsigned_utf8, readUnsigned_format hreadable hfill]
  · intro a units
    rw [Int128.ofUnits, readSigned_utf8, readSigned_format hreadable hfill]

/-- The least value as its bits, centred between separators. -/
theorem least_value_read_back_centered :
    let options : FormatOptions := ⟨'_', some .center, some 44, false, true, false⟩
    options.IsReadable .upperHex ∧ IsMarginUnit options.fill ∧
      Int128.ofUnits (utf8 (Int128.min.format .upperHex options).toList) = .ok .min := by
  intro options
  have hreadable : options.IsReadable .upperHex := .inr ⟨rfl, rfl⟩
  have hfill : IsMarginUnit options.fill := ⟨separator, by decide, rfl⟩
  exact ⟨hreadable, hfill, (formatted_text_read_back .upperHex options hreadable hfill).2 .min⟩

/-- With the flag for plus signs zero is refused as an unsigned number, and minus one as bits
behind a sign. -/
theorem plus_sign_not_read_back :
    UInt128.zero.format .display { plus := true } = "+0" ∧
      UInt128.ofUnits (utf8 (UInt128.zero.format .display { plus := true }).toList) =
        .error ⟨.invalidDigit, "+0"⟩ ∧
      Int128.ofUnits
          (utf8 (Int128.negOne.format .lowerHex { plus := true, alternate := true }).toList) ≠
        .ok .negOne := by
  refine ⟨by decide, by decide, ?_⟩
  have hfill : IsMarginUnit (' ' : Char) := ⟨0x20, by decide, rfl⟩
  have hread : readSigned
      (Int128.negOne.format .lowerHex { plus := true, alternate := true }).toList = _ :=
    readSigned_format_bits (.inr ⟨rfl, rfl⟩) hfill rfl .negOne
  rw [if_pos (by decide)] at hread
  rw [Int128.ofUnits, readSigned_utf8, hread]
  intro hvalue
  cases hvalue

end TwoLimb.Text
