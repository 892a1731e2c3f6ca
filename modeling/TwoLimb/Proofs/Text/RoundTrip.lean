/-
# Fields read back

A field that is written with suitable fill is read back as the value it was written
for. Writing and reading are different functions, and they meet in `IsField`: a margin,
a head of sign and base mark, another margin, a numeral, and a last margin. Fill that
is whitespace or a separator goes to the margins. Zeros as fill belong to the numeral,
which is only possible where nothing comes between them and the digits.
-/

import TwoLimb.Proofs.Text.SignedGrammar
import TwoLimb.Text.Field

namespace TwoLimb.Text

variable {C : Type} [CodeUnit C]

/-- A text as a reader takes it apart: a margin, the given head, a margin, a numeral of
the number `n`, and a margin. -/
inductive IsField (radix : Radix) (head : List C) (n : Nat) : List C → Prop
  | intro {before inside units after : List C}
      (hbefore : ∀ unit ∈ before, isMargin unit = true)
      (hinside : ∀ unit ∈ inside, isMargin unit = true)
      (hafter : ∀ unit ∈ after, isMargin unit = true)
      (hnumeral : IsNumeral radix units n) :
      IsField radix head n (before ++ head ++ inside ++ units ++ after)

/-- The bytes that make a margin. -/
theorem isMargin_ofAscii {byte : UInt8} (hbyte : isBlank byte = true ∨ byte = separator) :
    isMargin (CodeUnit.ofAscii byte : C) = true := by
  have hascii : byte < 0x80 := by
    rcases hbyte with hblank | rfl
    · simp only [isBlank, Bool.or_eq_true, beq_iff_eq] at hblank
      rcases hblank with (((rfl | rfl) | rfl) | rfl) | rfl <;> decide
    · decide
  rw [isMargin, CodeUnit.toAscii?_ofAscii hascii]
  rcases hbyte with hblank | rfl
  · exact Bool.or_eq_true_iff.mpr (Or.inl hblank)
  · rfl

section Layout

variable {spec : FieldSpec} {negative : Bool} {bytes : List UInt8} {n : Nat}

/-- The sign and the base mark of a field, as ASCII bytes. -/
def FieldSpec.headBytes (spec : FieldSpec) (negative : Bool) : List UInt8 :=
  (if negative then [0x2d] else []) ++ spec.markBytes

/-- Fill that is whitespace or a separator makes margins wherever it goes. -/
theorem isField_render_of_margin
    (hbytes : IsNumeral spec.radix (bytes.map CodeUnit.ofAscii : List C) n)
    (hfill : isBlank spec.fill = true ∨ spec.fill = separator) :
    IsField spec.radix ((spec.headBytes negative).map CodeUnit.ofAscii) n
      (spec.render negative bytes : List C) := by
  have hmargin (count : Nat) :
      ∀ unit ∈ List.replicate count (CodeUnit.ofAscii spec.fill : C), isMargin unit = true := by
    intro unit hmem
    rw [List.eq_of_mem_replicate hmem]
    exact isMargin_ofAscii hfill
  exact IsField.intro (hmargin _) (hmargin _) (hmargin _) hbytes

/-- Zeros directly before the digits belong to the numeral. -/
theorem isField_zeros (radix : Radix) (head : List C) (count : Nat) {units : List C}
    (hnumeral : IsNumeral radix units n) :
    IsField radix head n
      (head ++ List.replicate count (CodeUnit.ofAscii zeroDigit) ++ units) := by
  have hnone : ∀ unit ∈ ([] : List C), isMargin unit = true := fun _ hmem => by cases hmem
  have hfield : IsField radix head n ([] ++ head ++ []
      ++ (List.replicate count (CodeUnit.ofAscii zeroDigit) ++ units) ++ []) :=
    IsField.intro hnone hnone hnone (hnumeral.zeros count)
  simpa only [List.nil_append, List.append_nil, List.append_assoc] using hfield

/-- Internal zeros stand between the head and the digits. -/
theorem isField_render_of_internal
    (hbytes : IsNumeral spec.radix (bytes.map CodeUnit.ofAscii : List C) n)
    (hfill : spec.fill = zeroDigit) (halign : spec.align = .internal) :
    IsField spec.radix ((spec.headBytes negative).map CodeUnit.ofAscii) n
      (spec.render negative bytes : List C) := by
  simp only [FieldSpec.render, halign, hfill, Alignment.fill, List.replicate_zero,
    List.nil_append, List.append_nil]
  exact isField_zeros spec.radix _ _ hbytes

/-- Zeros to the left of digits without a head stand before the digits. -/
theorem isField_render_of_right
    (hbytes : IsNumeral spec.radix (bytes.map CodeUnit.ofAscii : List C) n)
    (hfill : spec.fill = zeroDigit) (halign : spec.align = .right)
    (hhead : spec.headBytes negative = []) :
    IsField spec.radix [] n (spec.render negative bytes : List C) := by
  rw [FieldSpec.headBytes] at hhead
  simp only [FieldSpec.render, hhead, halign, hfill, Alignment.fill, List.map_nil,
    List.replicate_zero, List.append_nil]
  exact isField_zeros spec.radix [] _ hbytes

end Layout

/-- The base marks that tell a reader the radix: none for decimal, and zero with an `x`
of either case for hexadecimal. -/
inductive IsMark : Radix → List UInt8 → Prop
  | decimal : IsMark .decimal []
  | hexadecimal {x : UInt8} (hx : x = 0x78 ∨ x = 0x58) : IsMark .hexadecimal [zeroDigit, x]

theorem IsMark.eq_nil {mark : List UInt8} (hmark : IsMark .decimal mark) : mark = [] := by
  cases hmark
  rfl

theorem isMark_markBytes {spec : FieldSpec}
    (hradix : spec.radix = .decimal ∨ spec.radix = .hexadecimal ∧ spec.marked = true) :
    IsMark spec.radix spec.markBytes := by
  rcases hradix with hradix | ⟨hradix, hmarked⟩
  · have hbytes : spec.markBytes = [] := by
      cases hmarked : spec.marked <;>
        simp [FieldSpec.markBytes, hmarked, hradix, Radix.mark]
    rw [hradix, hbytes]
    exact IsMark.decimal
  · have hbytes : spec.markBytes = [zeroDigit, if spec.uppercase then 0x58 else 0x78] := by
      rw [FieldSpec.markBytes, hmarked, hradix]
      cases spec.uppercase <;> decide
    rw [hradix, hbytes]
    apply IsMark.hexadecimal
    cases spec.uppercase with
    | false => exact Or.inl rfl
    | true => exact Or.inr rfl

section Reading

variable {radix : Radix} {mark : List UInt8} {a : UInt128}

theorem isDigit_zeroDigit (radix : Radix) :
    IsDigit radix (CodeUnit.ofAscii zeroDigit : C) :=
  ⟨zeroDigit, 0, CodeUnit.toAscii?_ofAscii (by decide), digitValue?_zeroDigit radix⟩

/-- A marked numeral is read as its number; a margin between mark and digits is passed
over. -/
theorem IsMark.readMagnitude_eq (hmark : IsMark radix mark) {inside units : List C}
    (hinside : ∀ unit ∈ inside, isMargin unit = true)
    (hnumeral : IsNumeral radix units a.toNat) :
    readMagnitude (mark.map CodeUnit.ofAscii ++ inside ++ units) = .ok (a, radix) := by
  apply hnumeral.readMagnitude_eq
  cases hmark with
  | decimal =>
      rw [List.map_nil, List.nil_append, dropMargin_append hinside, hnumeral.dropMargin_eq,
        hnumeral.splitMark_eq]
  | @hexadecimal x hx =>
      have hzero := isMargin_eq_false (isDigit_zeroDigit (C := C) .hexadecimal)
      have hzeroMark : isAscii (CodeUnit.ofAscii zeroDigit : C) 0x30 = true := by
        rw [isAscii, CodeUnit.toAscii?_ofAscii (by decide)]
        rfl
      have hxMark : (isAscii (CodeUnit.ofAscii x : C) 0x78
          || isAscii (CodeUnit.ofAscii x : C) 0x58) = true := by
        rcases hx with rfl | rfl <;>
          rw [isAscii, isAscii, CodeUnit.toAscii?_ofAscii (by decide)] <;> rfl
      change splitMark (dropMargin
        (CodeUnit.ofAscii zeroDigit :: CodeUnit.ofAscii x :: (inside ++ units))) = _
      rw [dropMargin_cons hzero, splitMark, hzeroMark, hxMark, dropMargin_append hinside,
        hnumeral.dropMargin_eq]
      rfl

/-- The margins around a field whose head does not start with a margin unit. -/
theorem trimMargins_field {before head inside units after rest : List C} {first : C} {n : Nat}
    (hbefore : ∀ unit ∈ before, isMargin unit = true)
    (hafter : ∀ unit ∈ after, isMargin unit = true) (hhead : head = first :: rest)
    (hfirst : isMargin first = false) (hnumeral : IsNumeral radix units n) :
    trimMargins (before ++ head ++ inside ++ units ++ after) = head ++ inside ++ units := by
  obtain ⟨init, last, hinit, hlast⟩ := hnumeral.exists_last
  have htext : before ++ head ++ inside ++ units = before ++ (head ++ inside ++ units) := by
    simp only [List.append_assoc]
  have hstart : head ++ inside ++ units = first :: (rest ++ inside ++ units) := by
    rw [hhead, List.cons_append, List.cons_append]
  have hend : head ++ inside ++ units = (head ++ inside ++ init) ++ [last] := by
    rw [hinit, ← List.append_assoc]
  rw [htext]
  exact trimMargins_eq hbefore hafter hstart hend hfirst (isMargin_eq_false hlast)

/-- Without its margins a field without sign starts with a digit, and is read as its
number. -/
theorem IsField.exists_core {units : List C} (hmark : IsMark radix mark)
    (hfield : IsField radix (mark.map CodeUnit.ofAscii) a.toNat units) :
    ∃ first rest, trimMargins units = first :: rest ∧ IsDigit radix first ∧
      readMagnitude (first :: rest) = .ok (a, radix) := by
  cases hfield with
  | @intro before inside units after hbefore hinside hafter hnumeral =>
      cases hmark with
      | decimal =>
          obtain ⟨first, rest, hrest, hfirst⟩ := hnumeral.exists_first
          obtain ⟨init, last, hinit, hlast⟩ := hnumeral.exists_last
          have hfront : ∀ unit ∈ before ++ inside, isMargin unit = true := by
            intro unit hmem
            rcases List.mem_append.mp hmem with hmem | hmem
            · exact hbefore unit hmem
            · exact hinside unit hmem
          have hsplit : splitMark (dropMargin units) = (.decimal, units) := by
            rw [hnumeral.dropMargin_eq, hnumeral.splitMark_eq]
          refine ⟨first, rest, ?_, hfirst, ?_⟩
          · rw [List.map_nil, List.append_nil, ← hrest]
            exact trimMargins_eq hfront hafter hrest hinit (isMargin_eq_false hfirst)
              (isMargin_eq_false hlast)
          · rw [← hrest]
            exact hnumeral.readMagnitude_eq hsplit
      | @hexadecimal x hx =>
          have hzero := isDigit_zeroDigit (C := C) .hexadecimal
          exact ⟨CodeUnit.ofAscii zeroDigit, CodeUnit.ofAscii x :: (inside ++ units),
            trimMargins_field hbefore hafter rfl (isMargin_eq_false hzero) hnumeral, hzero,
            (IsMark.hexadecimal hx).readMagnitude_eq hinside hnumeral⟩

/-- A field without sign is read as its number. -/
theorem IsField.readUnsigned_eq {units : List C} (hmark : IsMark radix mark)
    (hfield : IsField radix (mark.map CodeUnit.ofAscii) a.toNat units) :
    readUnsigned units = .ok a := by
  obtain ⟨first, rest, htrim, -, hread⟩ := hfield.exists_core hmark
  rw [readUnsigned, htrim, hread]

/-- Read as a signed number, a field without sign has none. -/
theorem IsField.readSigned_eq {units : List C} (hmark : IsMark radix mark)
    (hfield : IsField radix (mark.map CodeUnit.ofAscii) a.toNat units) :
    readSigned units = applySign none radix a := by
  obtain ⟨first, rest, htrim, hfirst, hread⟩ := hfield.exists_core hmark
  have hsign : splitSign (first :: rest) = (none, first :: rest) := by
    rw [splitSign, isAscii_eq_false hfirst (by decide), isAscii_eq_false hfirst (by decide)]
    rfl
  rw [readSigned, htrim, hsign]
  simp only [hread]

/-- Behind the sign of a field comes a field without sign. -/
theorem IsField.exists_unsigned {units : List C} {sign : Sign} {n : Nat}
    (hfield : IsField radix ((sign.byte :: mark).map CodeUnit.ofAscii) n units) :
    ∃ front rest, units = front ++ CodeUnit.ofAscii sign.byte :: rest ∧
      (∀ unit ∈ front, IsMarginUnit unit) ∧ IsField radix (mark.map CodeUnit.ofAscii) n rest := by
  cases hfield with
  | @intro before inside units after hbefore hinside hafter hnumeral =>
      refine ⟨before, [] ++ mark.map CodeUnit.ofAscii ++ inside ++ units ++ after, by simp, ?_,
        .intro (List.forall_mem_nil _) hinside hafter hnumeral⟩
      intro unit hmem
      exact (isMargin_iff unit).mp (hbefore unit hmem)

/-- The sign of a field is read. -/
theorem IsField.readSigned_sign {units : List C} {sign : Sign} (hmark : IsMark radix mark)
    (hfield : IsField radix ((sign.byte :: mark).map CodeUnit.ofAscii) a.toNat units) :
    readSigned units = applySign (some sign) radix a := by
  obtain ⟨front, rest, rfl, hfront, hrest⟩ := hfield.exists_unsigned
  exact readSigned_of_readUnsigned sign hfront (List.forall_mem_nil _)
    (hrest.readUnsigned_eq hmark) radix

end Reading

/-- The magnitude of a signed value after the sign it is written with gives the value
back, the least value included. -/
theorem applySign_unsignedAbs (a : Int128) (radix : Radix) :
    applySign (if a.isNegative then some .minus else none) radix a.unsignedAbs = .ok a := by
  have hlt := a.bits.toNat_lt
  cases hsign : a.isNegative with
  | false =>
      have hsmall : a.bits.toNat < 2 ^ 127 := by
        have hnot := mt (Int128.isNegative_iff a).mpr (Bool.eq_false_iff.mp hsign)
        exact Nat.lt_of_not_le hnot
      have hless : a.bits.isLessThan Int128.min.bits = true := by
        rw [UInt128.isLessThan_iff, Int128.toNat_bits_min]
        exact hsmall
      simp only [Int128.unsignedAbs, hsign, Bool.false_eq_true, if_false, applySign, hless,
        or_true, if_true]
  | true =>
      have hlarge : 2 ^ 127 ≤ a.bits.toNat := (Int128.isNegative_iff a).mp hsign
      have habs : (-a.bits).toNat = 2 ^ 128 - a.bits.toNat := by
        rw [UInt128.toNat_neg, Nat.mod_eq_of_lt (by omega)]
      have hgreater : (-a.bits).isGreaterThan Int128.min.bits = false := by
        apply Bool.eq_false_iff.mpr
        rw [ne_eq, UInt128.isGreaterThan_iff, Int128.toNat_bits_min, habs]
        omega
      have hback : - -a.bits = a.bits := by
        apply UInt128.ext_toNat
        rw [UInt128.toNat_neg, habs]
        omega
      simp only [Int128.unsignedAbs, hsign, if_true, applySign, hgreater, Bool.false_eq_true,
        if_false, hback]

end TwoLimb.Text

namespace TwoLimb

open Text

variable {C : Type} [CodeUnit C]

/-- A field of an unsigned value, in decimal or in marked hexadecimal, is read back as
the value. Fill may be whitespace or a separator anywhere, and it may be zero where it
stands directly before the digits. -/
theorem UInt128.ofUnits_toUnits_unsigned (a : UInt128) (spec : FieldSpec)
    (hradix : spec.radix = .decimal ∨ spec.radix = .hexadecimal ∧ spec.marked = true)
    (hfill : (isBlank spec.fill = true ∨ spec.fill = separator) ∨
      spec.fill = zeroDigit ∧
        (spec.align = .internal ∨ spec.radix = .decimal ∧ spec.align = .right)) :
    UInt128.ofUnits (a.toUnits spec : List C) = .ok a := by
  have hdigits := isNumeral_digits (C := C) a spec.radix spec.uppercase
  have hmark := isMark_markBytes hradix
  have hfield : IsField spec.radix (spec.markBytes.map CodeUnit.ofAscii) a.toNat
      (a.toUnits spec : List C) := by
    change IsField spec.radix ((spec.headBytes false).map CodeUnit.ofAscii) a.toNat
      (spec.render false (digits a spec.radix spec.uppercase))
    rcases hfill with hfill | ⟨hfill, halign | ⟨hdecimal, halign⟩⟩
    · exact isField_render_of_margin hdigits hfill
    · exact isField_render_of_internal hdigits hfill halign
    · have hhead : spec.headBytes false = [] := (hdecimal ▸ hmark).eq_nil
      rw [hhead]
      exact isField_render_of_right hdigits hfill halign hhead
  rw [UInt128.ofUnits, hfield.readUnsigned_eq hmark]
  rfl

/-- The greatest value in a wide decimal field filled with zeros. -/
theorem UInt128.ofUnits_toUnits_zero_filled :
    UInt128.ofUnits (UInt128.max.toUnits { fill := zeroDigit, width := 50 } : List UInt16) =
      .ok .max :=
  UInt128.ofUnits_toUnits_unsigned .max _ (Or.inl rfl) (Or.inr ⟨rfl, Or.inr ⟨rfl, rfl⟩⟩)

/-- A field of a signed value, in decimal or in marked hexadecimal, is read back as the
value. In decimal it has the sign and the magnitude of the value, in hexadecimal its
two's complement bits and no sign. -/
theorem Int128.ofUnits_toUnits_signed (a : Int128) (spec : FieldSpec)
    (hradix : spec.radix = .decimal ∨ spec.radix = .hexadecimal ∧ spec.marked = true)
    (hfill : (isBlank spec.fill = true ∨ spec.fill = separator) ∨
      spec.fill = zeroDigit ∧ spec.align = .internal) :
    Int128.ofUnits (a.toUnits spec : List C) = .ok a := by
  have hmark := isMark_markBytes hradix
  have hrender {bytes : List UInt8} {n : Nat} (negative : Bool)
      (hbytes : IsNumeral spec.radix (bytes.map CodeUnit.ofAscii : List C) n) :
      IsField spec.radix ((spec.headBytes negative).map CodeUnit.ofAscii) n
        (spec.render negative bytes : List C) := by
    rcases hfill with hfill | ⟨hfill, halign⟩
    · exact isField_render_of_margin hbytes hfill
    · exact isField_render_of_internal hbytes hfill halign
  suffices hread : readSigned (a.toUnits spec : List C) = .ok a by
    rw [Int128.ofUnits, hread]
    rfl
  rcases hradix with hdecimal | ⟨hhexadecimal, -⟩
  · have hdigits : IsNumeral spec.radix
        ((digits a.unsignedAbs .decimal false).map CodeUnit.ofAscii : List C)
        a.unsignedAbs.toNat := by
      rw [hdecimal]
      exact isNumeral_digits a.unsignedAbs .decimal false
    have hunits : (a.toUnits spec : List C) =
        spec.render a.isNegative (digits a.unsignedAbs .decimal false) := by
      rw [Int128.toUnits, hdecimal]
    have hfield := hrender a.isNegative hdigits
    have happly := applySign_unsignedAbs a spec.radix
    rw [hunits, ← happly]
    cases hsign : a.isNegative with
    | false =>
        rw [hsign] at hfield
        exact hfield.readSigned_eq hmark
    | true =>
        rw [hsign] at hfield
        exact hfield.readSigned_sign hmark
  · have hdigits := isNumeral_digits (C := C) a.bits spec.radix spec.uppercase
    have hunits : (a.toUnits spec : List C) =
        spec.render false (digits a.bits spec.radix spec.uppercase) := by
      simp only [Int128.toUnits, UInt128.toUnits, hhexadecimal]
    have hfield : IsField spec.radix (spec.markBytes.map CodeUnit.ofAscii) a.bits.toNat
        (spec.render false (digits a.bits spec.radix spec.uppercase) : List C) :=
      hrender false hdigits
    rw [hunits, hfield.readSigned_eq hmark, hhexadecimal]
    rfl

/-- The least value with separators between its sign and its digits. -/
theorem Int128.ofUnits_toUnits_separated :
    Int128.ofUnits
        (Int128.min.toUnits { fill := separator, width := 60, align := .internal } : List Char) =
      .ok .min :=
  Int128.ofUnits_toUnits_signed .min _ (Or.inl rfl) (Or.inl (Or.inr rfl))

end TwoLimb
