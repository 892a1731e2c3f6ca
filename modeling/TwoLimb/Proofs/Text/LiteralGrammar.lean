/-
# What unsigned literals mean

The grammar of unsigned literals, said without a reader: the quotes around a literal,
the mark at its very start, digits with separators and apostrophes among them, and which
of six outcomes a digit part has. A decimal literal that starts with a zero has no digit
but zero, so an outcome that is an error now names the first place where the literal is no
number, is octal in looks, or is too large.

Apart from its apostrophes a literal is a text that the reader at run time takes as well,
and it takes it for the same number, although it looks for margins and marks in another
way.
-/

import TwoLimb.Proofs.Text.Encoding
import TwoLimb.Text.Literal

namespace TwoLimb.Text

/-- The bytes of a literal without the apostrophes, which separate digits as the separator
does. -/
def withoutApostrophes (bytes : List UInt8) : List UInt8 := bytes.filter (· != 0x27)

/-- Decimal digits that start with a zero although one of them is not zero. -/
def HasLeadingZero (radix : Radix) (digits : List Nat) : Prop :=
  radix = .decimal ∧ digits.head? = some 0 ∧ ∃ digit ∈ digits, digit ≠ 0

/-- The digit part of a literal in front of which nothing is wrong: it spells digits that
have no leading zero and make a number that fits. -/
structure IsLiteralFront (radix : Radix) (part : List UInt8) (digits : List Nat) : Prop where
  spells : Spells radix (withoutApostrophes part) digits
  noLeadingZero : ¬HasLeadingZero radix digits
  fits : numeralValue radix digits < 2 ^ 128

/-- The outcome of the digit part of a literal. -/
inductive HasLiteralOutcome (radix : Radix) (part : List UInt8) :
    Except NumeralError UInt128 → Prop
  | value {digits : List Nat} {a : UInt128} (hpart : IsLiteralFront radix part digits)
      (hdigits : digits ≠ []) (hvalue : a.toNat = numeralValue radix digits) :
      HasLiteralOutcome radix part (.ok a)
  | missingDigits (hpart : IsLiteralFront radix part []) (hradix : radix = .hexadecimal) :
      HasLiteralOutcome radix part (.error .missingDigits)
  | empty (hpart : IsLiteralFront radix part []) (hradix : radix ≠ .hexadecimal) :
      HasLiteralOutcome radix part (.error .empty)
  /-- The first byte that is wrong is no digit. -/
  | invalidDigit {front rest : List UInt8} {byte : UInt8} {digits : List Nat}
      (hpart : part = front ++ byte :: rest) (hfront : IsLiteralFront radix front digits)
      (hmark : byte ≠ separator ∧ byte ≠ 0x27) (hdigit : ∀ digit, ¬IsDigitOf radix digit byte) :
      HasLiteralOutcome radix part (.error .invalidDigit)
  /-- The first byte that is wrong is a digit after a leading zero. -/
  | leadingZero {front rest : List UInt8} {byte : UInt8} {digits : List Nat} {digit : Nat}
      (hpart : part = front ++ byte :: rest) (hfront : IsLiteralFront radix front digits)
      (hdigit : IsDigitOf radix digit byte) (hzero : HasLeadingZero radix (digits ++ [digit])) :
      HasLiteralOutcome radix part (.error .leadingZero)
  /-- The first byte that is wrong is a digit that makes the number too large. -/
  | overflow {front rest : List UInt8} {byte : UInt8} {digits : List Nat} {digit : Nat}
      (hpart : part = front ++ byte :: rest) (hfront : IsLiteralFront radix front digits)
      (hdigit : IsDigitOf radix digit byte) (hzero : ¬HasLeadingZero radix (digits ++ [digit]))
      (hexceeds : 2 ^ 128 ≤ numeralValue radix (digits ++ [digit])) :
      HasLiteralOutcome radix part (.error .overflow)

/-- The radix of a literal and its digit part, which in hexadecimal is all that follows the
mark. -/
inductive HasLiteralPart (bytes : List UInt8) : Radix → List UInt8 → Prop
  | marked {part : List UInt8} (hmarked : IsMarked bytes part) :
      HasLiteralPart bytes .hexadecimal part
  | plain (hplain : ∀ part, ¬IsMarked bytes part) : HasLiteralPart bytes .decimal bytes

/-- The outcome of a literal without quotes and sign. -/
def IsLiteralMagnitude (bytes : List UInt8) (outcome : Except NumeralError UInt128) : Prop :=
  ∃ radix part, HasLiteralPart bytes radix part ∧ HasLiteralOutcome radix part outcome

/-- A literal without the pair of double quotes around it, if there is one. -/
inductive HasBody (text : List Char) : List Char → Prop
  | quoted {body : List Char} (htext : text = '\x22' :: (body ++ ['\x22'])) : HasBody text body
  | bare (htext : ∀ body, text ≠ '\x22' :: (body ++ ['\x22'])) : HasBody text text

/-- The outcome of an unsigned literal. -/
def IsLiteralReading (text : String) (outcome : Except NumeralError UInt128) : Prop :=
  ∃ body, HasBody text.toList body ∧ IsLiteralMagnitude (utf8 body) outcome

section LeadingZero

variable {radix : Radix} {digits more : List Nat} {digit : Nat}

/-- A leading zero stays one when digits follow. -/
theorem HasLeadingZero.append (hzero : HasLeadingZero radix digits) (more : List Nat) :
    HasLeadingZero radix (digits ++ more) := by
  obtain ⟨hradix, hhead, digit, hmem, hdigit⟩ := hzero
  refine ⟨hradix, ?_, digit, List.mem_append_left more hmem, hdigit⟩
  rw [List.head?_append, hhead]
  rfl

/-- One more digit brings a leading zero out when the first digit is a zero and the new
one is not. -/
theorem hasLeadingZero_concat_iff (hzero : ¬HasLeadingZero radix digits) :
    HasLeadingZero radix (digits ++ [digit]) ↔
      radix = .decimal ∧ digits.head? = some 0 ∧ digit ≠ 0 := by
  constructor
  · rintro ⟨hradix, hhead, other, hmem, hother⟩
    cases digits with
    | nil =>
        rw [List.nil_append, List.mem_singleton] at hmem
        rw [List.nil_append, List.head?_cons, Option.some.injEq] at hhead
        exact absurd (hmem.trans hhead) hother
    | cons first rest =>
        refine ⟨hradix, hhead, fun hdigit => ?_⟩
        rcases List.mem_append.mp hmem with hmem | hmem
        · exact hzero ⟨hradix, hhead, other, hmem, hother⟩
        · exact hother ((List.mem_singleton.mp hmem).trans hdigit)
  · rintro ⟨hradix, hhead, hdigit⟩
    refine ⟨hradix, ?_, digit, List.mem_append_right _ List.mem_cons_self, hdigit⟩
    rw [List.head?_append, hhead]
    rfl

/-- Digits that follow make a number no smaller. -/
theorem numeralValue_le_append (radix : Radix) (digits more : List Nat) :
    numeralValue radix digits ≤ numeralValue radix (digits ++ more) := by
  have hradix := Nat.zero_lt_of_lt radix.one_lt_value
  rw [numeralValue, numeralValue, List.reverse_append, Nat.ofDigits_append]
  exact Nat.le_add_left_of_le (Nat.le_mul_of_pos_left _ (Nat.pow_pos hradix))

end LeadingZero

section Scanning

variable {C : Type} [CodeUnit C] {radix : Radix} {digits : List Nat} {r : DigitReader}
  {byte : UInt8} {digit : Nat}

/-- What a strict reader knows after the given digits. -/
structure DigitReader.Holds (r : DigitReader) (radix : Radix) (digits : List Nat) : Prop where
  radix_eq : r.radix = radix
  strict : r.strict = true
  number : r.value.toNat = numeralValue radix digits
  started : r.started = !digits.isEmpty
  leadingZero : r.leadingZero = (digits.head? == some 0)

theorem DigitReader.holds_strictly (radix : Radix) : (strictly radix).Holds radix [] where
  radix_eq := rfl
  strict := rfl
  number := UInt128.toNat_zero
  started := rfl
  leadingZero := rfl

theorem DigitReader.Holds.extend (hholds : r.Holds radix digits) {value : UInt128}
    (hvalue : value.toNat = numeralValue radix (digits ++ [digit])) :
    (r.extend digit value).Holds radix (digits ++ [digit]) where
  radix_eq := hholds.radix_eq
  strict := hholds.strict
  number := hvalue
  started := by cases digits <;> rfl
  leadingZero := by
    rw [DigitReader.extend, hholds.leadingZero, hholds.started]
    cases digits with
    | nil => rfl
    | cons first rest => exact Bool.or_false _

/-- A strict reader refuses a digit for a zero in front exactly when the digit brings a
leading zero out. -/
theorem DigitReader.Holds.refuses_iff (hholds : r.Holds radix digits)
    (hzero : ¬HasLeadingZero radix digits) :
    r.refuses digit = true ↔ HasLeadingZero radix (digits ++ [digit]) := by
  rw [hasLeadingZero_concat_iff hzero, DigitReader.refuses, hholds.radix_eq, hholds.strict,
    hholds.leadingZero]
  simp only [Bool.true_and, Bool.and_eq_true, beq_iff_eq, bne_iff_ne, and_assoc]

theorem DigitReader.Holds.admits (hholds : r.Holds radix digits)
    (hzero : ¬HasLeadingZero radix (digits ++ [digit])) : r.refuses digit = false := by
  apply Bool.eq_false_iff.mpr
  intro hrefuses
  have hfront : ¬HasLeadingZero radix digits := fun hfront => hzero (hfront.append _)
  exact hzero ((hholds.refuses_iff hfront).mp hrefuses)

theorem DigitReader.Holds.number_eq (hholds : r.Holds radix digits) (digit : Nat) :
    r.value.toNat * r.radix.value + digit = numeralValue radix (digits ++ [digit]) := by
  rw [numeralValue_concat, hholds.number, hholds.radix_eq]

/-- A digit that a literal may go on with is taken. -/
theorem DigitReader.Holds.read_eq (hholds : r.Holds radix digits)
    (hdigit : digitValue? radix byte = some digit)
    (hzero : ¬HasLeadingZero radix (digits ++ [digit]))
    (hfits : numeralValue radix (digits ++ [digit]) < 2 ^ 128) :
    ∃ next, r.read byte = .ok next ∧ next.Holds radix (digits ++ [digit]) := by
  rw [← hholds.radix_eq] at hdigit
  rw [← hholds.number_eq] at hfits
  obtain ⟨value, hread, hvalue⟩ := DigitReader.read_of_fits hdigit (hholds.admits hzero) hfits
  exact ⟨_, hread, hholds.extend (hvalue.trans (hholds.number_eq digit))⟩

/-- What a strict reader does with one more digit: it refuses what brings a leading zero out,
then what does not fit, and takes the rest. -/
theorem DigitReader.Holds.read_cases (hholds : r.Holds radix digits)
    (hfront : ¬HasLeadingZero radix digits) (hdigit : digitValue? radix byte = some digit) :
    HasLeadingZero radix (digits ++ [digit]) ∧ r.read byte = .error .leadingZero ∨
      ¬HasLeadingZero radix (digits ++ [digit]) ∧
        (2 ^ 128 ≤ numeralValue radix (digits ++ [digit]) ∧ r.read byte = .error .overflow ∨
          numeralValue radix (digits ++ [digit]) < 2 ^ 128 ∧
            ∃ next, r.read byte = .ok next ∧ next.Holds radix (digits ++ [digit])) := by
  by_cases hzero : HasLeadingZero radix (digits ++ [digit])
  · exact Or.inl ⟨hzero, DigitReader.read_of_refuses (hholds.radix_eq ▸ hdigit)
      ((hholds.refuses_iff hfront).mpr hzero)⟩
  · refine Or.inr ⟨hzero, ?_⟩
    by_cases hfits : numeralValue radix (digits ++ [digit]) < 2 ^ 128
    · exact Or.inr ⟨hfits, hholds.read_eq hdigit hzero hfits⟩
    · refine Or.inl ⟨Nat.le_of_not_lt hfits, ?_⟩
      rw [DigitReader.read_eq (hholds.radix_eq ▸ hdigit) (hholds.admits hzero),
        hholds.number_eq, if_neg hfits]

theorem digitValue?_eq_none_of_not_ascii (radix : Radix) (hascii : ¬byte < 0x80) :
    digitValue? radix byte = none := by
  cases hvalue : digitValue? radix byte with
  | none => rfl
  | some digit =>
      obtain ⟨hlt, uppercase, rfl⟩ := (digitValue?_eq_some_iff radix byte digit).mp hvalue
      exact absurd (digitByte_lt radix uppercase digit hlt) hascii

/-- Apart from apostrophes a literal is scanned as a text is. -/
theorem scanLiteral_eq (r : DigitReader) (bytes : List UInt8) :
    scanLiteral r bytes = scan r (withoutApostrophes bytes) := by
  induction bytes generalizing r with
  | nil => rfl
  | cons byte rest ih =>
      rw [scanLiteral, withoutApostrophes, List.filter_cons]
      by_cases hapostrophe : byte = 0x27
      · subst hapostrophe
        exact ih r
      · have hmark : isGroupMark byte = (byte == separator) := by
          rw [isGroupMark, beq_false_of_ne hapostrophe, Bool.or_false]
        rw [if_pos (bne_iff_ne.mpr hapostrophe), scan, hmark]
        by_cases hascii : byte < 0x80
        · have hbyte : CodeUnit.toAscii? byte = some byte := if_pos hascii
          simp only [hbyte, ih]
          rfl
        · have hbyte : CodeUnit.toAscii? byte = none := if_neg hascii
          have hseparator : (byte == separator) = false := by
            apply beq_false_of_ne
            rintro rfl
            exact hascii (by decide)
          simp only [hbyte, hseparator, DigitReader.read, Bool.false_eq_true, if_false,
            digitValue?_eq_none_of_not_ascii r.radix hascii]

/-- Spelled digits are taken as long as they make a number that fits and bring no leading
zero out. -/
theorem Spells.scan_strictly {units : List C} {before : List Nat}
    (hspells : Spells radix units digits) (hholds : r.Holds radix before)
    (hzero : ¬HasLeadingZero radix (before ++ digits))
    (hfits : numeralValue radix (before ++ digits) < 2 ^ 128) :
    ∃ next, scan r units = .ok next ∧ next.Holds radix (before ++ digits) := by
  induction hspells generalizing r before with
  | nil =>
      rw [List.append_nil]
      exact ⟨r, rfl, hholds⟩
  | separator _ ih =>
      rw [scan, toAscii?_separator]
      exact ih hholds hzero hfits
  | @digit unit units digit digits hunit _ ih =>
      obtain ⟨byte, hascii, hdigit⟩ := (isDigitOf_iff _ _ _).mp hunit
      have htake : (byte == Text.separator) = false :=
        beq_false_of_ne (ne_of_digitValue? hdigit (by decide))
      rw [List.append_cons] at hzero hfits ⊢
      have hnextFits := Nat.lt_of_le_of_lt (numeralValue_le_append radix _ digits) hfits
      obtain ⟨next, hread, hnext⟩ :=
        hholds.read_eq hdigit (fun hnext => hzero (hnext.append digits)) hnextFits
      obtain ⟨last, hscan, hlast⟩ := ih hnext hzero hfits
      refine ⟨last, ?_, hlast⟩
      rw [scan, hascii]
      simp only [htake, hread, hscan, Bool.false_eq_true, if_false]

end Scanning

section Outcome

variable {radix : Radix} {front part rest : List UInt8} {digits : List Nat} {byte : UInt8}
  {digit : Nat} {outcome : Except NumeralError UInt128}

theorem withoutApostrophes_append (front rest : List UInt8) :
    withoutApostrophes (front ++ rest) = withoutApostrophes front ++ withoutApostrophes rest :=
  List.filter_append ..

theorem withoutApostrophes_cons (hbyte : byte ≠ 0x27) (rest : List UInt8) :
    withoutApostrophes (byte :: rest) = byte :: withoutApostrophes rest :=
  List.filter_cons_of_pos (bne_iff_ne.mpr hbyte)

theorem isDigitOf_byte_iff : IsDigitOf radix digit byte ↔ digitValue? radix byte = some digit :=
  (digitValue?_eq_some_iff radix byte digit).symm

theorem ne_apostrophe (hdigit : IsDigitOf radix digit byte) : byte ≠ 0x27 :=
  ne_of_digitValue? (isDigitOf_byte_iff.mp hdigit) (by decide)

theorem isLiteralFront_nil (radix : Radix) : IsLiteralFront radix [] [] where
  spells := .nil
  noLeadingZero := by
    rintro ⟨-, hhead, -⟩
    cases hhead
  fits := Nat.two_pow_pos 128

namespace IsLiteralFront

theorem concat_mark (hfront : IsLiteralFront radix front digits)
    (hmark : byte = separator ∨ byte = 0x27) : IsLiteralFront radix (front ++ [byte]) digits where
  spells := by
    rw [withoutApostrophes_append]
    rcases hmark with rfl | rfl
    · exact hfront.spells.concat_separator
    · change Spells radix (withoutApostrophes front ++ []) digits
      rw [List.append_nil]
      exact hfront.spells
  noLeadingZero := hfront.noLeadingZero
  fits := hfront.fits

theorem concat_digit (hfront : IsLiteralFront radix front digits)
    (hdigit : IsDigitOf radix digit byte) (hzero : ¬HasLeadingZero radix (digits ++ [digit]))
    (hfits : numeralValue radix (digits ++ [digit]) < 2 ^ 128) :
    IsLiteralFront radix (front ++ [byte]) (digits ++ [digit]) where
  spells := by
    rw [withoutApostrophes_append, withoutApostrophes_cons (ne_apostrophe hdigit)]
    exact hfront.spells.concat_digit hdigit
  noLeadingZero := hzero
  fits := hfits

/-- A reader gets through what nothing is wrong with. -/
theorem exists_scan (hpart : IsLiteralFront radix part digits) :
    ∃ next, scan (.strictly radix) (withoutApostrophes part) = .ok next ∧
      next.Holds radix digits :=
  hpart.spells.scan_strictly (DigitReader.holds_strictly radix) hpart.noLeadingZero hpart.fits

/-- The end of a digit part that nothing is wrong with. -/
theorem hasLiteralOutcome_result {r : DigitReader} (hholds : r.Holds radix digits)
    (hpart : IsLiteralFront radix part digits) :
    HasLiteralOutcome radix part (r.result (radix == .hexadecimal)) := by
  rw [DigitReader.result, hholds.started]
  cases digits with
  | nil =>
      by_cases hradix : radix = .hexadecimal
      · subst hradix
        exact .missingDigits hpart rfl
      · rw [beq_false_of_ne hradix]
        exact .empty hpart hradix
  | cons first more => exact .value hpart (List.cons_ne_nil first more) hholds.number

end IsLiteralFront

/-- A reader that got through the front answers with the outcome of the whole part. -/
theorem DigitReader.Holds.hasLiteralOutcome {r : DigitReader} (hholds : r.Holds radix digits)
    (hfront : IsLiteralFront radix front digits) (rest : List UInt8) :
    HasLiteralOutcome radix (front ++ rest)
      (match scanLiteral r rest with
      | .error cause => .error cause
      | .ok next => next.result (radix == .hexadecimal)) := by
  induction rest generalizing r front digits with
  | nil =>
      rw [List.append_nil]
      exact hfront.hasLiteralOutcome_result hholds
  | cons byte rest ih =>
      rw [scanLiteral]
      have hgroup : isGroupMark byte = true ↔ byte = separator ∨ byte = 0x27 := by
        rw [isGroupMark, Bool.or_eq_true, beq_iff_eq, beq_iff_eq]
      by_cases hmark : isGroupMark byte = true
      · rw [if_pos hmark, List.append_cons]
        exact ih hholds (hfront.concat_mark (hgroup.mp hmark))
      · rw [if_neg hmark]
        cases hvalue : digitValue? radix byte with
        | none =>
            have hread : r.read byte = .error .invalidDigit := by
              rw [DigitReader.read, hholds.radix_eq, hvalue]
            rw [hread]
            refine .invalidDigit rfl hfront (not_or.mp (mt hgroup.mpr hmark)) ?_
            intro digit hdigit
            rw [isDigitOf_byte_iff.mp hdigit] at hvalue
            cases hvalue
        | some digit =>
            have hdigit : IsDigitOf radix digit byte := isDigitOf_byte_iff.mpr hvalue
            rcases hholds.read_cases hfront.noLeadingZero hvalue with
              ⟨hzero, hread⟩ | ⟨hzero, ⟨hexceeds, hread⟩ | ⟨hfits, next, hread, hnext⟩⟩
            · rw [hread]
              exact .leadingZero rfl hfront hdigit hzero
            · rw [hread]
              exact .overflow rfl hfront hdigit hzero hexceeds
            · rw [hread, List.append_cons]
              exact ih hnext (hfront.concat_digit hdigit hzero hfits)

/-- A digit part has the outcome that its reader answers with. -/
theorem HasLiteralOutcome.result_eq (houtcome : HasLiteralOutcome radix part outcome) :
    (match scanLiteral (.strictly radix) part with
      | .error cause => .error cause
      | .ok next => next.result (radix == .hexadecimal)) = outcome := by
  rw [scanLiteral_eq]
  cases houtcome with
  | @value digits a hpart hdigits hvalue =>
      obtain ⟨next, hscan, hnext⟩ := hpart.exists_scan
      have hnonempty : digits.isEmpty = false := List.isEmpty_eq_false_iff.mpr hdigits
      have hnumber : next.value = a := UInt128.ext_toNat (hnext.number.trans hvalue.symm)
      rw [hscan]
      simp only [DigitReader.result, hnext.started, hnonempty, hnumber, Bool.not_false, if_true]
  | missingDigits hpart hradix =>
      obtain ⟨next, hscan, hnext⟩ := hpart.exists_scan
      subst hradix
      rw [hscan]
      simp only [DigitReader.result, hnext.started]
      rfl
  | empty hpart hradix =>
      obtain ⟨next, hscan, hnext⟩ := hpart.exists_scan
      rw [hscan]
      simp only [DigitReader.result, hnext.started, beq_false_of_ne hradix]
      rfl
  | @invalidDigit front rest byte digits hpart hfront hmark hdigit =>
      obtain ⟨next, hscan, hnext⟩ := hfront.exists_scan
      rw [hpart, withoutApostrophes_append, withoutApostrophes_cons hmark.2, scan_append, hscan]
      simp only [@scan_cons_of_not_digit _ _ next byte hmark.1 (hnext.radix_eq ▸ hdigit)]
  | @leadingZero front rest byte digits digit hpart hfront hdigit hzero =>
      obtain ⟨next, hscan, hnext⟩ := hfront.exists_scan
      rw [hpart, withoutApostrophes_append, withoutApostrophes_cons (ne_apostrophe hdigit),
        scan_append, hscan]
      simp only [scan_cons_of_refuses (hnext.radix_eq ▸ hdigit)
        ((hnext.refuses_iff hfront.noLeadingZero).mpr hzero)]
  | @overflow front rest byte digits digit hpart hfront hdigit hzero hexceeds =>
      obtain ⟨next, hscan, hnext⟩ := hfront.exists_scan
      rw [hpart, withoutApostrophes_append, withoutApostrophes_cons (ne_apostrophe hdigit),
        scan_append, hscan]
      rw [← hnext.number_eq] at hexceeds
      simp only [scan_cons_of_exceeds (hnext.radix_eq ▸ hdigit) (hnext.admits hzero) hexceeds]

end Outcome

section Layout

variable {bytes part : List UInt8} {radix : Radix} {outcome : Except NumeralError UInt128}

theorem splitLiteralMark_of_isMarked (hmarked : IsMarked bytes part) :
    splitLiteralMark bytes = (.hexadecimal, part) := by
  obtain ⟨x, hx, rfl⟩ := hmarked
  have hmark : (x == 0x78 || x == 0x58) = true := by
    rw [Bool.or_eq_true, beq_iff_eq, beq_iff_eq]
    exact hx
  change (if x == 0x78 || x == 0x58 then _ else _) = _
  rw [if_pos hmark]

theorem splitLiteralMark_of_not_isMarked (hplain : ∀ part, ¬IsMarked bytes part) :
    splitLiteralMark bytes = (.decimal, bytes) := by
  unfold splitLiteralMark
  split
  · rename_i mark rest
    refine if_neg fun hmark => hplain rest ⟨mark, ?_, rfl⟩
    rwa [Bool.or_eq_true, beq_iff_eq, beq_iff_eq] at hmark
  · rfl

/-- A literal has one digit part. -/
theorem HasLiteralPart.splitLiteralMark_eq (hpart : HasLiteralPart bytes radix part) :
    splitLiteralMark bytes = (radix, part) := by
  cases hpart with
  | marked hmarked => exact splitLiteralMark_of_isMarked hmarked
  | plain hplain => exact splitLiteralMark_of_not_isMarked hplain

theorem hasLiteralPart_splitLiteralMark (bytes : List UInt8) :
    HasLiteralPart bytes (splitLiteralMark bytes).1 (splitLiteralMark bytes).2 := by
  by_cases hmarked : ∃ part, IsMarked bytes part
  · obtain ⟨part, hmarked⟩ := hmarked
    rw [splitLiteralMark_of_isMarked hmarked]
    exact .marked hmarked
  · have hplain := not_exists.mp hmarked
    rw [splitLiteralMark_of_not_isMarked hplain]
    exact .plain hplain

/-- The reader decides the grammar of literals without quotes and sign. -/
theorem literalMagnitude_eq_iff :
    literalMagnitude bytes = outcome ↔ IsLiteralMagnitude bytes outcome := by
  constructor
  · rintro rfl
    refine ⟨_, _, hasLiteralPart_splitLiteralMark bytes, ?_⟩
    exact (DigitReader.holds_strictly _).hasLiteralOutcome (isLiteralFront_nil _) _
  · rintro ⟨radix, part, hpart, houtcome⟩
    rw [literalMagnitude, hpart.splitLiteralMark_eq]
    exact houtcome.result_eq

end Layout

section Body

variable {text body : List Char}

/-- A text whose bytes end with an ASCII byte ends with the character of it. -/
theorem exists_of_utf8_eq_concat {byte : UInt8} (hascii : byte < 0x80) {front : List UInt8}
    (htext : utf8 text = front ++ [byte]) : ∃ init, text = init ++ [CodeUnit.ofAscii byte] := by
  have hreverse : text.reverse.flatMap (List.reverse ∘ utf8Char) = byte :: front.reverse := by
    rw [← List.reverse_flatMap, ← utf8, htext, List.reverse_append]
    rfl
  obtain ⟨rest, hrest, -⟩ :=
    reencodes_utf8Char.reverse.exists_of_flatMap_eq_cons hascii hreverse
  refine ⟨rest.reverse, ?_⟩
  rw [← List.reverse_reverse text, hrest, List.reverse_cons]

/-- A literal has one body. -/
theorem HasBody.withoutQuotes_eq (hbody : HasBody text body) :
    withoutQuotes (utf8 text) = utf8 body := by
  cases hbody with
  | quoted htext =>
      have hbytes : utf8 text = 0x22 :: (utf8 body ++ [0x22]) := by
        rw [htext, utf8, List.flatMap_cons, List.flatMap_append]
        rfl
      have hlast : (utf8 body ++ [0x22]).getLast? = some 0x22 := List.getLast?_concat
      rw [hbytes]
      exact (if_pos hlast).trans List.dropLast_concat
  | bare htext =>
      unfold withoutQuotes
      split
      · rename_i rest hbytes
        apply if_neg
        intro hlast
        have hquote : (0x22 : UInt8) < 0x80 := by decide
        obtain ⟨more, hmore, hrest⟩ :=
          reencodes_utf8Char.exists_of_flatMap_eq_cons hquote hbytes
        obtain ⟨front, hfront⟩ := List.getLast?_eq_some_iff.mp hlast
        obtain ⟨init, hinit⟩ := exists_of_utf8_eq_concat hquote (hrest.symm.trans hfront)
        exact htext init (by rw [hmore, hinit]; rfl)
      · rfl

theorem exists_hasBody (text : List Char) : ∃ body, HasBody text body := by
  by_cases hquoted : ∃ body, text = '\x22' :: (body ++ ['\x22'])
  · obtain ⟨body, htext⟩ := hquoted
    exact ⟨body, .quoted htext⟩
  · exact ⟨text, .bare (not_exists.mp hquoted)⟩

/-- The reader decides the grammar of unsigned literals. -/
theorem readLiteral_eq_iff (text : String) (outcome : Except NumeralError UInt128) :
    readLiteral (utf8 text.toList) = outcome ↔ IsLiteralReading text outcome := by
  constructor
  · intro hread
    obtain ⟨body, hbody⟩ := exists_hasBody text.toList
    rw [readLiteral, hbody.withoutQuotes_eq] at hread
    exact ⟨body, hbody, literalMagnitude_eq_iff.mp hread⟩
  · rintro ⟨body, hbody, hmagnitude⟩
    rw [readLiteral, hbody.withoutQuotes_eq]
    exact literalMagnitude_eq_iff.mpr hmagnitude

/-- Bytes of characters that are no apostrophe are none either. -/
theorem withoutApostrophes_utf8Char {c : Char} (hc : c ≠ '\x27') :
    withoutApostrophes (utf8Char c) = utf8Char c := by
  apply List.filter_eq_self.mpr
  intro byte hmem
  apply bne_iff_ne.mpr
  rintro rfl
  cases hascii : CodeUnit.toAscii? c with
  | none => exact absurd (reencodes_utf8Char.other hascii 0x27 hmem) (by decide)
  | some byte =>
      rw [reencodes_utf8Char.ascii hascii] at hmem
      have hbyte : byte = 0x27 := (List.mem_singleton.mp hmem).symm
      rw [hbyte] at hascii
      exact hc ((CodeUnit.toAscii?_eq_some_iff c 0x27).mp hascii).2

/-- Apostrophes may be left out of the characters or out of the bytes. -/
theorem utf8_filter_apostrophes (body : List Char) :
    utf8 (body.filter (· != '\x27')) = withoutApostrophes (utf8 body) := by
  induction body with
  | nil => rfl
  | cons c rest ih =>
      have hrest : utf8 (c :: rest) = utf8Char c ++ utf8 rest := List.flatMap_cons
      rw [hrest, withoutApostrophes_append, ← ih]
      by_cases hc : c = '\x27'
      · subst hc
        rfl
      · have hkeep : (c :: rest).filter (· != '\x27') = c :: rest.filter (· != '\x27') :=
          List.filter_cons_of_pos (bne_iff_ne.mpr hc)
        rw [withoutApostrophes_utf8Char hc, hkeep]
        exact List.flatMap_cons

end Body

section Reading

variable {C : Type} [CodeUnit C] {radix : Radix} {units : List C} {digits : List Nat}

theorem Spells.reverse (hspells : Spells radix units digits) :
    Spells radix units.reverse digits.reverse := by
  induction hspells with
  | nil => exact .nil
  | separator _ ih =>
      rw [List.reverse_cons]
      exact ih.concat_separator
  | digit hunit _ ih =>
      rw [List.reverse_cons, List.reverse_cons]
      exact ih.concat_digit hunit

/-- What spells digits loses nothing but separators with its margin. -/
theorem Spells.dropMargin (hspells : Spells radix units digits) :
    Spells radix (Text.dropMargin units) digits := by
  induction hspells with
  | nil => exact .nil
  | @separator units digits hrest ih =>
      have hmargin : isMargin (CodeUnit.ofAscii Text.separator : C) = true :=
        isMargin_ofAscii (Or.inr rfl)
      rwa [Text.dropMargin, List.dropWhile_cons_of_pos hmargin]
  | @digit unit units digit digits hunit hrest _ =>
      obtain ⟨byte, hascii, hdigit⟩ := (isDigitOf_iff _ _ _).mp hunit
      rw [dropMargin_cons (isMargin_eq_false ⟨byte, digit, hascii, hdigit⟩)]
      exact .digit hunit hrest

theorem Spells.dropEndMargin (hspells : Spells radix units digits) :
    Spells radix (Text.dropEndMargin units) digits := by
  rw [← List.reverse_reverse digits]
  exact hspells.reverse.dropMargin.reverse

theorem Spells.unit_cases (hspells : Spells radix units digits) :
    ∀ unit ∈ units, unit = CodeUnit.ofAscii Text.separator ∨ ∃ digit, IsDigitOf radix digit unit := by
  induction hspells with
  | nil => exact List.forall_mem_nil _
  | separator _ ih => exact List.forall_mem_cons.mpr ⟨Or.inl rfl, ih⟩
  | digit hunit _ ih => exact List.forall_mem_cons.mpr ⟨Or.inr ⟨_, hunit⟩, ih⟩

/-- What spells decimal digits is not marked. -/
theorem Spells.not_isMarked (hspells : Spells .decimal units digits) (rest : List C) :
    ¬IsMarked units rest := by
  rintro ⟨x, hx, rfl⟩
  have hascii : CodeUnit.toAscii? (CodeUnit.ofAscii x : C) = some x :=
    CodeUnit.toAscii?_ofAscii (by rcases hx with rfl | rfl <;> decide)
  have hnone : x ≠ Text.separator ∧ digitValue? .decimal x = none := by
    rcases hx with rfl | rfl <;> decide
  rcases hspells.unit_cases _ (List.mem_cons_of_mem _ List.mem_cons_self) with
    hseparator | ⟨digit, hdigit⟩
  · rw [hseparator, toAscii?_separator] at hascii
    exact hnone.1 (Option.some.inj hascii).symm
  · obtain ⟨byte, hbyte, hvalue⟩ := (isDigitOf_iff _ _ _).mp hdigit
    rw [hascii, Option.some.injEq] at hbyte
    rw [← hbyte, hnone.2] at hvalue
    cases hvalue

/-- What is left of spelled digits without their margins. -/
theorem Spells.trimMargins (hspells : Spells radix units digits) :
    Spells radix (Text.trimMargins units) digits :=
  hspells.dropMargin.dropEndMargin

/-- A literal without its apostrophes is read at run time as the same number. -/
theorem IsLiteralMagnitude.readUnsigned_eq {bytes : List UInt8} {a : UInt128}
    (hmagnitude : IsLiteralMagnitude bytes (.ok a)) :
    readUnsigned (withoutApostrophes bytes) = .ok a := by
  obtain ⟨radix, part, hpart, houtcome⟩ := hmagnitude
  cases houtcome with
  | @value digits _ hfront hdigits hvalue =>
      cases hpart with
      | plain =>
          have hspells := hfront.spells.trimMargins.dropMargin
          have houtcome : HasOutcome .decimal _ (.ok a) := .value hspells hdigits hvalue
          have hsplit := splitMark_of_not_isMarked hspells.not_isMarked
          rw [readUnsigned, houtcome.readMagnitude_eq hsplit]
          rfl
      | marked hmarked =>
          obtain ⟨x, hx, rfl⟩ := hmarked
          have hspells := hfront.spells.dropEndMargin.dropMargin
          have houtcome : HasOutcome .hexadecimal _ (.ok a) := .value hspells hdigits hvalue
          have hzero : isMargin (0x30 : UInt8) = false := by decide
          have hmark : x ≠ 0x27 ∧ isMargin x = false := by
            rcases hx with rfl | rfl <;> decide
          have hbytes : withoutApostrophes (0x30 :: x :: part) =
              0x30 :: x :: withoutApostrophes part := by
            rw [withoutApostrophes_cons (by decide), withoutApostrophes_cons hmark.1]
          have htrim : trimMargins (0x30 :: x :: withoutApostrophes part) =
              0x30 :: x :: dropEndMargin (withoutApostrophes part) := by
            rw [trimMargins, dropMargin_cons hzero, dropEndMargin_cons hzero,
              dropEndMargin_cons hmark.2]
          have hsplit : splitMark
              (dropMargin (0x30 :: x :: dropEndMargin (withoutApostrophes part))) =
                (.hexadecimal, dropMargin (dropEndMargin (withoutApostrophes part))) := by
            rw [dropMargin_cons hzero]
            exact splitMark_of_isMarked ⟨x, hx, rfl⟩
          change readUnsigned (withoutApostrophes (0x30 :: x :: part)) = .ok a
          rw [readUnsigned, hbytes, htrim, houtcome.readMagnitude_eq hsplit]
          rfl

end Reading

section Messages

theorem literalMessage_inj {one two : NumeralError} :
    one.literalMessage = two.literalMessage ↔ one = two := by
  refine ⟨?_, congrArg _⟩
  cases one <;> cases two <;> decide

/-- What a literal stops with tells which error it has. -/
theorem message_faultText_eq_iff {α : Type} (one two : Except NumeralError α) :
    (faultText one).mapError Fault.message = two.mapError NumeralError.literalMessage ↔
      one = two := by
  cases one with
  | ok value =>
      cases two with
      | ok other =>
          simp only [faultText, Except.mapError, Except.ok.injEq]
      | error cause => simp only [faultText, Except.mapError, reduceCtorEq]
  | error cause =>
      cases two with
      | ok other => simp only [faultText, Except.mapError, reduceCtorEq]
      | error other =>
          simp only [faultText, Except.mapError, Fault.message, Except.error.injEq,
            literalMessage_inj]

/-- An answer stops with the text of an error exactly where that error is read. -/
structure TellsErrors {α : Type} (answer : Except Fault α) (reads : Except NumeralError α → Prop) :
    Prop where
  empty : answer.mapError Fault.message = .error "128-bit literal without digits" ↔
    reads (.error .empty)
  invalidDigit : answer.mapError Fault.message = .error
      "invalid digit in 128-bit literal (only decimal and 0x are supported, without suffix)" ↔
    reads (.error .invalidDigit)
  leadingZero : answer.mapError Fault.message =
      .error "leading zero in decimal 128-bit literal" ↔
    reads (.error .leadingZero)
  missingDigits : answer.mapError Fault.message =
      .error "no digits after 0x in 128-bit literal" ↔
    reads (.error .missingDigits)
  overflow : answer.mapError Fault.message = .error "128-bit literal out of range" ↔
    reads (.error .overflow)

/-- A reader that answers for every outcome tells its errors. -/
theorem tellsErrors {α : Type} {answer : Except Fault α} {reads : Except NumeralError α → Prop}
    (hreads : ∀ outcome : Except NumeralError α, answer.mapError Fault.message =
      outcome.mapError NumeralError.literalMessage ↔ reads outcome) :
    TellsErrors answer reads :=
  ⟨hreads (.error .empty), hreads (.error .invalidDigit), hreads (.error .leadingZero),
    hreads (.error .missingDigits), hreads (.error .overflow)⟩

theorem faultText_eq_ok_iff {α : Type} {outcome : Except NumeralError α} {value : α} :
    faultText outcome = .ok value ↔ outcome = .ok value := by
  cases outcome <;> simp only [faultText, Except.ok.injEq, reduceCtorEq]

end Messages

/-- The reader decides the grammar of unsigned literals: it answers with a value, or stops
with the message of an error, exactly when the literal has that outcome. Each error has its
text. A value that the reader answers with is what the body of the literal is read as at run
time, apart from its apostrophes. -/
theorem literal_grammar_decided (text : String) :
    (∀ outcome : Except NumeralError UInt128,
      (UInt128.ofLiteral text).mapError Fault.message =
          outcome.mapError NumeralError.literalMessage ↔ IsLiteralReading text outcome) ∧
      TellsErrors (UInt128.ofLiteral text) (IsLiteralReading text) ∧
      ∀ (body : List Char) (a : UInt128), HasBody text.toList body →
        UInt128.ofLiteral text = .ok a →
          UInt128.ofUnits (utf8 (body.filter (· != '\x27'))) = .ok a := by
  have hdecided : ∀ outcome : Except NumeralError UInt128,
      (UInt128.ofLiteral text).mapError Fault.message =
        outcome.mapError NumeralError.literalMessage ↔ IsLiteralReading text outcome := by
    intro outcome
    rw [UInt128.ofLiteral, message_faultText_eq_iff, readLiteral_eq_iff]
  refine ⟨hdecided, tellsErrors hdecided, ?_⟩
  intro body a hbody hliteral
  rw [UInt128.ofLiteral, faultText_eq_ok_iff, readLiteral, hbody.withoutQuotes_eq,
    literalMagnitude_eq_iff] at hliteral
  rw [utf8_filter_apostrophes, UInt128.ofUnits, hliteral.readUnsigned_eq]
  rfl

end TwoLimb.Text
