/-
# What unsigned texts mean

The grammar of unsigned numbers, said without a reader: the margins of a text, the base
mark and the digit part behind it, the digits that units spell, and which of five
outcomes a digit part has. An outcome that is an error names the first place where the
text goes wrong, so the reader has to stop there, neither earlier nor later. The reader
and the grammar agree on every sequence of units in every encoding.
-/

import TwoLimb.Proofs.Text.Reader

namespace TwoLimb.Text

variable {C : Type} [CodeUnit C]

/-- The bytes of margins: ASCII whitespace and the separator. -/
def marginBytes : List UInt8 := [0x20, 0x09, 0x0a, 0x0c, 0x0d, 0x5f]

def IsMarginUnit (unit : C) : Prop := ∃ byte ∈ marginBytes, unit = CodeUnit.ofAscii byte

/-- A text without its margins: what is cut off at either end is margin, and what is left
neither starts nor ends with margin. -/
structure IsCore (units core : List C) : Prop where
  split : ∃ front back, units = front ++ core ++ back ∧
    (∀ unit ∈ front, IsMarginUnit unit) ∧ ∀ unit ∈ back, IsMarginUnit unit
  first : ∀ unit ∈ core.head?, ¬IsMarginUnit unit
  last : ∀ unit ∈ core.getLast?, ¬IsMarginUnit unit

/-- A text that starts with a zero and an `x` of either case. -/
def IsMarked (text rest : List C) : Prop :=
  ∃ x : UInt8, (x = 0x78 ∨ x = 0x58) ∧
    text = CodeUnit.ofAscii 0x30 :: CodeUnit.ofAscii x :: rest

/-- The radix of a text and its digit part, which in hexadecimal is what follows the mark
and the margin after it. -/
inductive HasDigitPart (text : List C) : Radix → List C → Prop
  | marked {pad part : List C} (hmarked : IsMarked text (pad ++ part))
      (hpad : ∀ unit ∈ pad, IsMarginUnit unit)
      (hpart : ∀ unit ∈ part.head?, ¬IsMarginUnit unit) : HasDigitPart text .hexadecimal part
  | plain (hplain : ∀ rest, ¬IsMarked text rest) : HasDigitPart text .decimal text

/-- A unit that is the ASCII digit of a number, in either case. -/
def IsDigitOf (radix : Radix) (digit : Nat) (unit : C) : Prop :=
  digit < radix.value ∧ ∃ uppercase, unit = CodeUnit.ofAscii (digitByte uppercase digit)

/-- Units that spell digits, with separators anywhere among them. -/
inductive Spells (radix : Radix) : List C → List Nat → Prop
  | nil : Spells radix [] []
  | separator {units : List C} {digits : List Nat} (hrest : Spells radix units digits) :
      Spells radix (CodeUnit.ofAscii separator :: units) digits
  | digit {unit : C} {units : List C} {digit : Nat} {digits : List Nat}
      (hunit : IsDigitOf radix digit unit) (hrest : Spells radix units digits) :
      Spells radix (unit :: units) (digit :: digits)

/-- The number that digits write, the most significant first. -/
def numeralValue (radix : Radix) (digits : List Nat) : Nat :=
  Nat.ofDigits radix.value digits.reverse

/-- The outcome of a digit part. -/
inductive HasOutcome (radix : Radix) (part : List C) : Except NumeralError UInt128 → Prop
  | value {digits : List Nat} {a : UInt128} (hspells : Spells radix part digits)
      (hdigits : digits ≠ []) (hvalue : a.toNat = numeralValue radix digits) :
      HasOutcome radix part (.ok a)
  | missingDigits (hspells : Spells radix part []) (hradix : radix = .hexadecimal) :
      HasOutcome radix part (.error .missingDigits)
  | empty (hspells : Spells radix part []) (hradix : radix ≠ .hexadecimal) :
      HasOutcome radix part (.error .empty)
  /-- The units in front spell a number that fits, and the next one is no digit. -/
  | invalidDigit {front rest : List C} {unit : C} {digits : List Nat}
      (hpart : part = front ++ unit :: rest) (hspells : Spells radix front digits)
      (hfits : numeralValue radix digits < 2 ^ 128)
      (hseparator : unit ≠ CodeUnit.ofAscii separator)
      (hdigit : ∀ digit, ¬IsDigitOf radix digit unit) :
      HasOutcome radix part (.error .invalidDigit)
  /-- The units in front spell a number that fits, and with the next digit it does not. -/
  | overflow {front rest : List C} {unit : C} {digits : List Nat} {digit : Nat}
      (hpart : part = front ++ unit :: rest) (hspells : Spells radix front digits)
      (hfits : numeralValue radix digits < 2 ^ 128) (hdigit : IsDigitOf radix digit unit)
      (hexceeds : 2 ^ 128 ≤ numeralValue radix (digits ++ [digit])) :
      HasOutcome radix part (.error .overflow)

/-- The outcome of an unsigned text. -/
def IsUnsignedReading (units : List C) (outcome : Except NumeralError UInt128) : Prop :=
  ∃ core radix part, IsCore units core ∧ HasDigitPart core radix part ∧
    HasOutcome radix part outcome

section Units

theorem isMargin_iff (unit : C) : isMargin unit = true ↔ IsMarginUnit unit := by
  have hbytes (byte : UInt8) :
      (isBlank byte || byte == separator) = true ↔ byte ∈ marginBytes := by
    simp [isBlank, separator, marginBytes, or_assoc]
  constructor
  · intro hmargin
    rw [isMargin] at hmargin
    cases hascii : CodeUnit.toAscii? unit with
    | none => simp [hascii] at hmargin
    | some byte =>
        simp only [hascii] at hmargin
        exact ⟨byte, (hbytes byte).mp hmargin, ((CodeUnit.toAscii?_eq_some_iff _ _).mp hascii).2⟩
  · rintro ⟨byte, hbyte, rfl⟩
    have hall : (marginBytes.all fun byte => decide (byte < 0x80)) = true := by decide
    have hascii : byte < 0x80 := of_decide_eq_true (List.all_eq_true.mp hall byte hbyte)
    rw [isMargin, CodeUnit.toAscii?_ofAscii hascii]
    exact (hbytes byte).mpr hbyte

theorem isAscii_iff {byte : UInt8} (hascii : byte < 0x80) (unit : C) :
    isAscii unit byte = true ↔ unit = CodeUnit.ofAscii byte := by
  rw [isAscii, beq_iff_eq, CodeUnit.toAscii?_eq_some_iff]
  exact and_iff_right hascii

/-- Readers take for digits exactly what is written for them. -/
theorem digitValue?_eq_some_iff (radix : Radix) (byte : UInt8) (digit : Nat) :
    digitValue? radix byte = some digit ↔
      digit < radix.value ∧ ∃ uppercase, byte = digitByte uppercase digit := by
  constructor
  · intro hdigit
    refine ⟨digit_lt_radix hdigit, ?_⟩
    have hvalue := (Option.filter_eq_some_iff.mp hdigit).1
    have hbyte {n : Nat} (hn : byte.toNat = n) : byte = UInt8.ofNat n := by
      rw [← hn, UInt8.ofNat_toNat]
    split at hvalue
    · rename_i hrange
      have hrange := hrange.imp UInt8.le_iff_toNat_le.mp UInt8.le_iff_toNat_le.mp
      have hnumber : byte.toNat - 0x30 = digit := Option.some.inj hvalue
      simp only [UInt8.reduceToNat] at hrange
      refine ⟨false, (hbyte ?_).trans (if_pos (by omega)).symm⟩
      omega
    · split at hvalue
      · rename_i hrange
        have hrange := hrange.imp UInt8.le_iff_toNat_le.mp UInt8.le_iff_toNat_le.mp
        have hnumber : byte.toNat - 0x61 + 10 = digit := Option.some.inj hvalue
        simp only [UInt8.reduceToNat] at hrange
        refine ⟨false, (hbyte ?_).trans (if_neg (by omega)).symm⟩
        simp only [Bool.false_eq_true, if_false]
        omega
      · split at hvalue
        · rename_i hrange
          have hrange := hrange.imp UInt8.le_iff_toNat_le.mp UInt8.le_iff_toNat_le.mp
          have hnumber : byte.toNat - 0x41 + 10 = digit := Option.some.inj hvalue
          simp only [UInt8.reduceToNat] at hrange
          refine ⟨true, (hbyte ?_).trans (if_neg (by omega)).symm⟩
          simp only [if_true]
          omega
        · cases hvalue
  · rintro ⟨hlt, uppercase, rfl⟩
    exact digitValue?_digitByte radix uppercase digit hlt

theorem isDigitOf_iff (radix : Radix) (digit : Nat) (unit : C) :
    IsDigitOf radix digit unit ↔
      ∃ byte, CodeUnit.toAscii? unit = some byte ∧ digitValue? radix byte = some digit := by
  constructor
  · rintro ⟨hlt, uppercase, rfl⟩
    exact ⟨digitByte uppercase digit,
      CodeUnit.toAscii?_ofAscii (digitByte_lt radix uppercase digit hlt),
      digitValue?_digitByte radix uppercase digit hlt⟩
  · rintro ⟨byte, hascii, hdigit⟩
    obtain ⟨hlt, uppercase, rfl⟩ := (digitValue?_eq_some_iff radix byte digit).mp hdigit
    exact ⟨hlt, uppercase, ((CodeUnit.toAscii?_eq_some_iff _ _).mp hascii).2⟩

theorem toAscii?_separator : CodeUnit.toAscii? (CodeUnit.ofAscii separator : C) = some separator :=
  CodeUnit.toAscii?_ofAscii (by decide)

end Units

section Spelling

variable {radix : Radix} {units : List C} {digits : List Nat}

theorem numeralValue_concat (radix : Radix) (digits : List Nat) (digit : Nat) :
    numeralValue radix (digits ++ [digit]) = numeralValue radix digits * radix.value + digit := by
  rw [numeralValue, List.reverse_append, List.reverse_singleton, List.singleton_append,
    Nat.ofDigits_cons, Nat.mul_comm, Nat.add_comm]
  rfl

theorem Spells.concat_separator (hspells : Spells radix units digits) :
    Spells radix (units ++ [CodeUnit.ofAscii Text.separator]) digits := by
  induction hspells with
  | nil => exact .separator .nil
  | separator _ ih => exact .separator ih
  | digit hunit _ ih => exact .digit hunit ih

theorem Spells.concat_digit {unit : C} {digit : Nat} (hspells : Spells radix units digits)
    (hunit : IsDigitOf radix digit unit) :
    Spells radix (units ++ [unit]) (digits ++ [digit]) := by
  induction hspells with
  | nil => exact .digit hunit .nil
  | separator _ ih => exact .separator ih
  | digit hfirst _ ih => exact .digit hfirst ih

/-- Spelled digits continue the number in front of them. -/
theorem Spells.numberAfter?_eq (hspells : Spells radix units digits) (value : Nat) :
    numberAfter? radix value units =
      some (digits.foldl (fun number digit => number * radix.value + digit) value) := by
  induction hspells generalizing value with
  | nil => rfl
  | separator _ ih =>
      rw [numberAfter?, toAscii?_separator]
      exact ih value
  | digit hunit _ ih =>
      obtain ⟨byte, hascii, hdigit⟩ := (isDigitOf_iff _ _ _).mp hunit
      rw [numberAfter?_cons_digit hascii hdigit]
      exact ih _

theorem foldl_eq_numeralValue (radix : Radix) (digits : List Nat) :
    digits.foldl (fun number digit => number * radix.value + digit) 0 =
      numeralValue radix digits := by
  induction digits using List.reverseRecOn with
  | nil => rfl
  | append_singleton digits digit ih =>
      rw [List.foldl_append, List.foldl_cons, List.foldl_nil, ih, numeralValue_concat]

/-- Where there is a digit, there is a unit that is no separator. -/
theorem Spells.any_eq (hspells : Spells radix units digits) :
    (units.any fun unit => !isAscii unit Text.separator) = !digits.isEmpty := by
  induction hspells with
  | nil => rfl
  | separator _ ih =>
      rw [List.any_cons, isAscii, toAscii?_separator, ih]
      rfl
  | digit hunit _ _ =>
      obtain ⟨byte, hascii, hdigit⟩ := (isDigitOf_iff _ _ _).mp hunit
      rw [List.any_cons, isAscii_eq_false ⟨byte, _, hascii, hdigit⟩ (by decide)]
      rfl

theorem DigitReader.read_fields {r next : DigitReader} {byte : UInt8}
    (hread : r.read byte = .ok next) : next.radix = r.radix ∧ next.strict = r.strict := by
  unfold read at hread
  split at hread
  · cases hread
  · split at hread
    · cases hread
    · split at hread
      · cases hread
      · split at hread
        · cases hread
        · cases hread
          exact ⟨rfl, rfl⟩

theorem scan_fields {r next : DigitReader} (hscan : scan r units = .ok next) :
    next.radix = r.radix ∧ next.strict = r.strict := by
  fun_induction scan r units with
  | case1 r =>
      cases hscan
      exact ⟨rfl, rfl⟩
  | case2 => cases hscan
  | case3 r unit rest byte _ _ ih => exact ih hscan
  | case4 => cases hscan
  | case5 r unit rest byte _ _ middle hread ih =>
      have hmiddle := DigitReader.read_fields hread
      have hnext := ih hscan
      exact ⟨hnext.1.trans hmiddle.1, hnext.2.trans hmiddle.2⟩

theorem scan_append (r : DigitReader) (front rest : List C) :
    scan r (front ++ rest) =
      match scan r front with
      | .error cause => .error cause
      | .ok next => scan next rest := by
  fun_induction scan r front with
  | case1 r => rfl
  | case2 r unit front hascii => rw [List.cons_append, scan, hascii]
  | case3 r unit front byte hascii hseparator ih =>
      rw [List.cons_append, scan, hascii]
      simp only [hseparator, if_true]
      exact ih
  | case4 r unit front byte hascii hseparator cause hread =>
      rw [List.cons_append, scan, hascii]
      simp only [hseparator, Bool.false_eq_true, if_false, hread]
  | case5 r unit front byte hascii hseparator next hread ih =>
      rw [List.cons_append, scan, hascii]
      simp only [hseparator, Bool.false_eq_true, if_false, hread]
      exact ih

/-- A reader takes what is spelled as long as it fits. -/
theorem Spells.scan_eq (hspells : Spells radix units digits)
    (hfits : numeralValue radix digits < 2 ^ 128) :
    ∃ next, scan (.lenient radix) units = .ok next ∧
      next.value.toNat = numeralValue radix digits ∧ next.started = !digits.isEmpty ∧
        next.radix = radix ∧ next.strict = false := by
  have hnumber := hspells.numberAfter?_eq 0
  rw [foldl_eq_numeralValue, ← UInt128.toNat_zero] at hnumber
  obtain ⟨next, hscan, hvalue, hstarted⟩ :=
    @scan_of_fits C _ (.lenient radix) rfl units _ hnumber hfits
  obtain ⟨hradix, hstrict⟩ := scan_fields hscan
  exact ⟨next, hscan, hvalue, hstarted.trans hspells.any_eq, hradix, hstrict⟩

end Spelling

section Outcome

variable {radix : Radix} {part : List C} {outcome : Except NumeralError UInt128}

/-- A unit that is neither a separator nor a digit stops the reader. -/
theorem scan_cons_of_not_digit {r : DigitReader} {unit : C}
    (hseparator : unit ≠ CodeUnit.ofAscii separator)
    (hdigit : ∀ digit, ¬IsDigitOf r.radix digit unit) (rest : List C) :
    scan r (unit :: rest) = .error .invalidDigit := by
  rw [scan]
  cases hascii : CodeUnit.toAscii? unit with
  | none => rfl
  | some byte =>
      have htake : (byte == separator) = false := beq_false_of_ne fun hbyte =>
        hseparator (hbyte ▸ ((CodeUnit.toAscii?_eq_some_iff _ _).mp hascii).2)
      have hnone : digitValue? r.radix byte = none := by
        cases hvalue : digitValue? r.radix byte with
        | none => rfl
        | some digit => exact absurd ((isDigitOf_iff _ _ _).mpr ⟨byte, hascii, hvalue⟩) (hdigit _)
      simp only [htake, Bool.false_eq_true, if_false, DigitReader.read, hnone]

/-- A digit that makes the number too large stops a reader. -/
theorem scan_cons_of_exceeds {r : DigitReader} {unit : C} {digit : Nat}
    (hdigit : IsDigitOf r.radix digit unit) (hadmits : r.refuses digit = false)
    (hexceeds : 2 ^ 128 ≤ r.value.toNat * r.radix.value + digit) (rest : List C) :
    scan r (unit :: rest) = .error .overflow := by
  obtain ⟨byte, hascii, hvalue⟩ := (isDigitOf_iff _ _ _).mp hdigit
  have htake : (byte == separator) = false :=
    beq_false_of_ne (ne_of_digitValue? hvalue (by decide))
  rw [scan, hascii]
  simp only [htake, Bool.false_eq_true, if_false, DigitReader.read_eq hvalue hadmits,
    if_neg (Nat.not_lt_of_le hexceeds)]

/-- A digit other than zero stops a strict reader after a leading zero. -/
theorem scan_cons_of_refuses {r : DigitReader} {unit : C} {digit : Nat}
    (hdigit : IsDigitOf r.radix digit unit) (hrefuses : r.refuses digit = true) (rest : List C) :
    scan r (unit :: rest) = .error .leadingZero := by
  obtain ⟨byte, hascii, hvalue⟩ := (isDigitOf_iff _ _ _).mp hdigit
  have htake : (byte == separator) = false :=
    beq_false_of_ne (ne_of_digitValue? hvalue (by decide))
  rw [scan, hascii]
  simp only [htake, Bool.false_eq_true, if_false, DigitReader.read_of_refuses hvalue hrefuses]

/-- The reader finds the outcome of a digit part. -/
theorem HasOutcome.readMagnitude_eq {text : List C} (houtcome : HasOutcome radix part outcome)
    (hsplit : splitMark (dropMargin text) = (radix, part)) :
    readMagnitude text = outcome.map fun value => (value, radix) := by
  rw [readMagnitude, hsplit]
  cases houtcome with
  | @value digits a hspells hdigits hvalue =>
      obtain ⟨next, hscan, hnext, hstarted, -⟩ := hspells.scan_eq (hvalue ▸ a.toNat_lt)
      have hnonempty : digits.isEmpty = false := by
        simpa using hdigits
      simp only [hscan, DigitReader.result, hstarted, hnonempty, Bool.not_false, if_true]
      rw [UInt128.ext_toNat (hnext.trans hvalue.symm)]
      rfl
  | missingDigits hspells hradix =>
      obtain ⟨next, hscan, -, hstarted, -⟩ := hspells.scan_eq (Nat.two_pow_pos 128)
      subst hradix
      simp only [hscan, DigitReader.result, hstarted]
      rfl
  | empty hspells hradix =>
      obtain ⟨next, hscan, -, hstarted, -⟩ := hspells.scan_eq (Nat.two_pow_pos 128)
      have hmark : (radix == .hexadecimal) = false := beq_false_of_ne hradix
      simp only [hscan, DigitReader.result, hstarted, hmark]
      rfl
  | @invalidDigit front rest unit digits hpart hspells hfits hseparator hdigit =>
      obtain ⟨next, hscan, -, -, hradix, -⟩ := hspells.scan_eq hfits
      simp only [hpart, scan_append, hscan,
        scan_cons_of_not_digit hseparator (hradix ▸ hdigit) rest]
      rfl
  | @overflow front rest unit digits digit hpart hspells hfits hdigit hexceeds =>
      obtain ⟨next, hscan, hnext, -, hradix, hlenient⟩ := hspells.scan_eq hfits
      rw [numeralValue_concat, ← hnext, ← hradix] at hexceeds
      simp only [hpart, scan_append, hscan,
        scan_cons_of_exceeds (hradix ▸ hdigit) (DigitReader.refuses_of_lenient hlenient _) hexceeds
          rest]
      rfl

/-- Units spell digits, or do so up to a first unit that is no digit. -/
theorem spells_or_not_digit (radix : Radix) (units : List C) :
    (∃ digits, Spells radix units digits) ∨
      ∃ front unit rest digits, units = front ++ unit :: rest ∧ Spells radix front digits ∧
        unit ≠ CodeUnit.ofAscii separator ∧ ∀ digit, ¬IsDigitOf radix digit unit := by
  induction units with
  | nil => exact Or.inl ⟨[], .nil⟩
  | cons first units ih =>
      by_cases hseparator : first = CodeUnit.ofAscii separator
      · rw [hseparator]
        rcases ih with ⟨digits, hspells⟩ | ⟨front, unit, rest, digits, hunits, hspells, hunit⟩
        · exact Or.inl ⟨digits, .separator hspells⟩
        · exact Or.inr ⟨_ :: front, unit, rest, digits, by rw [hunits]; rfl,
            .separator hspells, hunit⟩
      · by_cases hdigit : ∃ digit, IsDigitOf radix digit first
        · obtain ⟨digit, hdigit⟩ := hdigit
          rcases ih with ⟨digits, hspells⟩ | ⟨front, unit, rest, digits, hunits, hspells, hunit⟩
          · exact Or.inl ⟨digit :: digits, .digit hdigit hspells⟩
          · exact Or.inr ⟨first :: front, unit, rest, digit :: digits, by rw [hunits]; rfl,
              .digit hdigit hspells, hunit⟩
        · exact Or.inr ⟨[], first, units, [], rfl, .nil, hseparator, not_exists.mp hdigit⟩

/-- A number that grows too large does so at one of its digits. -/
theorem Spells.overflow_of_exceeds {front rest : List C} {before digits : List Nat}
    (hspells : Spells radix part digits) (hfront : Spells radix front before)
    (hfits : numeralValue radix before < 2 ^ 128)
    (hexceeds : 2 ^ 128 ≤ numeralValue radix (before ++ digits)) :
    HasOutcome radix (front ++ (part ++ rest)) (.error .overflow) := by
  induction hspells generalizing front before with
  | nil =>
      rw [List.append_nil] at hexceeds
      exact absurd hfits (Nat.not_lt_of_le hexceeds)
  | @separator units digits _ ih =>
      have hnext := ih hfront.concat_separator hfits hexceeds
      rwa [List.append_assoc] at hnext
  | @digit unit units digit digits hunit _ ih =>
      by_cases hnext : numeralValue radix (before ++ [digit]) < 2 ^ 128
      · have hlater := ih (hfront.concat_digit hunit) hnext
          (by rwa [List.append_assoc, List.singleton_append])
        rwa [List.append_assoc] at hlater
      · exact .overflow rfl hfront hfits hunit (Nat.le_of_not_lt hnext)

/-- Every digit part has an outcome. -/
theorem exists_hasOutcome (radix : Radix) (part : List C) :
    ∃ outcome, HasOutcome radix part outcome := by
  have hoverflow {front rest : List C} {digits : List Nat} (hspells : Spells radix front digits)
      (hexceeds : ¬numeralValue radix digits < 2 ^ 128) :
      HasOutcome radix (front ++ rest) (.error .overflow) :=
    hspells.overflow_of_exceeds .nil (Nat.two_pow_pos 128) (Nat.le_of_not_lt hexceeds)
  rcases spells_or_not_digit radix part with
    ⟨digits, hspells⟩ | ⟨front, unit, rest, digits, hpart, hspells, hseparator, hdigit⟩
  · by_cases hfits : numeralValue radix digits < 2 ^ 128
    · by_cases hdigits : digits = []
      · subst hdigits
        by_cases hradix : radix = .hexadecimal
        · exact ⟨_, .missingDigits hspells hradix⟩
        · exact ⟨_, .empty hspells hradix⟩
      · refine ⟨.ok (.ofNat (numeralValue radix digits)), .value hspells hdigits ?_⟩
        rw [UInt128.toNat_ofNat, Nat.mod_eq_of_lt hfits]
    · have hpart := @hoverflow part [] digits hspells hfits
      rw [List.append_nil] at hpart
      exact ⟨_, hpart⟩
  · by_cases hfits : numeralValue radix digits < 2 ^ 128
    · exact ⟨_, .invalidDigit hpart hspells hfits hseparator hdigit⟩
    · rw [hpart]
      exact ⟨_, hoverflow hspells hfits⟩

end Outcome

section Layout

theorem isMargin_eq_false_iff (unit : C) : isMargin unit = false ↔ ¬IsMarginUnit unit := by
  rw [← isMargin_iff, Bool.not_eq_true]

theorem dropMargin_of_head {units : List C} (hfirst : ∀ unit ∈ units.head?, ¬IsMarginUnit unit) :
    dropMargin units = units := by
  cases units with
  | nil => rfl
  | cons first rest =>
      exact dropMargin_cons ((isMargin_eq_false_iff first).mpr (hfirst first rfl)) rest

theorem dropEndMargin_of_getLast {units : List C}
    (hlast : ∀ unit ∈ units.getLast?, ¬IsMarginUnit unit) : dropEndMargin units = units := by
  induction units using List.reverseRecOn with
  | nil => rfl
  | append_singleton init last _ =>
      have hunit : (init ++ [last]).getLast? = some last := List.getLast?_concat
      exact dropEndMargin_concat ((isMargin_eq_false_iff last).mpr (hlast last hunit)) init

/-- A text has one core. -/
theorem IsCore.trimMargins_eq {units core : List C} (hcore : IsCore units core) :
    trimMargins units = core := by
  obtain ⟨front, back, rfl, hfront, hback⟩ := hcore.split
  have hmargin {side : List C} (hside : ∀ unit ∈ side, IsMarginUnit unit) :
      ∀ unit ∈ side, isMargin unit = true := fun unit hmem =>
    (isMargin_iff unit).mpr (hside unit hmem)
  rw [trimMargins, List.append_assoc, dropMargin_append (hmargin hfront)]
  cases core with
  | nil =>
      have hnone : dropMargin back = [] := List.dropWhile_eq_nil_iff.mpr (hmargin hback)
      rw [List.nil_append, hnone]
      rfl
  | cons first rest =>
      have hfirst := (isMargin_eq_false_iff first).mpr (hcore.first first rfl)
      rw [List.cons_append, dropMargin_cons hfirst, ← List.cons_append,
        dropEndMargin_append (hmargin hback), dropEndMargin_of_getLast hcore.last]

theorem not_isMarginUnit_of_mem_head? (units : List C) :
    ∀ unit ∈ (dropMargin units).head?, ¬IsMarginUnit unit := by
  intro unit hmem
  have hnot := List.head?_dropWhile_not isMargin units
  rw [show (units.dropWhile isMargin).head? = some unit from hmem] at hnot
  exact (isMargin_eq_false_iff unit).mp hnot

/-- What is left after trimming is a core. -/
theorem isCore_trimMargins (units : List C) : IsCore units (trimMargins units) := by
  have hmargin {side : List C} : ∀ unit ∈ side.takeWhile isMargin, IsMarginUnit unit :=
    fun unit hmem => (isMargin_iff unit).mp (List.mem_takeWhile_imp hmem)
  have hback : dropMargin units =
      trimMargins units ++ ((dropMargin units).reverse.takeWhile isMargin).reverse := by
    rw [trimMargins, dropEndMargin, ← List.reverse_append, List.takeWhile_append_dropWhile,
      List.reverse_reverse]
  refine ⟨⟨units.takeWhile isMargin, ((dropMargin units).reverse.takeWhile isMargin).reverse, ?_,
    hmargin, ?_⟩, ?_, ?_⟩
  · rw [List.append_assoc, ← hback]
    exact List.takeWhile_append_dropWhile.symm
  · intro unit hmem
    exact hmargin unit (List.mem_reverse.mp hmem)
  · intro unit hmem
    refine not_isMarginUnit_of_mem_head? units unit ?_
    rw [hback, List.head?_append, Option.mem_def.mp hmem]
    rfl
  · intro unit hmem
    refine not_isMarginUnit_of_mem_head? (dropMargin units).reverse unit ?_
    rwa [trimMargins, dropEndMargin, List.getLast?_reverse] at hmem

theorem splitMark_of_isMarked {text rest : List C} (hmarked : IsMarked text rest) :
    splitMark text = (.hexadecimal, dropMargin rest) := by
  obtain ⟨x, hx, rfl⟩ := hmarked
  have hzero : isAscii (CodeUnit.ofAscii 0x30 : C) 0x30 = true :=
    (isAscii_iff (by decide) _).mpr rfl
  have hmark : (isAscii (CodeUnit.ofAscii x : C) 0x78
      || isAscii (CodeUnit.ofAscii x : C) 0x58) = true := by
    rcases hx with rfl | rfl
    · exact Bool.or_eq_true_iff.mpr (Or.inl ((isAscii_iff (by decide) _).mpr rfl))
    · exact Bool.or_eq_true_iff.mpr (Or.inr ((isAscii_iff (by decide) _).mpr rfl))
  rw [splitMark, hzero, hmark]
  rfl

theorem splitMark_of_not_isMarked {text : List C} (hplain : ∀ rest, ¬IsMarked text rest) :
    splitMark text = (.decimal, text) := by
  unfold splitMark
  split
  · rename_i zero mark rest
    refine if_neg fun htest => hplain rest ?_
    rw [Bool.and_eq_true, Bool.or_eq_true, isAscii_iff (by decide), isAscii_iff (by decide),
      isAscii_iff (by decide)] at htest
    obtain ⟨rfl, rfl | rfl⟩ := htest
    · exact ⟨0x78, Or.inl rfl, rfl⟩
    · exact ⟨0x58, Or.inr rfl, rfl⟩
  · rfl

/-- A text has one digit part. -/
theorem HasDigitPart.splitMark_eq {text part : List C} {radix : Radix}
    (hpart : HasDigitPart text radix part) : splitMark text = (radix, part) := by
  cases hpart with
  | marked hmarked hpad hfirst =>
      rw [splitMark_of_isMarked hmarked,
        dropMargin_append fun unit hmem => (isMargin_iff unit).mpr (hpad unit hmem),
        dropMargin_of_head hfirst]
  | plain hplain => exact splitMark_of_not_isMarked hplain

theorem hasDigitPart_splitMark (text : List C) :
    HasDigitPart text (splitMark text).1 (splitMark text).2 := by
  by_cases hmarked : ∃ rest, IsMarked text rest
  · obtain ⟨rest, hmarked⟩ := hmarked
    rw [splitMark_of_isMarked hmarked]
    have hsplit : rest = rest.takeWhile isMargin ++ dropMargin rest :=
      List.takeWhile_append_dropWhile.symm
    refine .marked (hsplit ▸ hmarked) ?_ (not_isMarginUnit_of_mem_head? rest)
    intro unit hmem
    exact (isMargin_iff unit).mp (List.mem_takeWhile_imp hmem)
  · have hplain := not_exists.mp hmarked
    rw [splitMark_of_not_isMarked hplain]
    exact .plain hplain

end Layout

/-- The reader answers with the outcome of a text. -/
theorem IsUnsignedReading.readUnsigned_eq {units : List C}
    {outcome : Except NumeralError UInt128} (hreading : IsUnsignedReading units outcome) :
    readUnsigned units = outcome := by
  obtain ⟨core, radix, part, hcore, hpart, houtcome⟩ := hreading
  have hsplit : splitMark (dropMargin core) = (radix, part) := by
    rw [dropMargin_of_head hcore.first, hpart.splitMark_eq]
  rw [readUnsigned, hcore.trimMargins_eq, houtcome.readMagnitude_eq hsplit]
  cases outcome <;> rfl

theorem exists_isUnsignedReading (units : List C) :
    ∃ outcome, IsUnsignedReading units outcome := by
  obtain ⟨outcome, houtcome⟩ := exists_hasOutcome (splitMark (trimMargins units)).1
    (splitMark (trimMargins units)).2
  exact ⟨outcome, trimMargins units, _, _, isCore_trimMargins units,
    hasDigitPart_splitMark _, houtcome⟩

/-- The reader decides the grammar of unsigned texts: it answers with an outcome exactly
when the text has that outcome, and so does the public entry, which adds the text to an
error. -/
theorem unsigned_grammar_decided (units : List C) (outcome : Except NumeralError UInt128) :
    (readUnsigned units = outcome ↔ IsUnsignedReading units outcome) ∧
      (UInt128.ofUnits units = reportText units outcome ↔ IsUnsignedReading units outcome) := by
  have hreader : readUnsigned units = outcome ↔ IsUnsignedReading units outcome := by
    refine ⟨fun hread => ?_, IsUnsignedReading.readUnsigned_eq⟩
    obtain ⟨found, hfound⟩ := exists_isUnsignedReading units
    rwa [← hread, hfound.readUnsigned_eq]
  refine ⟨hreader, ?_⟩
  rw [← hreader, UInt128.ofUnits]
  refine ⟨fun hreport => ?_, congrArg (reportText units)⟩
  cases hread : readUnsigned units <;> cases outcome <;>
    simp_all [reportText]

end TwoLimb.Text
