/-
# What signed texts mean

A signed text is an unsigned one behind at most one sign. The sign is the first unit
that is no margin, what follows is judged by the rules of unsigned texts, and only a
magnitude that these rules accept is held against a range. The range depends on sign
and radix: the minus sign takes one magnitude more than no sign does, and hexadecimal
without a sign stands for bits, so every magnitude is in range there.

An error of the magnitude is the error of the text, and a range is only left by a text
whose magnitude is right, so neither failure can hide the other.
-/

import TwoLimb.Proofs.Int128.TwosComplement
import TwoLimb.Proofs.Text.Grammar

namespace TwoLimb.Text

variable {C : Type} [CodeUnit C]

/-- The ASCII byte of a sign. -/
def Sign.byte : Sign → UInt8
  | .minus => 0x2d
  | .plus => 0x2b

/-- The sign at the start of a text without margins, and what follows it. -/
inductive HasSign (core : List C) : Option Sign → List C → Prop
  | signed {sign : Sign} {rest : List C} (hcore : core = CodeUnit.ofAscii sign.byte :: rest) :
      HasSign core (some sign) rest
  | signless (hcore : ∀ (sign : Sign) (rest : List C), core ≠ CodeUnit.ofAscii sign.byte :: rest) :
      HasSign core none core

/-- The outcome of a text by the rules of unsigned texts, with the radix it is written
in. -/
def IsMagnitudeReading (units : List C) (radix : Radix)
    (outcome : Except NumeralError UInt128) : Prop :=
  ∃ core part, IsCore units core ∧ HasDigitPart core radix part ∧ HasOutcome radix part outcome

/-- The integer that a magnitude stands for behind a sign, if the range there has it. -/
def signedValue? : Option Sign → Radix → Nat → Option Int
  | some .minus, _, m => if m ≤ 2 ^ 127 then some (-m) else none
  | none, .hexadecimal, m => some ((m : Int).bmod (2 ^ 128))
  | _, _, m => if m < 2 ^ 127 then some m else none

/-- The outcome of a signed text. -/
inductive IsSignedReading (units : List C) : Except NumeralError Int128 → Prop
  | value {core rest : List C} {sign : Option Sign} {radix : Radix} {m : UInt128} {a : Int128}
      (hcore : IsCore units core) (hsign : HasSign core sign rest)
      (hmagnitude : IsMagnitudeReading rest radix (.ok m))
      (hvalue : signedValue? sign radix m.toNat = some a.toInt) : IsSignedReading units (.ok a)
  | overflow {core rest : List C} {sign : Option Sign} {radix : Radix} {m : UInt128}
      (hcore : IsCore units core) (hsign : HasSign core sign rest)
      (hmagnitude : IsMagnitudeReading rest radix (.ok m))
      (hrange : signedValue? sign radix m.toNat = none) : IsSignedReading units (.error .overflow)
  | error {core rest : List C} {sign : Option Sign} {radix : Radix} {cause : NumeralError}
      (hcore : IsCore units core) (hsign : HasSign core sign rest)
      (hmagnitude : IsMagnitudeReading rest radix (.error cause)) :
      IsSignedReading units (.error cause)

/-- The rules of unsigned texts are the same with and without the radix. -/
theorem isUnsignedReading_iff (units : List C) (outcome : Except NumeralError UInt128) :
    IsUnsignedReading units outcome ↔ ∃ radix, IsMagnitudeReading units radix outcome := by
  constructor
  · rintro ⟨core, radix, part, hreading⟩
    exact ⟨radix, core, part, hreading⟩
  · rintro ⟨radix, core, part, hreading⟩
    exact ⟨core, radix, part, hreading⟩

section Sign

theorem isAscii_sign (sign : Sign) (unit : C) :
    isAscii unit sign.byte = true ↔ unit = CodeUnit.ofAscii sign.byte :=
  isAscii_iff (by cases sign <;> decide) unit

/-- A text has one sign or none. -/
theorem HasSign.splitSign_eq {core rest : List C} {sign : Option Sign}
    (hsign : HasSign core sign rest) : splitSign core = (sign, rest) := by
  cases hsign with
  | @signed sign rest hcore =>
      have hunit : isAscii (CodeUnit.ofAscii sign.byte : C) sign.byte = true :=
        (isAscii_sign sign _).mpr rfl
      rw [hcore, splitSign]
      cases sign with
      | minus => exact if_pos hunit
      | plus =>
          have hplus : ¬isAscii (CodeUnit.ofAscii 0x2b : C) 0x2d = true := by
            rw [isAscii, CodeUnit.toAscii?_ofAscii (by decide)]
            decide
          exact (if_neg hplus).trans (if_pos hunit)
  | signless hcore =>
      cases core with
      | nil => rfl
      | cons first rest =>
          have hother (sign : Sign) : ¬isAscii first sign.byte = true := fun hfirst =>
            hcore sign rest (by rw [(isAscii_sign sign first).mp hfirst])
          exact (if_neg (hother .minus)).trans (if_neg (hother .plus))

theorem hasSign_splitSign (core : List C) : HasSign core (splitSign core).1 (splitSign core).2 := by
  by_cases hsigned : ∃ (sign : Sign) (rest : List C), core = CodeUnit.ofAscii sign.byte :: rest
  · obtain ⟨sign, rest, hcore⟩ := hsigned
    have hsign : HasSign core (some sign) rest := .signed hcore
    rwa [hsign.splitSign_eq]
  · have hsign : HasSign core none core := .signless fun sign rest hcore =>
      hsigned ⟨sign, rest, hcore⟩
    rwa [hsign.splitSign_eq]

/-- Without its sign a text still ends with a unit that is no margin. -/
theorem HasSign.last {core rest : List C} {sign : Option Sign} (hsign : HasSign core sign rest)
    (hlast : ∀ unit ∈ core.getLast?, ¬IsMarginUnit unit) :
    ∀ unit ∈ rest.getLast?, ¬IsMarginUnit unit := by
  cases hsign with
  | signed hcore =>
      intro unit hmem
      apply hlast
      rw [hcore, List.getLast?_cons, Option.mem_def.mp hmem]
      rfl
  | signless => exact hlast

end Sign

section Magnitude

variable {rest : List C} {radix : Radix} {outcome : Except NumeralError UInt128}

/-- A text that does not end with margin has margin before its core only. -/
theorem trimMargins_of_getLast {units : List C}
    (hlast : ∀ unit ∈ units.getLast?, ¬IsMarginUnit unit) :
    trimMargins units = dropMargin units := by
  refine dropEndMargin_of_getLast fun unit hmem => hlast unit ?_
  have hsplit : units = units.takeWhile isMargin ++ dropMargin units :=
    List.takeWhile_append_dropWhile.symm
  rw [hsplit, List.getLast?_append, Option.mem_def.mp hmem]
  rfl

theorem IsMagnitudeReading.readMagnitude_eq (hreading : IsMagnitudeReading rest radix outcome)
    (hlast : ∀ unit ∈ rest.getLast?, ¬IsMarginUnit unit) :
    readMagnitude rest = outcome.map fun value => (value, radix) := by
  obtain ⟨core, part, hcore, hpart, houtcome⟩ := hreading
  have hsplit : splitMark (dropMargin rest) = (radix, part) := by
    rw [← trimMargins_of_getLast hlast, hcore.trimMargins_eq, hpart.splitMark_eq]
  exact houtcome.readMagnitude_eq hsplit

theorem exists_isMagnitudeReading (rest : List C) :
    ∃ radix outcome, IsMagnitudeReading rest radix outcome := by
  obtain ⟨outcome, hreading⟩ := exists_isUnsignedReading rest
  obtain ⟨radix, hreading⟩ := (isUnsignedReading_iff rest outcome).mp hreading
  exact ⟨radix, outcome, hreading⟩

end Magnitude

section Range

variable {sign : Option Sign} {radix : Radix} {m : UInt128} {a : Int128}

theorem toInt_mk_of_lt (hlt : m.toNat < 2 ^ 127) : Int128.toInt ⟨m⟩ = m.toNat := if_pos hlt

theorem toInt_mk_neg_of_le (hle : m.toNat ≤ 2 ^ 127) : Int128.toInt ⟨-m⟩ = -m.toNat := by
  rw [Int128.toInt_mk_neg]
  exact Int128.bmod_of_inRange ⟨by omega, by omega⟩

/-- A magnitude that has to stay below the limit is taken as it is, or refused. -/
theorem ite_limit_cases (m : UInt128) :
    (∃ a, (if m.toNat < 2 ^ 127 then .ok ⟨m⟩ else .error .overflow : Except NumeralError Int128) =
        .ok a ∧ (if m.toNat < 2 ^ 127 then some (m.toNat : Int) else none) = some a.toInt) ∨
      (if m.toNat < 2 ^ 127 then .ok ⟨m⟩ else .error .overflow : Except NumeralError Int128) =
        .error .overflow ∧ (if m.toNat < 2 ^ 127 then some (m.toNat : Int) else none) = none := by
  by_cases hlt : m.toNat < 2 ^ 127
  · refine Or.inl ⟨⟨m⟩, if_pos hlt, ?_⟩
    rw [if_pos hlt, toInt_mk_of_lt hlt]
  · exact Or.inr ⟨if_neg hlt, if_neg hlt⟩

/-- The range test answers with the integer that the magnitude stands for, and refuses
where there is none. -/
theorem applySign_cases (sign : Option Sign) (radix : Radix) (m : UInt128) :
    (∃ a, applySign sign radix m = .ok a ∧ signedValue? sign radix m.toNat = some a.toInt) ∨
      applySign sign radix m = .error .overflow ∧ signedValue? sign radix m.toNat = none := by
  match sign, radix with
  | none, .hexadecimal =>
      refine Or.inl ⟨⟨m⟩, ?_, ?_⟩
      · simp only [applySign, true_or, if_true]
      · rw [Int128.toInt_eq_bmod]
        rfl
  | none, .binary | none, .octal | none, .decimal | some .plus, _ =>
      simp only [applySign, signedValue?, reduceCtorEq, false_or, UInt128.isLessThan_iff,
        Int128.toNat_bits_min]
      exact ite_limit_cases m
  | some .minus, _ =>
      simp only [applySign, signedValue?, UInt128.isGreaterThan_iff, Int128.toNat_bits_min]
      by_cases hle : m.toNat ≤ 2 ^ 127
      · refine Or.inl ⟨⟨-m⟩, if_neg (Nat.not_lt_of_le hle), ?_⟩
        rw [if_pos hle, toInt_mk_neg_of_le hle]
      · exact Or.inr ⟨if_pos (Nat.lt_of_not_le hle), if_neg hle⟩

theorem applySign_of_some (hvalue : signedValue? sign radix m.toNat = some a.toInt) :
    applySign sign radix m = .ok a := by
  rcases applySign_cases sign radix m with ⟨b, happly, hb⟩ | ⟨-, hnone⟩
  · rw [happly, Int128.toInt_inj.mp (Option.some.inj (hb.symm.trans hvalue))]
  · rw [hnone] at hvalue
    cases hvalue

theorem applySign_of_none (hrange : signedValue? sign radix m.toNat = none) :
    applySign sign radix m = .error .overflow := by
  rcases applySign_cases sign radix m with ⟨b, -, hb⟩ | ⟨happly, -⟩
  · rw [hrange] at hb
    cases hb
  · exact happly

/-- Without a sign the bits of the value are the magnitude. -/
theorem bits_of_applySign_none (hvalue : applySign none radix m = .ok a) : a.bits = m := by
  simp only [applySign] at hvalue
  split at hvalue
  · cases hvalue
    rfl
  · cases hvalue

end Range

/-- The reader takes a text apart as the grammar does. -/
theorem readSigned_of_parts {units core rest : List C} {sign : Option Sign} {radix : Radix}
    {outcome : Except NumeralError UInt128} (hcore : IsCore units core)
    (hsign : HasSign core sign rest) (hmagnitude : IsMagnitudeReading rest radix outcome) :
    readSigned units =
      match outcome with
      | .error cause => .error cause
      | .ok m => applySign sign radix m := by
  rw [readSigned, hcore.trimMargins_eq, hsign.splitSign_eq]
  simp only [hmagnitude.readMagnitude_eq (hsign.last hcore.last)]
  cases outcome <;> rfl

/-- A text that is an unsigned number has a magnitude by the rules. -/
theorem exists_isMagnitudeReading_ok {units : List C} {m : UInt128}
    (hread : readUnsigned units = .ok m) : ∃ radix, IsMagnitudeReading units radix (.ok m) := by
  obtain ⟨outcome, hreading⟩ := exists_isUnsignedReading units
  rw [hreading.readUnsigned_eq] at hread
  subst hread
  exact (isUnsignedReading_iff units _).mp hreading

/-- A text with a value is not all margin. -/
theorem IsMagnitudeReading.exists_core {units : List C} {radix : Radix} {m : UInt128}
    (hreading : IsMagnitudeReading units radix (.ok m)) :
    ∃ core part, IsCore units core ∧ core ≠ [] ∧ HasDigitPart core radix part ∧
      HasOutcome radix part (.ok m) := by
  obtain ⟨core, part, hcore, hpart, houtcome⟩ := hreading
  refine ⟨core, part, hcore, ?_, hpart, houtcome⟩
  rintro rfl
  cases hpart with
  | marked hmarked =>
      obtain ⟨x, -, htext⟩ := hmarked
      cases htext
  | plain =>
      cases houtcome with
      | value hspells hdigits =>
          cases hspells
          exact hdigits rfl

/-- A sign has no influence on the radix, so the range behind it has none either. -/
theorem applySign_some (sign : Sign) (radix other : Radix) (m : UInt128) :
    applySign (some sign) radix m = applySign (some sign) other m := by
  cases sign <;> rfl

theorem not_isMarginUnit_sign (sign : Sign) : ¬IsMarginUnit (CodeUnit.ofAscii sign.byte : C) := by
  rw [← isMargin_eq_false_iff, isMargin, CodeUnit.toAscii?_ofAscii (by cases sign <;> decide)]
  cases sign <;> rfl

theorem not_isDigitOf_sign (radix : Radix) (digit : Nat) (sign : Sign) :
    ¬IsDigitOf radix digit (CodeUnit.ofAscii sign.byte : C) := by
  intro hdigit
  obtain ⟨byte, hbyte, hvalue⟩ := (isDigitOf_iff _ _ _).mp hdigit
  rw [CodeUnit.toAscii?_ofAscii (by cases sign <;> decide), Option.some_inj] at hbyte
  have hnone : digitValue? radix sign.byte = none := by
    cases sign <;> cases radix <;> decide
  rw [← hbyte, hnone] at hvalue
  cases hvalue

/-- A sign stands neither for a separator nor for a zero. -/
theorem ofAscii_sign_ne (sign : Sign) {byte : UInt8} (hbyte : byte = separator ∨ byte = zeroDigit) :
    (CodeUnit.ofAscii byte : C) ≠ CodeUnit.ofAscii sign.byte := by
  intro hunit
  rcases hbyte with rfl | rfl
  · exact not_isMarginUnit_sign sign ⟨separator, by decide, hunit.symm⟩
  · exact not_isDigitOf_sign .decimal 0 sign ⟨by decide, false, hunit.symm⟩

/-- A text that starts with a sign has no base mark. -/
theorem not_isMarked_sign (sign : Sign) (rest part : List C) :
    ¬IsMarked (CodeUnit.ofAscii sign.byte :: rest) part := by
  rintro ⟨x, -, htext⟩
  exact ofAscii_sign_ne sign (.inr rfl) (List.cons.inj htext).1.symm

/-- In front of a sign there may be margin, and so there may be behind it. -/
theorem IsCore.exists_signed {front pad units core : List C} (hcore : IsCore units core)
    (hne : core ≠ []) (sign : Sign) (hfront : ∀ unit ∈ front, IsMarginUnit unit)
    (hpad : ∀ unit ∈ pad, IsMarginUnit unit) :
    ∃ rest, IsCore (front ++ CodeUnit.ofAscii sign.byte :: (pad ++ units))
      (CodeUnit.ofAscii sign.byte :: rest) ∧ IsCore rest core := by
  obtain ⟨before, after, rfl, hbefore, hafter⟩ := hcore.split
  refine ⟨pad ++ before ++ core, ⟨⟨front, after, by simp, hfront, hafter⟩, ?_, ?_⟩,
    ⟨⟨pad ++ before, [], by simp, ?_, by simp⟩, hcore.first, hcore.last⟩⟩
  · intro unit hmem
    rw [List.head?_cons, Option.mem_some_iff] at hmem
    rw [← hmem]
    exact not_isMarginUnit_sign sign
  · intro unit hmem
    apply hcore.last
    rw [← List.cons_append, List.getLast?_append, List.getLast?_eq_some_getLast hne] at hmem
    rw [List.getLast?_eq_some_getLast hne]
    exact hmem
  · intro unit hmem
    exact (List.mem_append.mp hmem).elim (hpad unit) (hbefore unit)

/-- Behind a sign it counts what an unsigned text says there. -/
theorem readSigned_of_readUnsigned {front pad units : List C} {m : UInt128} (sign : Sign)
    (hfront : ∀ unit ∈ front, IsMarginUnit unit) (hpad : ∀ unit ∈ pad, IsMarginUnit unit)
    (hread : readUnsigned units = .ok m) (radix : Radix) :
    readSigned (front ++ CodeUnit.ofAscii sign.byte :: (pad ++ units)) =
      applySign (some sign) radix m := by
  obtain ⟨written, hreading⟩ := exists_isMagnitudeReading_ok hread
  obtain ⟨core, part, hcore, hne, hpart, houtcome⟩ := hreading.exists_core
  obtain ⟨rest, hwhole, hrest⟩ := hcore.exists_signed hne sign hfront hpad
  rw [readSigned_of_parts hwhole (.signed rfl) ⟨core, part, hrest, hpart, houtcome⟩]
  exact applySign_some sign written radix m

/-- The reader answers with the outcome of a text. -/
theorem IsSignedReading.readSigned_eq {units : List C} {outcome : Except NumeralError Int128}
    (hreading : IsSignedReading units outcome) : readSigned units = outcome := by
  cases hreading with
  | value hcore hsign hmagnitude hvalue =>
      rw [readSigned_of_parts hcore hsign hmagnitude]
      exact applySign_of_some hvalue
  | overflow hcore hsign hmagnitude hrange =>
      rw [readSigned_of_parts hcore hsign hmagnitude]
      exact applySign_of_none hrange
  | error hcore hsign hmagnitude => rw [readSigned_of_parts hcore hsign hmagnitude]

theorem exists_isSignedReading (units : List C) :
    ∃ outcome, IsSignedReading units outcome := by
  have hcore := isCore_trimMargins units
  have hsign := hasSign_splitSign (trimMargins units)
  obtain ⟨radix, outcome, hmagnitude⟩ :=
    exists_isMagnitudeReading (splitSign (trimMargins units)).2
  cases outcome with
  | error cause => exact ⟨_, .error hcore hsign hmagnitude⟩
  | ok m =>
      rcases applySign_cases (splitSign (trimMargins units)).1 radix m with
        ⟨a, -, hvalue⟩ | ⟨-, hrange⟩
      · exact ⟨_, .value hcore hsign hmagnitude hvalue⟩
      · exact ⟨_, .overflow hcore hsign hmagnitude hrange⟩

/-- A report shows the outcome that it was made of. -/
theorem reportText_inj {α : Type} {units : List C} {one two : Except NumeralError α} :
    reportText units one = reportText units two ↔ one = two := by
  refine ⟨fun hreport => ?_, congrArg (reportText units)⟩
  cases one <;> cases two <;> simp_all [reportText]

/-- Where a text without sign is a signed number, it is an unsigned one with the same
bits. -/
theorem ofUnits_of_signless {units core : List C} {a : Int128} (hcore : IsCore units core)
    (hsign : HasSign core none core) (hread : Int128.ofUnits units = .ok a) :
    UInt128.ofUnits units = .ok a.bits := by
  have hvalue : readSigned units = .ok a := reportText_inj.mp hread
  obtain ⟨radix, outcome, hmagnitude⟩ := exists_isMagnitudeReading core
  rw [readSigned_of_parts hcore hsign hmagnitude] at hvalue
  cases outcome with
  | error cause => cases hvalue
  | ok m =>
      have hbits : a.bits = m := bits_of_applySign_none hvalue
      have hmagnitude := hmagnitude.readMagnitude_eq hcore.last
      rw [UInt128.ofUnits, readUnsigned, hcore.trimMargins_eq, hmagnitude, hbits]
      rfl

/-- The reader decides the grammar and the range of signed texts: it answers with an outcome
exactly when the text has that outcome, and so does the public entry, which adds the text
to an error. Where there is no sign, a signed number is an unsigned one with the same
bits. -/
theorem signed_grammar_decided (units : List C) :
    (∀ outcome : Except NumeralError Int128,
      (readSigned units = outcome ↔ IsSignedReading units outcome) ∧
        (Int128.ofUnits units = reportText units outcome ↔ IsSignedReading units outcome)) ∧
      ∀ (core : List C) (a : Int128), IsCore units core → HasSign core none core →
        Int128.ofUnits units = .ok a → UInt128.ofUnits units = .ok a.bits := by
  refine ⟨fun outcome => ?_, fun core a hcore hsign => ofUnits_of_signless hcore hsign⟩
  have hreader : readSigned units = outcome ↔ IsSignedReading units outcome := by
    refine ⟨fun hread => ?_, IsSignedReading.readSigned_eq⟩
    obtain ⟨found, hfound⟩ := exists_isSignedReading units
    rwa [← hread, hfound.readSigned_eq]
  refine ⟨hreader, ?_⟩
  rw [← hreader, Int128.ofUnits]
  exact reportText_inj

end TwoLimb.Text
