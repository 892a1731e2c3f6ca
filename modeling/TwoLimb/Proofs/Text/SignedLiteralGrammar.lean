/-
# What signed literals mean

A signed literal is an unsigned one behind at most one minus sign and the spaces directly
after it. The quotes around it enclose the sign too, and its mark stands at the start of what
follows the spaces. The rules of unsigned literals judge that part, and their errors are the
errors of the whole. Only then is the magnitude held against a range, which has one number
more below zero than above, and which is the same for hexadecimal as for decimal.

At run time a text may have margin in more places, a plus sign, and hexadecimal that stands
for bits. Where a literal has a value, none of this makes a difference: apart from its
apostrophes its body is read at run time as that value.
-/

import TwoLimb.Proofs.Text.LiteralGrammar

namespace TwoLimb.Text

/-- Whether the body of a literal is negated, and what is left of it behind the minus sign and
all spaces that follow. -/
inductive HasLiteralSign (body : List Char) : Bool → List Char → Prop
  | negated {count : Nat} {rest : List Char}
      (hbody : body = '-' :: (List.replicate count ' ' ++ rest)) (hrest : rest.head? ≠ some ' ') :
      HasLiteralSign body true rest
  | plain (hbody : body.head? ≠ some '-') : HasLiteralSign body false body

/-- The integer that a literal with the given magnitude stands for, if it is in range. -/
def literalValue? (negated : Bool) (m : Nat) : Option Int :=
  if negated then if m ≤ 2 ^ 127 then some (-m) else none
  else if m < 2 ^ 127 then some m else none

/-- The outcome of a signed literal. -/
inductive IsSignedLiteralReading (text : String) : Except NumeralError Int128 → Prop
  | value {body rest : List Char} {negated : Bool} {m : UInt128} {a : Int128}
      (hbody : HasBody text.toList body) (hsign : HasLiteralSign body negated rest)
      (hmagnitude : IsLiteralMagnitude (utf8 rest) (.ok m))
      (hvalue : literalValue? negated m.toNat = some a.toInt) :
      IsSignedLiteralReading text (.ok a)
  | overflow {body rest : List Char} {negated : Bool} {m : UInt128}
      (hbody : HasBody text.toList body) (hsign : HasLiteralSign body negated rest)
      (hmagnitude : IsLiteralMagnitude (utf8 rest) (.ok m))
      (hrange : literalValue? negated m.toNat = none) :
      IsSignedLiteralReading text (.error .overflow)
  | error {body rest : List Char} {negated : Bool} {cause : NumeralError}
      (hbody : HasBody text.toList body) (hsign : HasLiteralSign body negated rest)
      (hmagnitude : IsLiteralMagnitude (utf8 rest) (.error cause)) :
      IsSignedLiteralReading text (.error cause)

section Sign

variable {body rest : List Char} {negated : Bool}

theorem utf8_cons (c : Char) (rest : List Char) : utf8 (c :: rest) = utf8Char c ++ utf8 rest :=
  List.flatMap_cons

/-- A text starts with an ASCII byte just when it starts with the character of it. -/
theorem head?_utf8_eq_some_iff {byte : UInt8} (hascii : byte < 0x80) (text : List Char) :
    (utf8 text).head? = some byte ↔ text.head? = some (CodeUnit.ofAscii byte) := by
  constructor
  · intro hhead
    obtain ⟨tail, htail⟩ := List.head?_eq_some_iff.mp hhead
    obtain ⟨rest, rfl, -⟩ := reencodes_utf8Char.exists_of_flatMap_eq_cons hascii htail
    rfl
  · intro hhead
    obtain ⟨tail, rfl⟩ := List.head?_eq_some_iff.mp hhead
    rw [utf8_cons, reencodes_utf8Char.encode_ofAscii hascii]
    rfl

theorem utf8_replicate_space (count : Nat) (rest : List Char) :
    utf8 (List.replicate count ' ' ++ rest) = List.replicate count 0x20 ++ utf8 rest := by
  induction count with
  | zero => rfl
  | succ count ih =>
      rw [List.replicate_succ, List.cons_append, utf8_cons, ih]
      rfl

/-- The sign is found in the bytes where it is in the characters. -/
theorem HasLiteralSign.splitLiteralSign_eq (hsign : HasLiteralSign body negated rest) :
    splitLiteralSign (utf8 body) = (negated, utf8 rest) := by
  cases hsign with
  | @negated count rest hbody hrest =>
      have hbytes : utf8 body = 0x2d :: (List.replicate count 0x20 ++ utf8 rest) := by
        rw [hbody, utf8_cons, utf8_replicate_space]
        rfl
      have hspaces : ∀ byte ∈ List.replicate count (0x20 : UInt8), (byte == 0x20) = true := by
        intro byte hmem
        rw [List.eq_of_mem_replicate hmem]
        rfl
      have hstop : (utf8 rest).dropWhile (· == 0x20) = utf8 rest := by
        cases hrestBytes : utf8 rest with
        | nil => rfl
        | cons first more =>
            apply List.dropWhile_cons_of_neg
            intro hspace
            apply hrest
            apply (@head?_utf8_eq_some_iff 0x20 (by decide) rest).mp
            rw [hrestBytes, List.head?_cons, beq_iff_eq.mp hspace]
      rw [hbytes]
      change (true, (List.replicate count 0x20 ++ utf8 rest).dropWhile (· == 0x20)) = _
      rw [List.dropWhile_append_of_pos hspaces, hstop]
  | plain hbody =>
      unfold splitLiteralSign
      split
      · rename_i more hbytes
        have hminus : (utf8 body).head? = some 0x2d := by rw [hbytes]; rfl
        exact absurd ((head?_utf8_eq_some_iff (by decide) body).mp hminus) hbody
      · rfl

theorem exists_hasLiteralSign (body : List Char) :
    ∃ negated rest, HasLiteralSign body negated rest := by
  by_cases hminus : body.head? = some '-'
  · obtain ⟨tail, rfl⟩ := List.head?_eq_some_iff.mp hminus
    have hspaces : tail.takeWhile (· == ' ') =
        List.replicate (tail.takeWhile (· == ' ')).length ' ' := by
      apply List.eq_replicate_of_mem
      intro c hmem
      simpa using List.mem_takeWhile_imp hmem
    have hbody : '-' :: tail = '-' ::
        (List.replicate (tail.takeWhile (· == ' ')).length ' ' ++ tail.dropWhile (· == ' ')) := by
      rw [← hspaces, List.takeWhile_append_dropWhile]
    refine ⟨true, tail.dropWhile (· == ' '), .negated hbody ?_⟩
    intro hspace
    have hnot := List.head?_dropWhile_not (· == ' ') tail
    rw [hspace] at hnot
    exact absurd hnot (by decide)
  · exact ⟨false, body, .plain hminus⟩

end Sign

section Range

variable {negated : Bool} {m : UInt128}

/-- The sign that a literal stands behind at run time, if it had one there. -/
def literalSign (negated : Bool) : Sign := if negated then .minus else .plus

theorem signedValue?_literalSign (negated : Bool) (radix : Radix) (m : Nat) :
    signedValue? (some (literalSign negated)) radix m = literalValue? negated m := by
  cases negated <;> rfl

/-- Without a sign a number may be what it may be behind a plus sign. -/
theorem applySign_none_of_plus {a : Int128} {radix : Radix}
    (hvalue : applySign (some .plus) radix m = .ok a) : applySign none radix m = .ok a := by
  simp only [applySign] at hvalue ⊢
  split at hvalue
  · rename_i hless
    rw [if_pos (Or.inr hless)]
    exact hvalue
  · cases hvalue

end Range

section Literal

variable {text : String} {body rest : List Char} {negated : Bool}

/-- The reader takes a literal apart as the grammar does. -/
theorem readSignedLiteral_of_parts (hbody : HasBody text.toList body)
    (hsign : HasLiteralSign body negated rest) :
    readSignedLiteral (utf8 text.toList) =
      match literalMagnitude (utf8 rest) with
      | .error cause => .error cause
      | .ok m => applySign (some (literalSign negated)) .decimal m := by
  rw [readSignedLiteral, hbody.withoutQuotes_eq, hsign.splitLiteralSign_eq]
  cases negated <;> rfl

/-- The reader answers with the outcome of a literal. -/
theorem IsSignedLiteralReading.readSignedLiteral_eq {outcome : Except NumeralError Int128}
    (hreading : IsSignedLiteralReading text outcome) :
    readSignedLiteral (utf8 text.toList) = outcome := by
  cases hreading with
  | value hbody hsign hmagnitude hvalue =>
      rw [readSignedLiteral_of_parts hbody hsign, literalMagnitude_eq_iff.mpr hmagnitude]
      rw [← signedValue?_literalSign _ .decimal] at hvalue
      exact applySign_of_some hvalue
  | overflow hbody hsign hmagnitude hrange =>
      rw [readSignedLiteral_of_parts hbody hsign, literalMagnitude_eq_iff.mpr hmagnitude]
      rw [← signedValue?_literalSign _ .decimal] at hrange
      exact applySign_of_none hrange
  | error hbody hsign hmagnitude =>
      rw [readSignedLiteral_of_parts hbody hsign, literalMagnitude_eq_iff.mpr hmagnitude]

theorem exists_isSignedLiteralReading (text : String) :
    ∃ outcome, IsSignedLiteralReading text outcome := by
  obtain ⟨body, hbody⟩ := exists_hasBody text.toList
  obtain ⟨negated, rest, hsign⟩ := exists_hasLiteralSign body
  have hmagnitude : IsLiteralMagnitude (utf8 rest) _ := literalMagnitude_eq_iff.mp rfl
  cases hread : literalMagnitude (utf8 rest) with
  | error cause => exact ⟨_, .error hbody hsign (hread ▸ hmagnitude)⟩
  | ok m =>
      rw [hread] at hmagnitude
      rcases applySign_cases (some (literalSign negated)) .decimal m with
        ⟨a, -, hvalue⟩ | ⟨-, hrange⟩
      · rw [signedValue?_literalSign] at hvalue
        exact ⟨_, .value hbody hsign hmagnitude hvalue⟩
      · rw [signedValue?_literalSign] at hrange
        exact ⟨_, .overflow hbody hsign hmagnitude hrange⟩

/-- The reader decides the grammar and the range of signed literals. -/
theorem readSignedLiteral_eq_iff {outcome : Except NumeralError Int128} :
    readSignedLiteral (utf8 text.toList) = outcome ↔ IsSignedLiteralReading text outcome := by
  refine ⟨fun hread => ?_, IsSignedLiteralReading.readSignedLiteral_eq⟩
  obtain ⟨found, hfound⟩ := exists_isSignedLiteralReading text
  rwa [← hread, hfound.readSignedLiteral_eq]

end Literal

section Runtime

variable {body rest : List Char} {negated : Bool} {m : UInt128}

/-- Neither a separator nor a digit is a sign. -/
theorem Spells.not_signed {C : Type} [CodeUnit C] {radix : Radix} {units : List C}
    {digits : List Nat} (hspells : Spells radix units digits) (sign : Sign) (rest : List C) :
    units ≠ CodeUnit.ofAscii sign.byte :: rest := by
  rintro rfl
  rcases hspells.unit_cases _ List.mem_cons_self with hseparator | ⟨digit, hdigit⟩
  · exact ofAscii_sign_ne sign (.inl rfl) hseparator.symm
  · exact not_isDigitOf_sign radix digit sign hdigit

/-- An unsigned number is read as a signed one that has no sign. -/
theorem readSigned_of_readUnsigned_plain {C : Type} [CodeUnit C] {units : List C}
    (hread : readUnsigned units = .ok m) : ∃ radix, readSigned units = applySign none radix m := by
  obtain ⟨radix, hreading⟩ := exists_isMagnitudeReading_ok hread
  obtain ⟨core, part, hcore, -, hpart, houtcome⟩ := hreading.exists_core
  have hplain : HasSign core none core := by
    apply HasSign.signless
    intro sign rest hsigned
    cases hpart with
    | marked hmarked =>
        rw [hsigned] at hmarked
        exact not_isMarked_sign sign rest _ hmarked
    | plain =>
        cases houtcome with
        | value hspells => exact hspells.not_signed sign rest hsigned
  have hcoreReading : IsMagnitudeReading core radix (.ok m) :=
    ⟨core, part, ⟨⟨[], [], by simp, by simp, by simp⟩, hcore.first, hcore.last⟩, hpart, houtcome⟩
  exact ⟨radix, readSigned_of_parts hcore hplain hcoreReading⟩

/-- What a literal is read as, its body is read as at run time. -/
theorem HasLiteralSign.readSigned_eq {a : Int128} (hsign : HasLiteralSign body negated rest)
    (hmagnitude : IsLiteralMagnitude (utf8 rest) (.ok m))
    (hvalue : applySign (some (literalSign negated)) .decimal m = .ok a) :
    readSigned (withoutApostrophes (utf8 body)) = .ok a := by
  have hread := hmagnitude.readUnsigned_eq
  cases hsign with
  | @negated count _ hbody =>
      -- The spaces behind the sign are margin at run time.
      have hspaces : withoutApostrophes (List.replicate count 0x20) =
          List.replicate count 0x20 := by
        apply List.filter_eq_self.mpr
        intro byte hmem
        rw [List.eq_of_mem_replicate hmem]
        rfl
      have hbytes : withoutApostrophes (utf8 body) =
          0x2d :: (List.replicate count 0x20 ++ withoutApostrophes (utf8 rest)) := by
        rw [hbody, utf8_cons, utf8_replicate_space, withoutApostrophes_append,
          withoutApostrophes_append, hspaces]
        rfl
      have hmargin : ∀ byte ∈ List.replicate count (0x20 : UInt8), IsMarginUnit byte := by
        intro byte hmem
        exact ⟨0x20, List.mem_cons_self, List.eq_of_mem_replicate hmem⟩
      have hsigned := readSigned_of_readUnsigned .minus (List.forall_mem_nil _) hmargin hread
        .decimal
      rw [hbytes, ← hvalue]
      exact hsigned
  | plain =>
      obtain ⟨radix, hplain⟩ := readSigned_of_readUnsigned_plain hread
      rw [hplain]
      apply applySign_none_of_plus
      rw [applySign_some .plus radix .decimal]
      exact hvalue

end Runtime

/-- The reader decides the grammar and the range of signed literals: it answers with a value,
or stops with the message of an error, exactly when the literal has that outcome. Each error
has its text. A value that the reader answers with is what the body of the literal is read as
at run time, apart from its apostrophes. -/
theorem signed_literal_grammar_decided (text : String) :
    (∀ outcome : Except NumeralError Int128,
      (Int128.ofLiteral text).mapError Fault.message =
          outcome.mapError NumeralError.literalMessage ↔ IsSignedLiteralReading text outcome) ∧
      TellsErrors (Int128.ofLiteral text) (IsSignedLiteralReading text) ∧
      ∀ (body : List Char) (a : Int128), HasBody text.toList body →
        Int128.ofLiteral text = .ok a →
          Int128.ofUnits (utf8 (body.filter (· != '\x27'))) = .ok a := by
  have hdecided : ∀ outcome : Except NumeralError Int128,
      (Int128.ofLiteral text).mapError Fault.message =
        outcome.mapError NumeralError.literalMessage ↔ IsSignedLiteralReading text outcome := by
    intro outcome
    rw [Int128.ofLiteral, message_faultText_eq_iff, readSignedLiteral_eq_iff]
  refine ⟨hdecided, tellsErrors hdecided, ?_⟩
  intro body a hbody hliteral
  obtain ⟨negated, rest, hsign⟩ := exists_hasLiteralSign body
  rw [Int128.ofLiteral, faultText_eq_ok_iff, readSignedLiteral_of_parts hbody hsign] at hliteral
  cases hread : literalMagnitude (utf8 rest) with
  | error cause =>
      rw [hread] at hliteral
      cases hliteral
  | ok m =>
      rw [hread] at hliteral
      have hvalue := hsign.readSigned_eq (literalMagnitude_eq_iff.mp hread) hliteral
      rw [utf8_filter_apostrophes, Int128.ofUnits, hvalue]
      rfl

end TwoLimb.Text
