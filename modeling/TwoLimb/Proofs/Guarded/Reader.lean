/-
# Guarded readers

A text in code units is cut at indexes that were found in it, so every cut lies within it.
A digit is a byte that was compared with the ends of its range before the start of the
range is taken from it. Products and sums of digits are those that are refused when they
do not fit.

A literal is read by index. Its bounds move towards each other and never cross: a quote is
taken from either end only when there are two, the sign when there is a byte, and a base
mark when there are two bytes. Every index between the bounds is one of the literal.
-/

import TwoLimb.Proofs.Guarded.Unsigned
import TwoLimb.Text.Literal

namespace TwoLimb.Guarded

open Text

/-! ### Digits -/

/-- The number that an ASCII digit stands for. -/
def digitValue? (radix : Radix) (byte : UInt8) : Guarded (Option Nat) := do
  let digit? ←
    (if 0x30 ≤ byte ∧ byte ≤ 0x39 then do
      let digit ← difference byte.toNat 0x30
      .ok (some digit)
    else if 0x61 ≤ byte ∧ byte ≤ 0x66 then do
      let digit ← difference byte.toNat 0x61
      let digit ← sum 8 digit 10
      .ok (some digit)
    else if 0x41 ≤ byte ∧ byte ≤ 0x46 then do
      let digit ← difference byte.toNat 0x41
      let digit ← sum 8 digit 10
      .ok (some digit)
    else .ok none)
  .ok (digit?.filter (· < radix.value))

theorem digitValue?_eq (radix : Radix) (byte : UInt8) :
    digitValue? radix byte = .ok (Text.digitValue? radix byte) := by
  have hbyte := byte.toNat_lt
  unfold digitValue? Text.digitValue?
  split
  · rename_i hdecimal
    have hlower : 0x30 ≤ byte.toNat := hdecimal.1
    rw [difference_eq hlower, ok_bind, ok_bind]
  · split
    · rename_i hlowercase
      have hlower : 0x61 ≤ byte.toNat := hlowercase.1
      rw [difference_eq hlower, ok_bind, sum_eq (by omega), ok_bind, ok_bind]
    · split
      · rename_i huppercase
        have hlower : 0x41 ≤ byte.toNat := huppercase.1
        rw [difference_eq hlower, ok_bind, sum_eq (by omega), ok_bind, ok_bind]
      · rfl

section Readers

variable (ops : GuardedOps)

/-- One more digit for a reader. -/
def read (r : DigitReader) (byte : UInt8) : Guarded (Except NumeralError DigitReader) := do
  let digit? ← digitValue? r.radix byte
  match digit? with
  | none => .ok (.error .invalidDigit)
  | some digit =>
      if r.strict && r.radix == .decimal && r.leadingZero && digit != 0 then
        .ok (.error .leadingZero)
      else do
        let shifted? ← mul? ops r.value (.ofNat r.radix.value)
        match shifted? with
        | none => .ok (.error .overflow)
        | some shifted =>
            match shifted.add? (.ofNat digit) with
            | none => .ok (.error .overflow)
            | some value =>
                .ok (.ok { r with
                  value := value
                  started := true
                  leadingZero := r.leadingZero || (!r.started && digit == 0) })

/-! ### Code units -/

section Units

variable {C : Type} [CodeUnit C]

/-- The text from its first unit on that is not of the margin. -/
def dropMargin (units : List C) : Guarded (List C) :=
  sliceFrom units (units.findIdx fun unit => !isMargin unit)

/-- The text up to its last unit that is not of the margin. The index of that unit is
counted from the end. -/
def dropEndMargin (units : List C) : Guarded (List C) := do
  let length ←
    (match units.reverse.findIdx? fun unit => !isMargin unit with
    | none => .ok 0
    | some index => sum 64 (units.length - 1 - index) 1)
  sliceTo units length

def trimMargins (units : List C) : Guarded (List C) := do
  let units ← dropMargin units
  dropEndMargin units

/-- The radix of a text and what follows its base mark. -/
def splitMark (units : List C) : Guarded (Radix × List C) :=
  match units with
  | zero :: mark :: rest =>
      if isAscii zero 0x30 && (isAscii mark 0x78 || isAscii mark 0x58) then do
        let body ← dropMargin rest
        .ok (.hexadecimal, body)
      else .ok (.decimal, units)
  | _ => .ok (.decimal, units)

/-- Take the digits of a text, skipping separators. -/
def scan (r : DigitReader) : List C → Guarded (Except NumeralError DigitReader)
  | [] => .ok (.ok r)
  | unit :: rest =>
      match CodeUnit.toAscii? unit with
      | none => .ok (.error .invalidDigit)
      | some byte =>
          if byte == separator then scan r rest
          else do
            let step ← read ops r byte
            match step with
            | .error cause => .ok (.error cause)
            | .ok next => scan next rest

/-- The number written by a text without sign, and its radix. -/
def readMagnitude (units : List C) : Guarded (Except NumeralError (UInt128 × Radix)) := do
  let units ← dropMargin units
  let (radix, body) ← splitMark units
  let scanned ← scan ops (.lenient radix) body
  match scanned with
  | .error cause => .ok (.error cause)
  | .ok reader =>
      match reader.result (radix == .hexadecimal) with
      | .error cause => .ok (.error cause)
      | .ok value => .ok (.ok (value, radix))

/-- The unsigned value of a text in any encoding. -/
def ofUnits (units : List C) : Guarded (Except ParseError UInt128) := do
  let trimmed ← trimMargins units
  let magnitude ← readMagnitude ops trimmed
  .ok (reportText units (magnitude.map Prod.fst))

/-- The signed value of a text in any encoding. -/
def ofUnitsSigned (units : List C) : Guarded (Except ParseError Int128) := do
  let trimmed ← trimMargins units
  let (sign, rest) := splitSign trimmed
  let magnitude ← readMagnitude ops rest
  match magnitude with
  | .error cause => .ok (reportText units (.error cause))
  | .ok (value, radix) => .ok (reportText units (applySign sign radix value))

end Units

/-! ### Literals -/

/-- The bounds of a literal without the double quotes around it. -/
def unquoted (bytes : List UInt8) : Guarded (Nat × Nat) :=
  let stop := bytes.length
  if 2 ≤ stop then do
    let first ← fetch bytes 0
    if first = 0x22 then
      let final ← difference stop 1
      let last ← fetch bytes final
      .ok (if last = 0x22 then (1, final) else (0, stop))
    else .ok (0, stop)
  else .ok (0, stop)

/-- Whether a base mark stands at an index. -/
def isMarked (bytes : List UInt8) (position stop : Nat) : Guarded Bool := do
  let length ← difference stop position
  if 2 ≤ length then
    let zero ← fetch bytes position
    if zero = 0x30 then
      let next ← sum 64 position 1
      let mark ← fetch bytes next
      .ok (mark == 0x78 || mark == 0x58)
    else .ok false
  else .ok false

/-- Take the digits of the given number of bytes from an index on. -/
def scanLiteral (bytes : List UInt8) :
    (rounds : Nat) → (position : Nat) → DigitReader → Guarded (Except NumeralError DigitReader)
  | 0, _, r => .ok (.ok r)
  | rounds + 1, position, r => do
      let byte ← fetch bytes position
      let next ← sum 64 position 1
      if isGroupMark byte then scanLiteral bytes rounds next r
      else
        let step ← read ops r byte
        match step with
        | .error cause => .ok (.error cause)
        | .ok r => scanLiteral bytes rounds next r

/-- The number that is written between two indexes of a literal. -/
def literalMagnitude (bytes : List UInt8) (position stop : Nat) :
    Guarded (Except NumeralError UInt128) := do
  let marked ← isMarked bytes position stop
  let start ← (if marked then sum 64 position 2 else .ok position)
  let radix : Radix := if marked then .hexadecimal else .decimal
  let scanned ← scanLiteral ops bytes (stop - start) start (.strictly radix)
  match scanned with
  | .error cause => .ok (.error cause)
  | .ok reader => .ok (reader.result (radix == .hexadecimal))

/-- The value of an unsigned literal. -/
def ofLiteral (text : String) : Guarded UInt128 := do
  let bytes := utf8 text.toList
  let (start, stop) ← unquoted bytes
  let magnitude ← literalMagnitude ops bytes start stop
  documented (faultText magnitude)

/-- The index after the spaces among the given number of bytes from an index on. -/
def skipSpaces (bytes : List UInt8) : (rounds : Nat) → (position : Nat) → Guarded Nat
  | 0, position => .ok position
  | rounds + 1, position => do
      let byte ← fetch bytes position
      if byte = 0x20 then
        let next ← sum 64 position 1
        skipSpaces bytes rounds next
      else .ok position

/-- Whether a literal between two indexes is negated, and the index after its sign and
spaces. -/
def literalSign (bytes : List UInt8) (start stop : Nat) : Guarded (Bool × Nat) :=
  if start < stop then do
    let first ← fetch bytes start
    if first = 0x2d then
      let next ← sum 64 start 1
      let start ← skipSpaces bytes (stop - next) next
      .ok (true, start)
    else .ok (false, start)
  else .ok (false, start)

/-- The value of a signed literal. -/
def ofLiteralSigned (text : String) : Guarded Int128 := do
  let bytes := utf8 text.toList
  let (start, stop) ← unquoted bytes
  let (negative, start) ← literalSign bytes start stop
  let magnitude ← literalMagnitude ops bytes start stop
  match magnitude with
  | .error cause => documented (faultText (.error cause))
  | .ok value =>
      let limit := Int128.min.bits
      documented (faultText
        (if negative then
          if value.isGreaterThan limit then .error .overflow else .ok ⟨-value⟩
        else if value.isLessThan limit then .ok ⟨value⟩
        else .error .overflow))

end Readers

/-! ### Cuts within a text -/

section Cuts

variable {C : Type} [CodeUnit C]

@[simp]
theorem dropMargin_eq (units : List C) : dropMargin units = .ok (Text.dropMargin units) := by
  rw [dropMargin, sliceFrom_eq List.findIdx_le_length, Text.dropMargin,
    List.dropWhile_eq_drop_findIdx_not]

theorem dropEndMargin_eq {units : List C} (hunits : units.length < 2 ^ 64) :
    dropEndMargin units = .ok (Text.dropEndMargin units) := by
  have hcut : Text.dropEndMargin units =
      units.take (units.length - units.reverse.findIdx fun unit => !isMargin unit) := by
    rw [Text.dropEndMargin, List.dropWhile_eq_drop_findIdx_not, List.reverse_drop,
      List.reverse_reverse, List.length_reverse]
  unfold dropEndMargin
  split
  · rename_i hnone
    rw [List.findIdx?_eq_none_iff_findIdx_eq, List.length_reverse] at hnone
    rw [ok_bind, sliceTo_eq (Nat.zero_le _), hcut, hnone, Nat.sub_self]
  · rename_i index hindex
    obtain ⟨hlt, hindex⟩ := List.findIdx?_eq_some_iff_findIdx_eq.mp hindex
    rw [List.length_reverse] at hlt
    have hlength : units.length - 1 - index + 1 = units.length - index := by omega
    rw [sum_eq (by omega), ok_bind, hlength, sliceTo_eq (Nat.sub_le _ _), hcut, hindex]

theorem trimMargins_eq {units : List C} (hunits : units.length < 2 ^ 64) :
    trimMargins units = .ok (Text.trimMargins units) := by
  have hlength : (Text.dropMargin units).length ≤ units.length :=
    (List.dropWhile_sublist isMargin).length_le
  rw [trimMargins, dropMargin_eq, ok_bind, dropEndMargin_eq (by omega)]
  rfl

@[simp]
theorem splitMark_eq (units : List C) : splitMark units = .ok (Text.splitMark units) := by
  match units with
  | [] => rfl
  | [_] => rfl
  | zero :: mark :: rest =>
      rw [splitMark, dropMargin_eq, ok_bind]
      exact ite_ok rfl rfl

end Cuts

section Sound

variable {ops : GuardedOps} (hops : ops.Sound)

include hops

theorem read_eq (r : DigitReader) (byte : UInt8) : read ops r byte = .ok (r.read byte) := by
  unfold read DigitReader.read
  rw [digitValue?_eq, ok_bind]
  cases Text.digitValue? r.radix byte with
  | none => rfl
  | some digit =>
      simp only
      rw [mul?_eq hops, ok_bind]
      split
      · rfl
      · cases r.value.mul? (.ofNat r.radix.value) with
        | none => rfl
        | some shifted =>
            simp only
            cases shifted.add? (.ofNat digit) <;> rfl

section Units

variable {C : Type} [CodeUnit C]

theorem scan_eq (r : DigitReader) (units : List C) :
    scan ops r units = .ok (Text.scan r units) := by
  fun_induction Text.scan r units with
  | case1 r => rfl
  | case2 r unit rest hascii => simp only [scan, hascii]
  | case3 r unit rest byte hascii hseparator ih => simp only [scan, hascii, hseparator, ih, if_true]
  | case4 r unit rest byte hascii hseparator cause hread =>
      simp only [scan, hascii, if_neg hseparator, read_eq hops, ok_bind, hread]
  | case5 r unit rest byte hascii hseparator next hread ih =>
      simp only [scan, hascii, if_neg hseparator, read_eq hops, ok_bind, hread, ih]

theorem readMagnitude_eq (units : List C) :
    readMagnitude ops units = .ok (Text.readMagnitude units) := by
  rw [readMagnitude, dropMargin_eq, ok_bind, splitMark_eq, ok_bind, Text.readMagnitude]
  simp only
  rw [scan_eq hops, ok_bind]
  cases Text.scan _ (Text.splitMark (Text.dropMargin units)).2 with
  | error cause => rfl
  | ok reader =>
      simp only
      cases reader.result _ <;> rfl

theorem ofUnits_eq {units : List C} (hunits : units.length < 2 ^ 64) :
    ofUnits ops units = .ok (UInt128.ofUnits units) := by
  rw [ofUnits, trimMargins_eq hunits, ok_bind, readMagnitude_eq hops, ok_bind, UInt128.ofUnits,
    readUnsigned]
  cases Text.readMagnitude (Text.trimMargins units) <;> rfl

theorem ofUnitsSigned_eq {units : List C} (hunits : units.length < 2 ^ 64) :
    ofUnitsSigned ops units = .ok (Int128.ofUnits units) := by
  rw [ofUnitsSigned, trimMargins_eq hunits, ok_bind, Int128.ofUnits, readSigned]
  simp only
  rw [readMagnitude_eq hops, ok_bind]
  cases Text.readMagnitude (splitSign (Text.trimMargins units)).2 <;> rfl

end Units

end Sound

/-! ### Indexes within a literal -/

/-- The bytes between two indexes. -/
def between (bytes : List UInt8) (position stop : Nat) : List UInt8 :=
  (bytes.drop position).take (stop - position)

theorem between_eq_nil {bytes : List UInt8} {position stop : Nat} (hstop : stop ≤ position) :
    between bytes position stop = [] := by
  rw [between, Nat.sub_eq_zero_of_le hstop, List.take_zero]

theorem between_eq_cons {bytes : List UInt8} {position stop : Nat} (hposition : position < stop)
    (hstop : stop ≤ bytes.length) :
    ∃ byte, fetch bytes position = .ok byte ∧
      between bytes position stop = byte :: between bytes (position + 1) stop := by
  have hlt : position < bytes.length := Nat.lt_of_lt_of_le hposition hstop
  have hcount : stop - position = stop - (position + 1) + 1 := by omega
  refine ⟨bytes[position], fetch_eq (List.getElem?_eq_getElem hlt), ?_⟩
  rw [between, List.drop_eq_getElem_cons hlt, hcount, List.take_succ_cons]
  rfl

theorem withoutQuotes_cons (first : UInt8) (rest : List UInt8) :
    withoutQuotes (first :: rest) =
      if first = 0x22 ∧ rest.getLast? = some 0x22 then rest.dropLast else first :: rest := by
  unfold withoutQuotes
  split
  · rename_i tail hcons
    cases hcons
    simp only [true_and]
  · rename_i hother
    rw [if_neg fun hquotes => hother rest (congrArg (· :: rest) hquotes.1)]

theorem unquoted_cons_cons (first second : UInt8) (rest : List UInt8) :
    unquoted (first :: second :: rest) =
      .ok (if first = 0x22 ∧ (second :: rest).getLast? = some 0x22 then (1, rest.length + 1)
        else (0, rest.length + 2)) := by
  obtain ⟨last, hlast⟩ : ∃ last, (second :: rest).getLast? = some last :=
    ⟨_, List.getLast?_eq_some_getLast (List.cons_ne_nil second rest)⟩
  have hfirst : fetch (first :: second :: rest) 0 = .ok first := rfl
  have hfetch : fetch (first :: second :: rest) (rest.length + 2 - 1) = .ok last := by
    refine fetch_eq (Eq.trans ?_ hlast)
    rw [List.getLast?_eq_getElem?]
    rfl
  have hlength : (first :: second :: rest).length = rest.length + 2 := rfl
  have hpair : 2 ≤ rest.length + 2 := Nat.le_add_left 2 _
  unfold unquoted
  simp only [hlength, if_pos hpair, hfirst, ok_bind, hlast, Option.some_inj]
  by_cases hopening : first = 0x22
  · rw [if_pos hopening, difference_eq (by omega), ok_bind, hfetch, ok_bind]
    simp only [hopening, true_and]
    rfl
  · rw [if_neg hopening, if_neg fun hquotes => hopening hquotes.1]

/-- Between the bounds of a literal is what its quotes enclose. -/
theorem unquoted_eq (bytes : List UInt8) :
    ∃ start stop, unquoted bytes = .ok (start, stop) ∧ start ≤ stop ∧ stop ≤ bytes.length ∧
      between bytes start stop = withoutQuotes bytes := by
  have hwhole : between bytes 0 bytes.length = bytes := List.take_length
  match bytes with
  | [] => exact ⟨0, 0, rfl, Nat.le_refl 0, Nat.le_refl 0, rfl⟩
  | [byte] =>
      refine ⟨0, 1, rfl, Nat.zero_le 1, Nat.le_refl 1, ?_⟩
      rw [withoutQuotes_cons, if_neg fun hquotes => nomatch hquotes.2]
      rfl
  | first :: second :: rest =>
      rw [unquoted_cons_cons, withoutQuotes_cons]
      split
      · refine ⟨1, rest.length + 1, rfl, Nat.le_add_left 1 _, Nat.le_succ _, ?_⟩
        rw [List.dropLast_eq_take]
        rfl
      · exact ⟨0, rest.length + 2, rfl, Nat.zero_le _, Nat.le_refl _, hwhole⟩

theorem splitLiteralMark_cons_cons (zero mark : UInt8) (rest : List UInt8) :
    splitLiteralMark (zero :: mark :: rest) =
      if zero = 0x30 ∧ (mark == 0x78 || mark == 0x58) = true then (.hexadecimal, rest)
      else (.decimal, zero :: mark :: rest) := by
  unfold splitLiteralMark
  split
  · rename_i tail hcons
    cases hcons
    simp only [true_and]
  · rename_i hother
    rw [if_neg fun hmark => hother mark rest (congrArg (· :: mark :: rest) hmark.1)]

/-- A base mark is found where the bytes start with one. -/
theorem isMarked_eq {bytes : List UInt8} {position stop : Nat} (hposition : position ≤ stop)
    (hstop : stop ≤ bytes.length) (hbytes : bytes.length < 2 ^ 64) :
    ∃ marked start, isMarked bytes position stop = .ok marked ∧
      (if marked then sum 64 position 2 else .ok position) = .ok start ∧ start ≤ stop ∧
      splitLiteralMark (between bytes position stop) =
        (if marked then .hexadecimal else .decimal, between bytes start stop) := by
  unfold isMarked
  rw [difference_eq hposition, ok_bind]
  by_cases hpair : 2 ≤ stop - position
  · obtain ⟨zero, hzero, hfirst⟩ := between_eq_cons (show position < stop by omega) hstop
    obtain ⟨mark, hmark, hsecond⟩ := between_eq_cons (show position + 1 < stop by omega) hstop
    rw [if_pos hpair, hzero, ok_bind, hfirst, hsecond, splitLiteralMark_cons_cons, ← hsecond,
      ← hfirst]
    by_cases hdigit : zero = 0x30
    · rw [if_pos hdigit, sum_eq (by omega), ok_bind, hmark, ok_bind]
      by_cases hmarked : (mark == 0x78 || mark == 0x58) = true
      · refine ⟨true, position + 2, congrArg Except.ok hmarked, sum_eq (by omega), by omega, ?_⟩
        rw [if_pos ⟨hdigit, hmarked⟩]
        rfl
      · refine ⟨false, position, congrArg Except.ok (Bool.eq_false_iff.mpr hmarked), rfl,
          hposition, ?_⟩
        rw [if_neg fun h => hmarked h.2]
        rfl
    · refine ⟨false, position, if_neg hdigit, rfl, hposition, ?_⟩
      rw [if_neg fun h => hdigit h.1]
      rfl
  · refine ⟨false, position, if_neg hpair, rfl, hposition, ?_⟩
    have hlength : (between bytes position stop).length < 2 :=
      Nat.lt_of_le_of_lt (List.length_take_le _ _) (Nat.lt_of_not_le hpair)
    match between bytes position stop, hlength with
    | [], _ => rfl
    | [byte], _ =>
        unfold splitLiteralMark
        split
        · rename_i hcons
          nomatch hcons
        · rfl

/-- The spaces after a sign are skipped within the literal. -/
theorem skipSpaces_eq {bytes : List UInt8} (hbytes : bytes.length < 2 ^ 64)
    {rounds position stop : Nat} (hrounds : position + rounds = stop)
    (hstop : stop ≤ bytes.length) :
    ∃ start, skipSpaces bytes rounds position = .ok start ∧ start ≤ stop ∧
      between bytes start stop = (between bytes position stop).dropWhile (· == 0x20) := by
  induction rounds generalizing position with
  | zero =>
      have hend : stop ≤ position := Nat.le_of_eq hrounds.symm
      refine ⟨position, rfl, Nat.le_of_eq hrounds, ?_⟩
      rw [between_eq_nil hend]
      rfl
  | succ rounds ih =>
      obtain ⟨byte, hbyte, hbetween⟩ := between_eq_cons (show position < stop by omega) hstop
      rw [skipSpaces, hbyte, ok_bind, hbetween]
      by_cases hspace : byte = 0x20
      · have hnext : position + 1 + rounds = stop := by omega
        obtain ⟨start, hskip, hle, hrest⟩ := ih hnext
        refine ⟨start, ?_, hle, ?_⟩
        · rw [if_pos hspace, sum_eq (by omega), ok_bind, hskip]
        · rw [hrest, List.dropWhile_cons, if_pos (beq_iff_eq.mpr hspace)]
      · refine ⟨position, if_neg hspace, by omega, ?_⟩
        rw [hbetween, List.dropWhile_cons, if_neg fun h => hspace (beq_iff_eq.mp h)]

theorem splitLiteralSign_cons (first : UInt8) (rest : List UInt8) :
    splitLiteralSign (first :: rest) =
      if first = 0x2d then (true, rest.dropWhile (· == 0x20)) else (false, first :: rest) := by
  unfold splitLiteralSign
  split
  · rename_i tail hcons
    cases hcons
    rw [if_pos rfl]
  · rename_i hother
    rw [if_neg fun hminus => hother rest (congrArg (· :: rest) hminus)]

/-- After the sign of a literal and its spaces comes what is read as a magnitude. -/
theorem literalSign_eq {bytes : List UInt8} (hbytes : bytes.length < 2 ^ 64) {start stop : Nat}
    (hstart : start ≤ stop) (hstop : stop ≤ bytes.length) :
    ∃ negative next, literalSign bytes start stop = .ok (negative, next) ∧ next ≤ stop ∧
      splitLiteralSign (between bytes start stop) = (negative, between bytes next stop) := by
  unfold literalSign
  by_cases hlt : start < stop
  · obtain ⟨first, hfirst, hbetween⟩ := between_eq_cons hlt hstop
    rw [if_pos hlt, hfirst, ok_bind, hbetween, splitLiteralSign_cons, ← hbetween]
    by_cases hminus : first = 0x2d
    · have hrounds : start + 1 + (stop - (start + 1)) = stop := Nat.add_sub_cancel' hlt
      obtain ⟨next, hskip, hle, hrest⟩ := skipSpaces_eq hbytes hrounds hstop
      refine ⟨true, next, ?_, hle, ?_⟩
      · rw [if_pos hminus, sum_eq (by omega), ok_bind, hskip, ok_bind]
      · rw [if_pos hminus, hrest]
    · exact ⟨false, start, if_neg hminus, hstart, if_neg hminus⟩
  · refine ⟨false, start, if_neg hlt, hstart, ?_⟩
    rw [between_eq_nil (Nat.le_of_not_lt hlt)]
    rfl

section Literals

variable {ops : GuardedOps} (hops : ops.Sound)

include hops

theorem scanLiteral_eq {bytes : List UInt8} (hbytes : bytes.length < 2 ^ 64)
    {rounds position stop : Nat} (hrounds : position + rounds = stop)
    (hstop : stop ≤ bytes.length) (r : DigitReader) :
    scanLiteral ops bytes rounds position r =
      .ok (Text.scanLiteral r (between bytes position stop)) := by
  induction rounds generalizing position r with
  | zero =>
      have hend : stop ≤ position := Nat.le_of_eq hrounds.symm
      rw [between_eq_nil hend]
      rfl
  | succ rounds ih =>
      obtain ⟨byte, hbyte, hbetween⟩ := between_eq_cons (show position < stop by omega) hstop
      rw [scanLiteral, hbyte, ok_bind, sum_eq (by omega), ok_bind, read_eq hops, ok_bind,
        hbetween, Text.scanLiteral]
      split
      · exact ih (by omega) r
      · cases r.read byte with
        | error cause => rfl
        | ok next => exact ih (by omega) next

theorem literalMagnitude_eq {bytes : List UInt8} (hbytes : bytes.length < 2 ^ 64)
    {position stop : Nat} (hposition : position ≤ stop) (hstop : stop ≤ bytes.length) :
    literalMagnitude ops bytes position stop =
      .ok (Text.literalMagnitude (between bytes position stop)) := by
  obtain ⟨marked, start, hmarked, hstart, hle, hsplit⟩ := isMarked_eq hposition hstop hbytes
  have hrounds : start + (stop - start) = stop := Nat.add_sub_cancel' hle
  rw [literalMagnitude, hmarked, ok_bind, hstart, ok_bind, Text.literalMagnitude, hsplit]
  simp only
  rw [scanLiteral_eq hops hbytes hrounds hstop, ok_bind]
  cases Text.scanLiteral _ (between bytes start stop) <;> rfl

theorem ofLiteral_eq {text : String} (htext : (utf8 text.toList).length < 2 ^ 64) :
    ofLiteral ops text = documented (UInt128.ofLiteral text) := by
  obtain ⟨start, stop, hbounds, hle, hstop, hbetween⟩ := unquoted_eq (utf8 text.toList)
  unfold ofLiteral
  simp only
  rw [hbounds, ok_bind]
  simp only
  rw [literalMagnitude_eq hops htext hle hstop, ok_bind, hbetween]
  rfl

theorem ofLiteralSigned_eq {text : String} (htext : (utf8 text.toList).length < 2 ^ 64) :
    ofLiteralSigned ops text = documented (Int128.ofLiteral text) := by
  obtain ⟨start, stop, hbounds, hle, hstop, hbetween⟩ := unquoted_eq (utf8 text.toList)
  obtain ⟨negative, next, hsign, hnext, hsplit⟩ := literalSign_eq htext hle hstop
  rw [hbetween] at hsplit
  unfold ofLiteralSigned Int128.ofLiteral readSignedLiteral
  simp only
  rw [hbounds, ok_bind]
  simp only
  rw [hsign, ok_bind]
  simp only
  rw [literalMagnitude_eq hops htext hnext hstop, ok_bind, hsplit]
  simp only
  cases Text.literalMagnitude (between (utf8 text.toList) next stop) <;> rfl

end Literals

end TwoLimb.Guarded
