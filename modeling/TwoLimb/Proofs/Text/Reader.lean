/-
# What readers make of digits

A reader multiplies and adds in 128 bits and refuses what no longer fits, so while it
goes on it holds the exact number that the digits up to there write. `numberAfter?` is
that number without any bound. Whitespace and separators around a text are a margin,
and a margin is never part of what is read.
-/

import Mathlib.Data.List.DropRight
import TwoLimb.Proofs.Text.Numeral
import TwoLimb.Text.Reader

namespace TwoLimb.Text

section Digits

variable {radix : Radix} {byte : UInt8} {digit : Nat}

theorem digitValue?_digitByte (radix : Radix) (uppercase : Bool) :
    ∀ digit < radix.value,
      digitValue? radix (digitByte uppercase digit) = some digit := by
  cases radix <;> cases uppercase <;> decide

theorem digitValue?_zeroDigit (radix : Radix) : digitValue? radix zeroDigit = some 0 := by
  cases radix <;> rfl

theorem digitByte_lt (radix : Radix) (uppercase : Bool) :
    ∀ digit < radix.value, digitByte uppercase digit < 0x80 := by
  cases radix <;> cases uppercase <;> decide

theorem digit_lt_radix (hdigit : digitValue? radix byte = some digit) :
    digit < radix.value := by
  have hfilter := (Option.filter_eq_some_iff.mp hdigit).2
  exact of_decide_eq_true hfilter

/-- A byte that no radix has for a digit is no digit. -/
theorem ne_of_digitValue? {other : UInt8} (hdigit : digitValue? radix byte = some digit)
    (hother : digitValue? .hexadecimal other = none) : byte ≠ other := by
  rintro rfl
  obtain ⟨hvalue, hlt⟩ := Option.filter_eq_some_iff.mp hdigit
  have hsixteen : digit < Radix.value .hexadecimal := by
    have hradix := radix.value_le_sixteen
    exact Nat.lt_of_lt_of_le (of_decide_eq_true hlt) hradix
  have hsome : digitValue? .hexadecimal byte = some digit :=
    Option.filter_eq_some_iff.mpr ⟨hvalue, decide_eq_true hsixteen⟩
  rw [hother] at hsome
  cases hsome

end Digits

variable {C : Type} [CodeUnit C]

/-- A unit that is an ASCII digit of a radix. -/
def IsDigit (radix : Radix) (unit : C) : Prop :=
  ∃ byte digit, CodeUnit.toAscii? unit = some byte ∧ digitValue? radix byte = some digit

/-- The number that units write after digits that write `value`; none if a unit is
neither a digit nor a separator. -/
def numberAfter? (radix : Radix) (value : Nat) : List C → Option Nat
  | [] => some value
  | unit :: rest =>
      match CodeUnit.toAscii? unit with
      | none => none
      | some byte =>
          if byte == separator then numberAfter? radix value rest
          else
            match digitValue? radix byte with
            | none => none
            | some digit => numberAfter? radix (value * radix.value + digit) rest

theorem isAscii_eq_false {radix : Radix} {unit : C} {other : UInt8}
    (hdigit : IsDigit radix unit) (hother : digitValue? .hexadecimal other = none) :
    isAscii unit other = false := by
  obtain ⟨byte, digit, hascii, hvalue⟩ := hdigit
  rw [isAscii, hascii]
  apply beq_false_of_ne
  intro hbyte
  exact ne_of_digitValue? hvalue hother (Option.some.inj hbyte)

theorem numberAfter?_cons_digit {radix : Radix} {unit : C} {byte : UInt8} {digit : Nat}
    (hascii : CodeUnit.toAscii? unit = some byte)
    (hdigit : digitValue? radix byte = some digit) (value : Nat) (rest : List C) :
    numberAfter? radix value (unit :: rest) =
      numberAfter? radix (value * radix.value + digit) rest := by
  have hseparator : (byte == separator) = false :=
    beq_false_of_ne (ne_of_digitValue? hdigit (by decide))
  rw [numberAfter?, hascii]
  simp only [hseparator, hdigit]
  rfl

theorem numberAfter?_append (radix : Radix) (value : Nat) (front back : List C) :
    numberAfter? radix value (front ++ back) =
      (numberAfter? radix value front).bind fun next => numberAfter? radix next back := by
  induction front generalizing value with
  | nil => rfl
  | cons unit rest ih =>
      rw [List.cons_append, numberAfter?, numberAfter?]
      cases CodeUnit.toAscii? unit with
      | none => rfl
      | some byte =>
          by_cases hseparator : (byte == separator) = true
          · simp only [hseparator, if_true]
            exact ih value
          · simp only [hseparator]
            cases digitValue? radix byte with
            | none => rfl
            | some digit => exact ih _

theorem le_of_numberAfter? {radix : Radix} {value n : Nat} {units : List C}
    (hnumber : numberAfter? radix value units = some n) : value ≤ n := by
  have hradix : 1 ≤ radix.value := Nat.le_of_lt radix.one_lt_value
  fun_induction numberAfter? radix value units with
  | case1 value => exact Nat.le_of_eq (Option.some.inj hnumber)
  | case2 => cases hnumber
  | case3 value unit rest byte hascii hseparator ih => exact ih hnumber
  | case4 => cases hnumber
  | case5 value unit rest byte hascii hseparator digit hdigit ih =>
      calc
        value ≤ value * radix.value := Nat.le_mul_of_pos_right _ hradix
        _ ≤ value * radix.value + digit := Nat.le_add_right _ _
        _ ≤ n := ih hnumber

/-- The reader after one more digit that makes the number `value`. -/
def DigitReader.extend (r : DigitReader) (digit : Nat) (value : UInt128) : DigitReader :=
  { r with
    value := value
    started := true
    leadingZero := r.leadingZero || (!r.started && digit == 0) }

/-- Whether a reader refuses a digit because a decimal number has a zero in front. -/
def DigitReader.refuses (r : DigitReader) (digit : Nat) : Bool :=
  r.strict && r.radix == .decimal && r.leadingZero && digit != 0

/-- A reader that takes leading zeros as they come refuses no digit for them. -/
theorem DigitReader.refuses_of_lenient {r : DigitReader} (hlenient : r.strict = false)
    (digit : Nat) : r.refuses digit = false := by
  rw [refuses, hlenient]
  rfl

theorem DigitReader.read_of_refuses {r : DigitReader} {byte : UInt8} {digit : Nat}
    (hdigit : digitValue? r.radix byte = some digit) (hrefuses : r.refuses digit = true) :
    r.read byte = .error .leadingZero := by
  rw [refuses] at hrefuses
  rw [read, hdigit]
  exact if_pos hrefuses

/-- A digit multiplies and adds, and what does not fit is refused. -/
theorem DigitReader.read_of_digit {r : DigitReader} {byte : UInt8} {digit : Nat}
    (hdigit : digitValue? r.radix byte = some digit) (hadmits : r.refuses digit = false) :
    r.read byte =
      match (r.value.mul? (.ofNat r.radix.value)).bind fun product =>
          product.add? (.ofNat digit) with
      | none => .error .overflow
      | some value => .ok (r.extend digit value) := by
  rw [refuses] at hadmits
  rw [read, hdigit]
  simp only [hadmits, Bool.false_eq_true, if_false, extend]
  cases r.value.mul? (.ofNat r.radix.value) with
  | none => rfl
  | some product => cases product.add? (.ofNat digit) <;> rfl

/-- Apart from leading zeros a reader refuses a digit only when the number does not fit. -/
theorem DigitReader.read_eq {r : DigitReader} {byte : UInt8} {digit : Nat}
    (hdigit : digitValue? r.radix byte = some digit) (hadmits : r.refuses digit = false) :
    r.read byte =
      if r.value.toNat * r.radix.value + digit < 2 ^ 128 then
        .ok (r.extend digit (.ofNat (r.value.toNat * r.radix.value + digit)))
      else .error .overflow := by
  have hradix := r.radix.value_le_sixteen
  have hlt := digit_lt_radix hdigit
  have hvalue : (UInt128.ofNat r.radix.value).toNat = r.radix.value := by
    rw [UInt128.toNat_ofNat, Nat.mod_eq_of_lt (by omega)]
  have hnumber : (UInt128.ofNat digit).toNat = digit := by
    rw [UInt128.toNat_ofNat, Nat.mod_eq_of_lt (by omega)]
  rw [read_of_digit hdigit hadmits, UInt128.mul?_bind_add?_eq, hvalue, hnumber]
  by_cases hfits : r.value.toNat * r.radix.value + digit < 2 ^ 128
  · rw [if_pos hfits, if_pos hfits]
  · rw [if_neg hfits, if_neg hfits]

theorem DigitReader.read_of_fits {r : DigitReader} {byte : UInt8} {digit : Nat}
    (hdigit : digitValue? r.radix byte = some digit) (hadmits : r.refuses digit = false)
    (hfits : r.value.toNat * r.radix.value + digit < 2 ^ 128) :
    ∃ value, r.read byte = .ok (r.extend digit value) ∧
      value.toNat = r.value.toNat * r.radix.value + digit := by
  refine ⟨.ofNat (r.value.toNat * r.radix.value + digit), ?_, ?_⟩
  · rw [read_eq hdigit hadmits, if_pos hfits]
  · rw [UInt128.toNat_ofNat, Nat.mod_eq_of_lt hfits]

/-- Units that write a number which fits are read as that number. -/
theorem scan_of_fits {r : DigitReader} (hlenient : r.strict = false) {units : List C} {n : Nat}
    (hnumber : numberAfter? r.radix r.value.toNat units = some n) (hfits : n < 2 ^ 128) :
    ∃ next, scan r units = .ok next ∧ next.value.toNat = n ∧
      next.started = (r.started || units.any fun unit => !isAscii unit separator) := by
  induction units generalizing r with
  | nil => exact ⟨r, rfl, Option.some.inj hnumber, (Bool.or_false _).symm⟩
  | cons unit rest ih =>
      rw [numberAfter?] at hnumber
      rw [scan, List.any_cons, isAscii]
      cases hascii : CodeUnit.toAscii? unit with
      | none =>
          rw [hascii] at hnumber
          cases hnumber
      | some byte =>
          simp only [hascii] at hnumber ⊢
          by_cases hseparator : (byte == separator) = true
          · have hskip : (some byte == some separator) = true := hseparator
            simp only [hseparator, if_true] at hnumber ⊢
            rw [hskip, Bool.not_true, Bool.false_or]
            exact ih hlenient hnumber
          · have htake : (some byte == some separator) = false :=
              Bool.eq_false_iff.mpr hseparator
            simp only [hseparator, Bool.false_eq_true, if_false] at hnumber ⊢
            cases hdigit : digitValue? r.radix byte with
            | none =>
                rw [hdigit] at hnumber
                cases hnumber
            | some digit =>
                simp only [hdigit] at hnumber
                have hlt := Nat.lt_of_le_of_lt (le_of_numberAfter? hnumber) hfits
                obtain ⟨value, hread, hvalue⟩ :=
                  DigitReader.read_of_fits hdigit (DigitReader.refuses_of_lenient hlenient _) hlt
                rw [← hvalue] at hnumber
                obtain ⟨last, hscan, hlast, hstarted⟩ :=
                  @ih (r.extend digit value) hlenient hnumber
                rw [hread, htake, Bool.not_false, Bool.true_or, Bool.or_true]
                exact ⟨last, hscan, hlast, hstarted⟩

/-- Units that write the number `n`: at least one digit, and nothing but digits. -/
structure IsNumeral (radix : Radix) (units : List C) (n : Nat) : Prop where
  nonempty : units ≠ []
  digit : ∀ unit ∈ units, IsDigit radix unit
  number : numberAfter? radix 0 units = some n

namespace IsNumeral

variable {radix : Radix} {units : List C} {n : Nat}

theorem scan (hnumeral : IsNumeral radix units n) (hfits : n < 2 ^ 128) :
    ∃ next, Text.scan (.lenient radix) units = .ok next ∧ next.value.toNat = n ∧
      next.started = true := by
  have hnumber := hnumeral.number
  rw [← UInt128.toNat_zero] at hnumber
  obtain ⟨next, hscan, hvalue, hstarted⟩ :=
    @scan_of_fits C _ (.lenient radix) rfl units n hnumber hfits
  refine ⟨next, hscan, hvalue, hstarted.trans ?_⟩
  obtain ⟨unit, rest, hunits⟩ := List.exists_cons_of_ne_nil hnumeral.nonempty
  have hunit : IsDigit radix unit := hnumeral.digit unit (by rw [hunits]; exact List.mem_cons_self)
  rw [hunits, List.any_cons, isAscii_eq_false hunit (by decide), Bool.not_false,
    Bool.true_or, Bool.or_true]

/-- One more digit at the end. -/
theorem concat {byte : UInt8} {digit : Nat} (hnumber : numberAfter? radix 0 units = some n)
    (hdigits : ∀ unit ∈ units, IsDigit radix unit) (hascii : byte < 0x80)
    (hdigit : digitValue? radix byte = some digit) :
    IsNumeral radix (units ++ [CodeUnit.ofAscii byte]) (n * radix.value + digit) := by
  have hunit := @CodeUnit.toAscii?_ofAscii C _ byte hascii
  refine ⟨List.append_ne_nil_of_right_ne_nil _ (List.cons_ne_nil _ _), ?_, ?_⟩
  · intro unit hmem
    rcases List.mem_append.mp hmem with hmem | hmem
    · exact hdigits unit hmem
    · rw [List.mem_singleton.mp hmem]
      exact ⟨byte, digit, hunit, hdigit⟩
  · rw [numberAfter?_append, hnumber, Option.bind_some, numberAfter?_cons_digit hunit hdigit]
    rfl

/-- Zeros in front of a numeral change nothing. -/
theorem zeros (hnumeral : IsNumeral radix units n) (count : Nat) :
    IsNumeral radix (List.replicate count (CodeUnit.ofAscii zeroDigit) ++ units) n := by
  have hunit : CodeUnit.toAscii? (CodeUnit.ofAscii zeroDigit : C) = some zeroDigit :=
    CodeUnit.toAscii?_ofAscii (by decide)
  have hdigit := digitValue?_zeroDigit radix
  induction count with
  | zero => exact hnumeral
  | succ count ih =>
      rw [List.replicate_succ, List.cons_append]
      refine ⟨List.cons_ne_nil _ _, ?_, ?_⟩
      · intro unit hmem
        rcases List.mem_cons.mp hmem with hmem | hmem
        · rw [hmem]
          exact ⟨zeroDigit, 0, hunit, hdigit⟩
        · exact ih.digit unit hmem
      · rw [numberAfter?_cons_digit hunit hdigit, Nat.zero_mul]
        exact ih.number

end IsNumeral

/-- The numeral of a number other than zero writes that number. -/
theorem isNumeral_numeral (radix : Radix) (uppercase : Bool) {n : Nat} (hn : n ≠ 0) :
    IsNumeral radix ((numeral uppercase radix.value n).map CodeUnit.ofAscii : List C) n := by
  have hradix := radix.one_lt_value
  induction n using Nat.strong_induction_on with
  | _ n ih =>
      have hlt := Nat.mod_lt n (Nat.lt_trans Nat.zero_lt_one hradix)
      have hascii := digitByte_lt radix uppercase _ hlt
      have hdigit := digitValue?_digitByte radix uppercase _ hlt
      rw [numeral_of_ne_zero hradix hn, List.map_append, List.map_singleton]
      have hn' : n / radix.value * radix.value + n % radix.value = n := Nat.div_add_mod' n _
      by_cases hhigh : n / radix.value = 0
      · have hfirst := @IsNumeral.concat C _ radix [] 0 _ _ rfl (fun _ hmem => by cases hmem)
          hascii hdigit
        rw [hhigh, numeral_zero]
        rw [hhigh] at hn'
        rw [hn'] at hfirst
        exact hfirst
      · have hfront := ih _ (Nat.div_lt_self (Nat.pos_of_ne_zero hn) hradix) hhigh
        have hwhole := IsNumeral.concat hfront.number hfront.digit hascii hdigit
        rw [hn'] at hwhole
        exact hwhole

/-- The digits of a value write that value. -/
theorem isNumeral_digits (a : UInt128) (radix : Radix) (uppercase : Bool) :
    IsNumeral radix ((digits a radix uppercase).map CodeUnit.ofAscii : List C) a.toNat := by
  by_cases ha : a = .zero
  · have hzero := @IsNumeral.concat C _ radix [] 0 zeroDigit 0 rfl
      (fun _ hmem => by cases hmem) (by decide) (digitValue?_zeroDigit radix)
    rw [Nat.zero_mul] at hzero
    rw [ha, UInt128.toNat_zero]
    exact hzero
  · rw [digits_eq radix ha]
    exact isNumeral_numeral radix uppercase (UInt128.toNat_ne_zero ha)

section Margins

theorem isMargin_eq_false {radix : Radix} {unit : C} (hdigit : IsDigit radix unit) :
    isMargin unit = false := by
  obtain ⟨byte, digit, hascii, hvalue⟩ := hdigit
  have hne {other : UInt8} (hother : digitValue? .hexadecimal other = none) :
      (byte == other) = false :=
    beq_false_of_ne (ne_of_digitValue? hvalue hother)
  rw [isMargin, hascii]
  simp only [isBlank, hne (show digitValue? .hexadecimal 0x20 = none by decide),
    hne (show digitValue? .hexadecimal 0x09 = none by decide),
    hne (show digitValue? .hexadecimal 0x0a = none by decide),
    hne (show digitValue? .hexadecimal 0x0c = none by decide),
    hne (show digitValue? .hexadecimal 0x0d = none by decide),
    hne (show digitValue? .hexadecimal separator = none by decide), Bool.or_false]

theorem dropMargin_append {front : List C} (hfront : ∀ unit ∈ front, isMargin unit = true)
    (units : List C) : dropMargin (front ++ units) = dropMargin units :=
  List.dropWhile_append_of_pos hfront

theorem dropMargin_cons {unit : C} (hunit : isMargin unit = false) (rest : List C) :
    dropMargin (unit :: rest) = unit :: rest :=
  List.dropWhile_cons_of_neg (Bool.eq_false_iff.mp hunit)

theorem dropEndMargin_append {back : List C} (hback : ∀ unit ∈ back, isMargin unit = true)
    (units : List C) : dropEndMargin (units ++ back) = dropEndMargin units := by
  have hreverse : ∀ unit ∈ back.reverse, isMargin unit = true := fun unit hmem =>
    hback unit (List.mem_reverse.mp hmem)
  rw [dropEndMargin, dropEndMargin, List.reverse_append,
    List.dropWhile_append_of_pos hreverse]

theorem dropEndMargin_concat {unit : C} (hunit : isMargin unit = false) (units : List C) :
    dropEndMargin (units ++ [unit]) = units ++ [unit] :=
  List.rdropWhile_concat_neg isMargin units unit (Bool.eq_false_iff.mp hunit)

theorem dropEndMargin_cons {unit : C} (hunit : isMargin unit = false) (rest : List C) :
    dropEndMargin (unit :: rest) = unit :: dropEndMargin rest := by
  have hlast : [unit].dropWhile isMargin = [unit] :=
    List.dropWhile_cons_of_neg (Bool.eq_false_iff.mp hunit)
  rw [dropEndMargin, List.reverse_cons, List.dropWhile_append, hlast]
  cases hdrop : rest.reverse.dropWhile isMargin with
  | nil => rw [dropEndMargin, hdrop]; rfl
  | cons first more =>
      rw [dropEndMargin, hdrop]
      exact List.reverse_append

/-- What is left of a text whose margins are dropped, when its first and its last unit
are known. -/
theorem trimMargins_eq {front core back rest init : List C} {first last : C}
    (hfront : ∀ unit ∈ front, isMargin unit = true)
    (hback : ∀ unit ∈ back, isMargin unit = true)
    (hfirst : core = first :: rest) (hlast : core = init ++ [last])
    (hfirstUnit : isMargin first = false) (hlastUnit : isMargin last = false) :
    trimMargins (front ++ core ++ back) = core := by
  have hstart : dropMargin (front ++ core ++ back) = core ++ back := by
    rw [List.append_assoc, dropMargin_append hfront, hfirst, List.cons_append,
      dropMargin_cons hfirstUnit]
  rw [trimMargins, hstart, dropEndMargin_append hback, hlast, dropEndMargin_concat hlastUnit]

end Margins

namespace IsNumeral

variable {radix : Radix} {units : List C} {n : Nat}

theorem exists_first (hnumeral : IsNumeral radix units n) :
    ∃ first rest, units = first :: rest ∧ IsDigit radix first := by
  obtain ⟨first, rest, hunits⟩ := List.exists_cons_of_ne_nil hnumeral.nonempty
  refine ⟨first, rest, hunits, hnumeral.digit first ?_⟩
  rw [hunits]
  exact List.mem_cons_self

theorem exists_last (hnumeral : IsNumeral radix units n) :
    ∃ init last, units = init ++ [last] ∧ IsDigit radix last :=
  ⟨units.dropLast, units.getLast hnumeral.nonempty,
    (List.dropLast_append_getLast hnumeral.nonempty).symm,
    hnumeral.digit _ (List.getLast_mem hnumeral.nonempty)⟩

theorem dropMargin_eq (hnumeral : IsNumeral radix units n) : dropMargin units = units := by
  obtain ⟨first, rest, hunits, hfirst⟩ := hnumeral.exists_first
  rw [hunits, dropMargin_cons (isMargin_eq_false hfirst)]

/-- A numeral has no base mark. -/
theorem splitMark_eq (hnumeral : IsNumeral radix units n) :
    splitMark units = (.decimal, units) := by
  cases units with
  | nil => rfl
  | cons first rest =>
      cases rest with
      | nil => rfl
      | cons second rest =>
          have hsecond : IsDigit radix second :=
            hnumeral.digit second (List.mem_cons_of_mem _ List.mem_cons_self)
          rw [splitMark, isAscii_eq_false hsecond (by decide),
            isAscii_eq_false hsecond (by decide), Bool.or_false, Bool.and_false]
          rfl

/-- Where the text after the base mark is a numeral, the numeral decides. -/
theorem readMagnitude_eq {text : List C} {a : UInt128}
    (hnumeral : IsNumeral radix units a.toNat)
    (hsplit : splitMark (dropMargin text) = (radix, units)) :
    readMagnitude text = .ok (a, radix) := by
  obtain ⟨next, hscan, hvalue, hstarted⟩ := hnumeral.scan a.toNat_lt
  rw [readMagnitude, hsplit]
  simp only [hscan, DigitReader.result, hstarted, if_true]
  rw [UInt128.ext_toNat hvalue]

end IsNumeral

end TwoLimb.Text
