/-
# Written digits are canonical numerals

The canonical numeral of a number has nothing but digits of its radix in one case, no zero
in front unless it is the number zero, and the value of the number. There is exactly one,
so these rules say all that there is to say about written digits: the digits of a value are
its canonical numeral, and so is what the loops over a buffer leave in it.

The core library writes natural numbers by these rules too. Formats therefore hand the
layout the digits that a machine integer of the same value has: those of the magnitude with
the sign beside them where a signed value is written in decimal, and those of its two's
complement bits in the other radices. One thing is left to machine integers alone: the flags
that turn debugging to hexadecimal have no effect here.
-/

import TwoLimb.Proofs.Guarded.Numeral
import TwoLimb.Proofs.Int128.Shift
import TwoLimb.Proofs.Text.Grammar
import TwoLimb.Text.Display

namespace TwoLimb.Text

/-- A byte is the digit of a number below the radix: it stands at that place in the alphabet
of the requested case. -/
def IsDigitByte (radix : Radix) (uppercase : Bool) (byte : UInt8) (digit : Nat) : Prop :=
  digit < radix.value ∧ (Guarded.alphabet uppercase)[digit]? = some byte

/-- The canonical numeral of a number in a radix and a case. -/
structure IsCanonicalNumeral (radix : Radix) (uppercase : Bool) (n : Nat) (bytes : List UInt8) :
    Prop where
  nonempty : bytes ≠ []
  /-- The bytes are digits, and read in the radix they give the number. -/
  spells : ∃ digits, List.Forall₂ (IsDigitByte radix uppercase) bytes digits ∧
    numeralValue radix digits = n
  /-- A zero in front is all there is. -/
  noLeadingZero : bytes.head? = some zeroDigit → bytes = [zeroDigit]

/-- The numeral of a number, with a digit for zero as well. -/
def canonicalNumeral (uppercase : Bool) (base n : Nat) : List UInt8 :=
  if n = 0 then [zeroDigit] else numeral uppercase base n

/-- The digits that the core library writes for a number. -/
def coreDigits (radix : Radix) (uppercase : Bool) (n : Nat) : List Char :=
  let digits := Nat.toDigits radix.value n
  if uppercase then digits.map Char.toUpper else digits

namespace NumberForm

/-- The form debugs in hexadecimal where the value is a machine integer. -/
def IsHexDebug (form : NumberForm) : Prop :=
  form = .debugLowerHex ∨ form = .debugUpperHex

/-- The form in which a machine integer is written. -/
def ofMachine : NumberForm → NumberForm
  | .debugLowerHex => .lowerHex
  | .debugUpperHex => .upperHex
  | form => form

end NumberForm

/-- A machine integer without sign, written in the given form. -/
def machineFormat (n : Nat) (form : NumberForm) (options : FormatOptions) : String :=
  let written := form.ofMachine
  String.ofList (options.padIntegral true written.radix.mark.toList
    (coreDigits written.radix written.uppercase n))

section Canonical

variable {radix : Radix} {uppercase : Bool} {n : Nat} {bytes : List UInt8} {digits : List Nat}

theorem isDigitByte_iff {byte : UInt8} {digit : Nat} :
    IsDigitByte radix uppercase byte digit ↔
      digit < radix.value ∧ digitByte uppercase digit = byte := by
  have hplace : ∀ digit < 16,
      (Guarded.alphabet uppercase)[digit]? = some (digitByte uppercase digit) := by
    cases uppercase <;> decide
  refine and_congr_right fun hlt => ?_
  rw [hplace digit (Nat.lt_of_lt_of_le hlt radix.value_le_sixteen), Option.some_inj]

theorem forall₂_isDigitByte_iff :
    List.Forall₂ (IsDigitByte radix uppercase) bytes digits ↔
      (∀ digit ∈ digits, digit < radix.value) ∧ digits.map (digitByte uppercase) = bytes := by
  constructor
  · intro hspells
    induction hspells with
    | nil => simp
    | cons hbyte _ ih =>
        obtain ⟨hlt, hdigit⟩ := isDigitByte_iff.mp hbyte
        obtain ⟨hrest, hmap⟩ := ih
        exact ⟨List.forall_mem_cons.mpr ⟨hlt, hrest⟩, by rw [List.map_cons, hdigit, hmap]⟩
  · rintro ⟨hlt, rfl⟩
    rw [List.forall₂_map_left_iff, List.forall₂_same]
    intro digit hmem
    exact isDigitByte_iff.mpr ⟨hlt digit hmem, rfl⟩

/-- Among the digits only zero is written as zero. -/
theorem digitByte_eq_zeroDigit_iff {digit : Nat} (hlt : digit < radix.value) :
    digitByte uppercase digit = zeroDigit ↔ digit = 0 := by
  revert digit
  cases radix <;> cases uppercase <;> decide

/-- Digits that do not start with zero are the positional digits of their number. -/
theorem numeral_numeralValue (hlt : ∀ digit ∈ digits, digit < radix.value)
    (hfirst : digits.head? ≠ some 0) :
    numeral uppercase radix.value (numeralValue radix digits) =
      digits.map (digitByte uppercase) := by
  have hpositional : radix.value.digits (numeralValue radix digits) = digits.reverse := by
    apply Nat.digits_ofDigits radix.value radix.one_lt_value
    · intro digit hmem
      exact hlt digit (List.mem_reverse.mp hmem)
    · intro hne hlast
      apply hfirst
      rw [← List.getLast?_reverse, List.getLast?_eq_some_getLast hne, hlast]
  rw [numeral, hpositional, List.reverse_reverse]

/-- The numeral of a number other than zero is canonical. -/
theorem isCanonicalNumeral_numeral (hn : n ≠ 0) :
    IsCanonicalNumeral radix uppercase n (numeral uppercase radix.value n) := by
  have hlt : ∀ digit ∈ (radix.value.digits n).reverse, digit < radix.value := by
    intro digit hmem
    exact Nat.digits_lt_base radix.one_lt_value (List.mem_reverse.mp hmem)
  have hnonempty : numeral uppercase radix.value n ≠ [] := by
    simpa [numeral] using Nat.digits_ne_nil_iff_ne_zero.mpr hn
  refine ⟨hnonempty, ⟨_, forall₂_isDigitByte_iff.mpr ⟨hlt, rfl⟩, ?_⟩, ?_⟩
  · rw [numeralValue, List.reverse_reverse, Nat.ofDigits_digits]
  · intro hzero
    rw [numeral, List.head?_map, List.head?_reverse, Option.map_eq_some_iff] at hzero
    obtain ⟨digit, hlast, hbyte⟩ := hzero
    have hmem := List.mem_of_getLast? hlast
    rw [digitByte_eq_zeroDigit_iff (Nat.digits_lt_base radix.one_lt_value hmem)] at hbyte
    rw [List.getLast?_eq_some_getLast (Nat.digits_ne_nil_iff_ne_zero.mpr hn), hbyte,
      Option.some_inj] at hlast
    exact absurd hlast (Nat.getLast_digit_ne_zero radix.value hn)

/-- Every number has exactly one canonical numeral. -/
theorem isCanonicalNumeral_iff :
    IsCanonicalNumeral radix uppercase n bytes ↔
      canonicalNumeral uppercase radix.value n = bytes := by
  constructor
  · rintro ⟨hnonempty, ⟨digits, hspells, rfl⟩, hzero⟩
    obtain ⟨hlt, rfl⟩ := forall₂_isDigitByte_iff.mp hspells
    -- A zero in front is the whole numeral. Without one the digits are positional, and zero
    -- has no positional digits at all.
    by_cases hfirst : digits.head? = some 0
    · have hsingle := hzero (by rw [List.head?_map, hfirst]; rfl)
      obtain ⟨digit, rfl, hbyte⟩ := List.map_eq_singleton_iff.mp hsingle
      rw [List.head?_cons, Option.some_inj] at hfirst
      subst hfirst
      rfl
    · rw [canonicalNumeral, ← numeral_numeralValue hlt hfirst, if_neg]
      intro hvalue
      have hnumeral := @numeral_numeralValue radix uppercase digits hlt hfirst
      rw [hvalue, numeral_zero] at hnumeral
      exact hnonempty hnumeral.symm
  · rintro rfl
    rw [canonicalNumeral]
    split
    · subst n
      refine ⟨List.cons_ne_nil _ _, ⟨[0], ?_, rfl⟩, fun _ => rfl⟩
      exact forall₂_isDigitByte_iff.mpr ⟨by simpa using Nat.zero_lt_of_lt radix.one_lt_value, rfl⟩
    · exact isCanonicalNumeral_numeral ‹_›

/-- A byte is the digit of one number. -/
theorem rightUnique_isDigitByte : Relator.RightUnique (IsDigitByte radix uppercase) := by
  have hbytes : ∀ digit < 16, ∀ other < 16,
      digitByte uppercase digit = digitByte uppercase other → digit = other := by
    cases uppercase <;> decide
  intro byte digit other hdigit hother
  obtain ⟨hlt, hbyte⟩ := isDigitByte_iff.mp hdigit
  obtain ⟨hotherLt, hotherByte⟩ := isDigitByte_iff.mp hother
  apply hbytes _ (Nat.lt_of_lt_of_le hlt radix.value_le_sixteen) _
    (Nat.lt_of_lt_of_le hotherLt radix.value_le_sixteen)
  rw [hbyte, hotherByte]

/-- A canonical numeral is that of one number. -/
theorem IsCanonicalNumeral.value_unique {m : Nat}
    (hnumeral : IsCanonicalNumeral radix uppercase n bytes)
    (hother : IsCanonicalNumeral radix uppercase m bytes) : n = m := by
  obtain ⟨digits, hdigits, rfl⟩ := hnumeral.spells
  obtain ⟨others, hothers, rfl⟩ := hother.spells
  rw [rightUnique_isDigitByte.forall₂ hdigits hothers]

end Canonical

section Core

/-- The digit of a number below the radix, as a byte and in the core library. -/
theorem ofNat_digitByte (uppercase : Bool) {digit : Nat} (hlt : digit < 16) :
    Char.ofNat (digitByte uppercase digit).toNat =
      if uppercase then digit.digitChar.toUpper else digit.digitChar := by
  revert digit
  cases uppercase <;> decide

theorem coreDigits_of_lt {radix : Radix} {uppercase : Bool} {n : Nat} (hlt : n < radix.value) :
    coreDigits radix uppercase n = asciiChars [digitByte uppercase n] := by
  have hdigit := ofNat_digitByte uppercase (Nat.lt_of_lt_of_le hlt radix.value_le_sixteen)
  rw [asciiChars, List.map_singleton, hdigit, coreDigits, Nat.toDigits_of_lt_base hlt]
  cases uppercase <;> simp

theorem coreDigits_of_le {radix : Radix} {uppercase : Bool} {n : Nat} (hle : radix.value ≤ n) :
    coreDigits radix uppercase n = coreDigits radix uppercase (n / radix.value) ++
      asciiChars [digitByte uppercase (n % radix.value)] := by
  have hlt : n % radix.value < radix.value :=
    Nat.mod_lt _ (Nat.zero_lt_of_lt radix.one_lt_value)
  have hdigit := ofNat_digitByte uppercase (Nat.lt_of_lt_of_le hlt radix.value_le_sixteen)
  rw [asciiChars, List.map_singleton, hdigit, coreDigits,
    Nat.toDigits_of_base_le radix.one_lt_value hle, coreDigits]
  cases uppercase <;> simp

/-- The core library writes the canonical numeral. -/
theorem coreDigits_eq (radix : Radix) (uppercase : Bool) (n : Nat) :
    coreDigits radix uppercase n = asciiChars (canonicalNumeral uppercase radix.value n) := by
  induction n using Nat.strongRecOn with
  | ind n ih =>
    by_cases hn : n = 0
    · subst hn
      rw [coreDigits_of_lt (Nat.zero_lt_of_lt radix.one_lt_value)]
      rfl
    · rw [canonicalNumeral, if_neg hn, numeral_of_ne_zero radix.one_lt_value hn]
      -- Both sides split off the last digit, but only the core library stops at one digit.
      rcases Nat.lt_or_ge n radix.value with hlt | hle
      · rw [Nat.div_eq_of_lt hlt, numeral_zero, Nat.mod_eq_of_lt hlt, List.nil_append,
          coreDigits_of_lt hlt]
      · have hquotient : n / radix.value ≠ 0 := Nat.div_ne_zero_iff.mpr
          ⟨Nat.ne_of_gt (Nat.zero_lt_of_lt radix.one_lt_value), hle⟩
        have hsmaller := Nat.div_lt_self (Nat.pos_of_ne_zero hn) radix.one_lt_value
        rw [coreDigits_of_le hle, ih _ hsmaller, canonicalNumeral, if_neg hquotient, asciiChars,
          asciiChars, asciiChars, List.map_append]

/-- The written digits of a value are its canonical numeral. -/
theorem digits_eq_canonicalNumeral (a : UInt128) (radix : Radix) (uppercase : Bool) :
    digits a radix uppercase = canonicalNumeral uppercase radix.value a.toNat := by
  by_cases hzero : a.isZero = true
  · unfold digits
    rw [if_pos hzero, canonicalNumeral, if_pos ((UInt128.isZero_iff a).mp hzero)]
  · have hne : a ≠ .zero := by
      rintro rfl
      exact hzero rfl
    rw [digits_eq radix hne, canonicalNumeral,
      if_neg (UInt128.toNat_ne_zero_of_not_isZero hzero)]

/-- What is written for a value is the canonical numeral, and nothing else is. -/
theorem digits_eq_iff {a : UInt128} {radix : Radix} {uppercase : Bool} {bytes : List UInt8} :
    digits a radix uppercase = bytes ↔ IsCanonicalNumeral radix uppercase a.toNat bytes := by
  rw [isCanonicalNumeral_iff, digits_eq_canonicalNumeral]

/-- A value and a natural number have the same digits. -/
theorem asciiChars_digits (a : UInt128) (radix : Radix) (uppercase : Bool) :
    asciiChars (digits a radix uppercase) = coreDigits radix uppercase a.toNat := by
  rw [digits_eq_canonicalNumeral, coreDigits_eq]

theorem asciiChars_injective : Function.Injective asciiChars := by
  apply List.map_injective_iff.mpr
  intro byte other hchar
  have hvalid : ∀ x : UInt8, (Char.ofNat x.toNat).toNat = x.toNat := by
    intro x
    rw [Char.ofNat, dif_pos (.inl (Nat.lt_trans x.toNat_lt (by decide)))]
    rfl
  rw [← UInt8.toNat_inj, ← hvalid byte, ← hvalid other]
  exact congrArg Char.toNat hchar

/-- Numbers that are written alike are equal. -/
theorem coreDigits_inj {radix : Radix} {uppercase : Bool} {m n : Nat} :
    coreDigits radix uppercase m = coreDigits radix uppercase n ↔ m = n := by
  refine ⟨fun hdigits => ?_, fun h => h ▸ rfl⟩
  rw [coreDigits_eq, coreDigits_eq] at hdigits
  have hnumeral := isCanonicalNumeral_iff.mpr (asciiChars_injective hdigits)
  exact hnumeral.value_unique (isCanonicalNumeral_iff.mpr rfl)

theorem repr_eq_coreDigits (n : Nat) : n.repr = String.ofList (coreDigits .decimal false n) := by
  rw [Nat.repr_eq_ofList_toDigits]
  simp [coreDigits, Radix.value]

/-- A decimal numeral is how the core library writes the number. -/
theorem toDecimal_eq (a : UInt128) : a.toDecimal = a.toNat.repr := by
  rw [UInt128.toDecimal, asciiChars_digits, repr_eq_coreDigits]

end Core

section Forms

variable {form : NumberForm} {options : FormatOptions}

theorem ofMachine_eq (hform : ¬form.IsHexDebug) : form.ofMachine = form := by
  cases form with
  | debugLowerHex => exact absurd (.inl rfl) hform
  | debugUpperHex => exact absurd (.inr rfl) hform
  | _ => rfl

theorem unsigned_format_eq (a : UInt128) (hform : ¬form.IsHexDebug) :
    a.format form options = machineFormat a.toNat form options := by
  rw [UInt128.format, asciiChars_digits, machineFormat, ofMachine_eq hform]

theorem unsigned_format_of_isHexDebug (a : UInt128) (hform : form.IsHexDebug) :
    a.format form options = machineFormat a.toNat .debug options := by
  rw [UInt128.format, asciiChars_digits]
  rcases hform with rfl | rfl <;> rfl

theorem signed_format_of_decimal (a : Int128) (hform : form.radix = .decimal) :
    a.format form options = String.ofList (options.padIntegral (decide (0 ≤ a.toInt)) []
      (coreDigits .decimal false a.toInt.natAbs)) := by
  have hsign : (!a.isNegative) = decide (0 ≤ a.toInt) := by
    rw [Int128.isNegative_eq_decide, ← decide_not]
    simp
  rw [Int128.format, hform]
  simp only
  rw [asciiChars_digits, Int128.toNat_unsignedAbs, hsign]

theorem signed_format_of_bits (a : Int128) (hform : form.radix ≠ .decimal) :
    a.format form options = machineFormat (a.toInt % 2 ^ 128).toNat form options := by
  have hbits : a.format form options = a.bits.format form options := by
    unfold Int128.format
    split
    · exact absurd ‹_› hform
    · rfl
  have hplain : ¬form.IsHexDebug := by
    rintro (rfl | rfl) <;> exact hform rfl
  rw [hbits, unsigned_format_eq a.bits hplain, ← a.toNat_bits_eq_emod, Int.toNat_natCast]

end Forms

/-- What is written for a value, in every radix and case, is its one canonical numeral: the
digits are, and so is what the loops over a buffer leave in it, which never run out of room.
Every form but the two that ask for hexadecimal in debugging hands the layout the digits of a
machine integer, and those two hand it the digits that debugging has without them. A signed
value is handed over in decimal by sign and magnitude, the least one included, and in the
other radices by its two's complement bits. -/
theorem written_digits_canonical :
    (∀ (a : UInt128) radix uppercase bytes,
      (digits a radix uppercase = bytes ↔
        IsCanonicalNumeral radix uppercase a.toNat bytes) ∧
      (Guarded.digits Guarded.portable a radix uppercase = .ok bytes ↔
        IsCanonicalNumeral radix uppercase a.toNat bytes)) ∧
    (∀ (a : UInt128) (form : NumberForm) options,
      (¬form.IsHexDebug → a.format form options = machineFormat a.toNat form options) ∧
      (form.IsHexDebug → a.format form options = machineFormat a.toNat .debug options)) ∧
    (∀ (a : Int128) (form : NumberForm) (options : FormatOptions),
      (form.radix = .decimal → a.format form options =
        String.ofList (options.padIntegral (decide (0 ≤ a.toInt)) []
          (coreDigits .decimal false a.toInt.natAbs))) ∧
      (form.radix ≠ .decimal → a.format form options =
        machineFormat (a.toInt % 2 ^ 128).toNat form options)) := by
  refine ⟨fun a radix uppercase bytes => ?_, fun a form options => ?_, fun a form options => ?_⟩
  · refine ⟨digits_eq_iff, ?_⟩
    rw [Guarded.digits_eq Guarded.sound_portable, Except.ok.injEq, digits_eq_iff]
  · exact ⟨unsigned_format_eq a, unsigned_format_of_isHexDebug a⟩
  · exact ⟨signed_format_of_decimal a, signed_format_of_bits a⟩

/-- The flag for hexadecimal takes a machine integer out of decimal, and leaves a value of two
limbs there. -/
theorem hex_debug_stays_decimal :
    (UInt128.ofLimb 10).format .debugLowerHex {} ≠
        machineFormat (UInt128.ofLimb 10).toNat .debugLowerHex {} ∧
      (UInt128.ofLimb 10).format .debugLowerHex {} = "10" ∧
      machineFormat (UInt128.ofLimb 10).toNat .debugLowerHex {} = "a" := by
  rw [unsigned_format_of_isHexDebug _ (.inl rfl)]
  decide

end TwoLimb.Text
