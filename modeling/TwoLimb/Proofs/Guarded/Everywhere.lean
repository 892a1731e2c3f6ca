/-
# No operation stops on a hidden check

With its checks on, an operation on an engine that keeps its values in limbs has the result
it has without them, for all operands. The few that may stop do so for operands that they
document as refused, with the fault that belongs to them: a zero divisor, a shift operator's
amount that is not one of 0 to 127, a bit from 128 on, a fill that is not ASCII, and a
literal that denotes no value.

Sums, differences and negations, comparisons and choices, logical operations, and the
conversions from and to machine integers contain no check and are not listed.
-/

import TwoLimb.Proofs.Guarded.Reader
import TwoLimb.Proofs.Guarded.Signed
import TwoLimb.Proofs.Int128.Division
import TwoLimb.Proofs.Int128.Shift
import TwoLimb.Proofs.UInt128.Division

namespace TwoLimb.Guarded

open Text

/-- A guarded operation stops with the given fault for refused operands, and for all others
has the result of the operation. -/
structure StopsOnlyWhere {α : Type} (refused : Prop) (fault : Fault) (guarded : Guarded α)
    (outcome : Except Fault α) : Prop where
  refuses : refused → guarded = .error (.fault fault)
  answers : ¬refused → ∃ value, guarded = .ok value ∧ outcome = .ok value

section Refused

variable {α : Type} {refused : Prop} {fault : Fault} {guarded : Guarded α}
  {outcome : Except Fault α}

/-- A guarded operation stops where the operation faults. -/
theorem stopsOnlyWhere (hguarded : guarded = documented outcome)
    (hrefuses : refused → outcome = .error fault)
    (hanswers : ¬refused → ∃ value, outcome = .ok value) :
    StopsOnlyWhere refused fault guarded outcome where
  refuses hrefused := by rw [hguarded, hrefuses hrefused, documented_error]
  answers hrefused := by
    obtain ⟨value, hvalue⟩ := hanswers hrefused
    exact ⟨value, by rw [hguarded, hvalue, documented_ok], hvalue⟩

end Refused

/-! ### What passes -/

/-- Counts of bits, single bits, digests and bytes. -/
structure BitsPass : Prop where
  leadingZeros : ∀ a : UInt128, leadingZeros a = .ok a.leadingZeros
  trailingZeros : ∀ a : UInt128, trailingZeros a = .ok a.trailingZeros
  onesCount : ∀ a : UInt128, onesCount a = .ok a.onesCount
  zerosCount : ∀ a : UInt128, zerosCount a = .ok a.zerosCount
  bitWidth : ∀ a : UInt128, bitWidth a = .ok a.bitWidth
  isPowerOfTwo : ∀ a : UInt128, isPowerOfTwo a = .ok a.isPowerOfTwo
  bit : ∀ (a : UInt128) (index : Nat),
    StopsOnlyWhere (128 ≤ index) .bitIndex (bit a index) (a.bit? index)
  digest : ∀ a : UInt128, digest a = .ok a.digest
  toBytes : ∀ (a : UInt128) (order : ByteOrder), toBytes a order = .ok (a.toBytes order).toList
  ofBytes : ∀ (order : ByteOrder) (bytes : Vector UInt8 16),
    ofBytes order bytes = .ok (UInt128.ofBytes order bytes)

/-- Shifts and rotations. A limb is shifted by less than 64 in each of them, and a pair of
limbs by less than 128. -/
structure ShiftsPass : Prop where
  wrappingShl : ∀ (a : UInt128) (amount : UInt32),
    wrappingShift a .left amount = .ok (a.wrappingShl amount)
  wrappingShr : ∀ (a : UInt128) (amount : UInt32),
    wrappingShift a .right amount = .ok (a.wrappingShr amount)
  shl? : ∀ (a : UInt128) (amount : UInt32), shift? a .left amount = .ok (a.shl? amount)
  shr? : ∀ (a : UInt128) (amount : UInt32), shift? a .right amount = .ok (a.shr? amount)
  overflowingShl : ∀ (a : UInt128) (amount : UInt32),
    overflowingShift a .left amount = .ok (a.overflowingShl amount)
  overflowingShr : ∀ (a : UInt128) (amount : UInt32),
    overflowingShift a .right amount = .ok (a.overflowingShr amount)
  rotateLeft : ∀ (a : UInt128) (amount : UInt32), rotateLeft a amount = .ok (a.rotateLeft amount)
  rotateRight : ∀ (a : UInt128) (amount : UInt32),
    rotateRight a amount = .ok (a.rotateRight amount)
  shiftBy : ∀ (a : UInt128) (direction : Direction) (amount : ShiftCount),
    StopsOnlyWhere (¬IsPlaces amount.toInt) direction.fault (shiftBy a direction amount)
      (a.shiftBy direction amount)
  signedWrappingShl : ∀ (a : Int128) (amount : UInt32),
    Signed.wrappingShift a .left amount = .ok (a.wrappingShl amount)
  signedWrappingShr : ∀ (a : Int128) (amount : UInt32),
    Signed.wrappingShift a .right amount = .ok (a.wrappingShr amount)
  signedShl? : ∀ (a : Int128) (amount : UInt32), Signed.shift? a .left amount = .ok (a.shl? amount)
  signedShr? : ∀ (a : Int128) (amount : UInt32), Signed.shift? a .right amount = .ok (a.shr? amount)
  signedShiftBy : ∀ (a : Int128) (direction : Direction) (amount : ShiftCount),
    StopsOnlyWhere (¬IsPlaces amount.toInt) direction.fault (Signed.shiftBy a direction amount)
      (a.shiftBy direction amount)

/-- Products, powers, quotients and common divisors. In each of their divisions the high
limb that enters a wide division is below the divisor, a divisor has at least as many
leading zeros as the dividend it is aligned with, and it is shifted by less than 128. -/
structure ArithmeticPasses (ops : GuardedOps) : Prop where
  wideningMul : ∀ a b : Limb, ops.wideningMul a b = .ok (UInt128.wideningMul a b)
  mul : ∀ a b : UInt128, mul ops a b = .ok (a * b)
  overflowingMul : ∀ a b : UInt128, overflowingMul ops a b = .ok (a.overflowingMul b)
  mul? : ∀ a b : UInt128, mul? ops a b = .ok (a.mul? b)
  saturatingMul : ∀ a b : UInt128, saturatingMul ops a b = .ok (a.saturatingMul b)
  pow : ∀ (a : UInt128) (exponent : UInt32), pow ops a exponent = .ok (a.pow exponent)
  pow? : ∀ (a : UInt128) (exponent : UInt32), pow? ops a exponent = .ok (a.pow? exponent)
  divMod : ∀ a b : UInt128, b ≠ .zero → divMod ops a b = .ok (a.divMod b)
  divMod? : ∀ a b : UInt128, divide ops id a b = .ok (a.divMod? b)
  divModOrError : ∀ a b : UInt128, divide ops orDivideByZero a b = .ok (a.divModOrError b)
  div? : ∀ a b : UInt128, divide ops (Option.map DivMod.quotient) a b = .ok (a.div? b)
  rem? : ∀ a b : UInt128, divide ops (Option.map DivMod.remainder) a b = .ok (a.rem? b)
  div : ∀ a b : UInt128, StopsOnlyWhere (b = .zero) .divisionByZero
    (divideOrFault ops quotientOrFault a b) (a.div b)
  rem : ∀ a b : UInt128, StopsOnlyWhere (b = .zero) .remainderByZero
    (divideOrFault ops remainderOrFault a b) (a.rem b)
  tracedDivMod : ∀ a b : UInt128, tracedDivMod ops a b = .ok (a.tracedDivMod b)
  gcd : ∀ a b : UInt128, gcd a b = .ok (a.gcd b)
  lcm? : ∀ a b : UInt128, lcm? ops a b = .ok (a.lcm? b)
  lcm : ∀ a b : UInt128, lcm ops a b = .ok (a.lcm b)
  signedMul : ∀ a b : Int128, Signed.mul ops a b = .ok (a * b)
  signedOverflowingMul : ∀ a b : Int128,
    Signed.overflowingMul ops a b = .ok (a.overflowingMul b)
  signedMul? : ∀ a b : Int128, Signed.mul? ops a b = .ok (a.mul? b)
  signedSaturatingMul : ∀ a b : Int128, Signed.saturatingMul ops a b = .ok (a.saturatingMul b)
  signedDivMod? : ∀ a b : Int128, Signed.divMod? ops a b = .ok (a.divMod? b)
  signedDivModOrError : ∀ a b : Int128,
    Signed.divModOrError ops a b = .ok (a.divModOrError b)
  signedDiv? : ∀ a b : Int128, Signed.part? ops DivMod.quotient a b = .ok (a.div? b)
  signedRem? : ∀ a b : Int128, Signed.part? ops DivMod.remainder a b = .ok (a.rem? b)
  signedDiv : ∀ a b : Int128, StopsOnlyWhere (b = .zero) .divisionByZero
    (Signed.partOrFault ops DivMod.quotient .divisionByZero a b) (a.div b)
  signedRem : ∀ a b : Int128, StopsOnlyWhere (b = .zero) .remainderByZero
    (Signed.partOrFault ops DivMod.remainder .remainderByZero a b) (a.rem b)
  divEuclid : ∀ a b : Int128, Signed.divEuclid ops a b = .ok (a.divEuclid b)
  remEuclid : ∀ a b : Int128, Signed.remEuclid ops a b = .ok (a.remEuclid b)

/-- Conversions from and to floats. -/
structure FloatsPass : Prop where
  toBinary64 : ∀ a : UInt128, toBinary64 a = .ok a.toBinary64
  toBinary32 : ∀ a : UInt128, toBinary32 a = .ok a.toBinary32
  ofBinary64 : ∀ x : Binary64, ofBinary64 x = .ok (UInt128.ofBinary64 x)
  ofBinary32 : ∀ x : Binary32, ofBinary32 x = .ok (UInt128.ofBinary32 x)
  signedToBinary64 : ∀ a : Int128, Signed.toBinary64 a = .ok a.toBinary64
  signedToBinary32 : ∀ a : Int128, Signed.toBinary32 a = .ok a.toBinary32
  signedOfBinary64 : ∀ x : Binary64, Signed.ofBinary64 x = .ok (Int128.ofBinary64 x)
  signedOfBinary32 : ∀ x : Binary32, Signed.ofBinary32 x = .ok (Int128.ofBinary32 x)

/-- Texts in any encoding. The width of a field and the length of a text are machine words.
The index of the digits never moves below zero, and no text is cut or indexed outside. -/
structure TextsPass (ops : GuardedOps) : Prop where
  digits : ∀ (a : UInt128) (radix : Radix) (uppercase : Bool),
    digits ops a radix uppercase = .ok (Text.digits a radix uppercase)
  format : ∀ (a : UInt128) (form : NumberForm) (options : FormatOptions),
    format ops a form options = .ok (a.format form options)
  setFill : ∀ (spec : FieldSpec) (fill : UInt8),
    StopsOnlyWhere (0x80 ≤ fill) .fillNotAscii (setFill spec fill) (spec.setFill fill)
  toUnits : ∀ {C : Type} [CodeUnit C] (a : UInt128) (spec : FieldSpec), spec.width < 2 ^ 64 →
    toUnits ops a spec = .ok (a.toUnits spec : List C)
  ofUnits : ∀ {C : Type} [CodeUnit C] (units : List C), units.length < 2 ^ 64 →
    ofUnits ops units = .ok (UInt128.ofUnits units)
  ofLiteral : ∀ text : String, (utf8 text.toList).length < 2 ^ 64 →
    ofLiteral ops text = documented (faultText (readLiteral (utf8 text.toList)))
  signedFormat : ∀ (a : Int128) (form : NumberForm) (options : FormatOptions),
    Signed.format ops a form options = .ok (a.format form options)
  signedToUnits : ∀ {C : Type} [CodeUnit C] (a : Int128) (spec : FieldSpec),
    spec.width < 2 ^ 64 → Signed.toUnits ops a spec = .ok (a.toUnits spec : List C)
  signedOfUnits : ∀ {C : Type} [CodeUnit C] (units : List C), units.length < 2 ^ 64 →
    ofUnitsSigned ops units = .ok (Int128.ofUnits units)
  signedOfLiteral : ∀ text : String, (utf8 text.toList).length < 2 ^ 64 →
    ofLiteralSigned ops text = documented (faultText (readSignedLiteral (utf8 text.toList)))

/-- Every operation that contains a check passes it on the given primitives. -/
structure PassesEverywhere (ops : GuardedOps) : Prop where
  bits : BitsPass
  shifts : ShiftsPass
  arithmetic : ArithmeticPasses ops
  floats : FloatsPass
  texts : TextsPass ops

/-! ### Refused operands -/

theorem bit_stopsOnlyWhere (a : UInt128) (index : Nat) :
    StopsOnlyWhere (128 ≤ index) .bitIndex (bit a index) (a.bit? index) :=
  stopsOnlyWhere (bit_eq a index) (fun hindex => if_neg (Nat.not_lt.mpr hindex))
    fun hindex => ⟨a.testBit index, if_pos (Nat.lt_of_not_le hindex)⟩

theorem setFill_stopsOnlyWhere (spec : FieldSpec) (fill : UInt8) :
    StopsOnlyWhere (0x80 ≤ fill) .fillNotAscii (setFill spec fill) (spec.setFill fill) :=
  stopsOnlyWhere (setFill_eq spec fill) (fun hfill => if_neg (UInt8.not_lt.mpr hfill))
    fun hfill => ⟨{ spec with fill := fill }, if_pos (UInt8.not_le.mp hfill)⟩

theorem shiftBy_stopsOnlyWhere (a : UInt128) (direction : Direction) (amount : ShiftCount) :
    StopsOnlyWhere (¬IsPlaces amount.toInt) direction.fault (shiftBy a direction amount)
      (a.shiftBy direction amount) := by
  refine stopsOnlyWhere (shiftBy_eq a direction amount) (fun hamount => ?_) fun hamount => ?_
  · rw [UInt128.shiftBy_eq, if_neg hamount]
  · exact ⟨_, by rw [UInt128.shiftBy_eq, if_pos (Decidable.not_not.mp hamount)]⟩

/-- The signed shift operators refuse the amounts that the unsigned ones refuse. -/
theorem signedShiftBy_stopsOnlyWhere (a : Int128) (direction : Direction) (amount : ShiftCount) :
    StopsOnlyWhere (¬IsPlaces amount.toInt) direction.fault (Signed.shiftBy a direction amount)
      (a.shiftBy direction amount) := by
  have hinteger := a.map_toInt_shiftBy direction amount
  rw [Direction.exactBy] at hinteger
  refine stopsOnlyWhere (Signed.shiftBy_eq a direction amount) (fun hamount => ?_) fun hamount => ?_
  · rw [if_neg hamount] at hinteger
    cases hshift : a.shiftBy direction amount with
    | error fault =>
        rw [hshift] at hinteger
        exact congrArg Except.error (Except.error.inj hinteger)
    | ok shifted =>
        rw [hshift] at hinteger
        cases hinteger
  · rw [if_pos (Decidable.not_not.mp hamount)] at hinteger
    cases hshift : a.shiftBy direction amount with
    | error fault =>
        rw [hshift] at hinteger
        cases hinteger
    | ok shifted => exact ⟨shifted, rfl⟩

theorem bitsPass : BitsPass where
  leadingZeros := leadingZeros_eq
  trailingZeros := trailingZeros_eq
  onesCount := onesCount_eq
  zerosCount := zerosCount_eq
  bitWidth := bitWidth_eq
  isPowerOfTwo := isPowerOfTwo_eq
  bit := bit_stopsOnlyWhere
  digest := digest_eq
  toBytes := toBytes_eq
  ofBytes := ofBytes_eq

theorem shiftsPass : ShiftsPass where
  wrappingShl a amount := wrappingShift_eq a .left amount
  wrappingShr a amount := wrappingShift_eq a .right amount
  shl? a amount := shift?_eq a .left amount
  shr? a amount := shift?_eq a .right amount
  overflowingShl a amount := overflowingShift_eq a .left amount
  overflowingShr a amount := overflowingShift_eq a .right amount
  rotateLeft := rotateLeft_eq
  rotateRight := rotateRight_eq
  shiftBy := shiftBy_stopsOnlyWhere
  signedWrappingShl := Signed.wrappingShl_eq
  signedWrappingShr := Signed.wrappingShr_eq
  signedShl? := Signed.shl?_eq
  signedShr? := Signed.shr?_eq
  signedShiftBy := signedShiftBy_stopsOnlyWhere

theorem floatsPass : FloatsPass where
  toBinary64 := toBinary64_eq
  toBinary32 := toBinary32_eq
  ofBinary64 := ofBinary64_eq
  ofBinary32 := ofBinary32_eq
  signedToBinary64 := Signed.toBinary64_eq
  signedToBinary32 := Signed.toBinary32_eq
  signedOfBinary64 := Signed.ofBinary64_eq
  signedOfBinary32 := Signed.ofBinary32_eq

section Sound

variable {ops : GuardedOps} (hops : ops.Sound)

include hops

theorem wideningMul_eq (a b : Limb) : ops.wideningMul a b = .ok (UInt128.wideningMul a b) :=
  (hops.wideningMul a b).trans (congrArg Except.ok ((agrees_selected hops).wideningMul a b))

theorem divideOrFault_stopsOnlyWhere {report : Option (DivMod UInt128) → Except Fault UInt128}
    {fault : Fault} (hnone : report none = .error fault)
    (hsome : ∀ result, ∃ value, report (some result) = .ok value) (a b : UInt128) :
    StopsOnlyWhere (b = .zero) fault (divideOrFault ops report a b)
      (UInt128.divide report a b) := by
  refine stopsOnlyWhere (divideOrFault_eq hops report a b) (fun hb => ?_) fun hb => ?_
  · rw [hb]
    exact hnone
  · have hanswers := UInt128.answersEverywhere hb (UInt128.divides_divMod a hb)
    rw [UInt128.divide_eq_report, hanswers.divMod?]
    exact hsome _

theorem signedDiv_stopsOnlyWhere (a b : Int128) :
    StopsOnlyWhere (b = .zero) .divisionByZero
      (Signed.partOrFault ops DivMod.quotient .divisionByZero a b) (a.div b) :=
  stopsOnlyWhere (Signed.partOrFault_eq hops DivMod.quotient .divisionByZero a b)
    (fun hb => hb ▸ (Int128.refuses_zero a).div) fun hb => ⟨_, (a.answersWrapped hb).div⟩

theorem signedRem_stopsOnlyWhere (a b : Int128) :
    StopsOnlyWhere (b = .zero) .remainderByZero
      (Signed.partOrFault ops DivMod.remainder .remainderByZero a b) (a.rem b) :=
  stopsOnlyWhere (Signed.partOrFault_eq hops DivMod.remainder .remainderByZero a b)
    (fun hb => hb ▸ (Int128.refuses_zero a).rem) fun hb => ⟨_, (a.answersWrapped hb).rem⟩

theorem arithmeticPasses : ArithmeticPasses ops where
  wideningMul := wideningMul_eq hops
  mul := mul_eq hops
  overflowingMul := overflowingMul_eq hops
  mul? := mul?_eq hops
  saturatingMul := saturatingMul_eq hops
  pow := pow_eq hops
  pow? := pow?_eq hops
  divMod a _ hb := divMod_eq hops a hb
  divMod? := divide_eq hops id
  divModOrError := divide_eq hops orDivideByZero
  div? := divide_eq hops (Option.map DivMod.quotient)
  rem? := divide_eq hops (Option.map DivMod.remainder)
  div := divideOrFault_stopsOnlyWhere hops rfl fun result => ⟨result.quotient, rfl⟩
  rem := divideOrFault_stopsOnlyWhere hops rfl fun result => ⟨result.remainder, rfl⟩
  tracedDivMod := tracedDivMod_eq hops
  gcd := gcd_eq
  lcm? := lcm?_eq hops
  lcm := lcm_eq hops
  signedMul := Signed.mul_eq hops
  signedOverflowingMul := Signed.overflowingMul_eq hops
  signedMul? := Signed.mul?_eq hops
  signedSaturatingMul := Signed.saturatingMul_eq hops
  signedDivMod? := Signed.divMod?_eq hops
  signedDivModOrError := Signed.divModOrError_eq hops
  signedDiv? := Signed.part?_eq hops DivMod.quotient
  signedRem? := Signed.part?_eq hops DivMod.remainder
  signedDiv := signedDiv_stopsOnlyWhere hops
  signedRem := signedRem_stopsOnlyWhere hops
  divEuclid := Signed.divEuclid_eq hops
  remEuclid := Signed.remEuclid_eq hops

theorem textsPass : TextsPass ops where
  digits := digits_eq hops
  format := format_eq hops
  setFill := setFill_stopsOnlyWhere
  toUnits a _ hwidth := toUnits_eq hops a hwidth
  ofUnits _ hunits := ofUnits_eq hops hunits
  ofLiteral _ htext := ofLiteral_eq hops htext
  signedFormat := Signed.format_eq hops
  signedToUnits a _ hwidth := Signed.toUnits_eq hops a hwidth
  signedOfUnits _ hunits := ofUnitsSigned_eq hops hunits
  signedOfLiteral _ htext := ofLiteralSigned_eq hops htext

theorem passesEverywhere : PassesEverywhere ops where
  bits := bitsPass
  shifts := shiftsPass
  arithmetic := arithmeticPasses hops
  floats := floatsPass
  texts := textsPass hops

end Sound

/-- Neither engine that keeps its values in limbs stops on a hidden check: every operation
on it passes all its checks for all operands, but for the faults that it documents. -/
theorem only_documented_faults : PassesEverywhere portable ∧ PassesEverywhere instruction :=
  ⟨passesEverywhere sound_portable, passesEverywhere sound_instruction⟩

end TwoLimb.Guarded
