/-
# Floats become integers

Every type of integers makes the same of what a float stands for. What is no number and what
is infinite is refused as such, a number outside the type is refused with an error that may
depend on the side, and any other number is rounded towards zero. `ConvertsTo` states these
rules on data, where no fields and no units appear.

The checked conversions follow the rules because their checks compare values, and because the
fields are shifted to the integer part of a value that passes. A float of the narrow format
is converted as the float of the wide format with the same datum.
-/

import TwoLimb.Proofs.Float.Range
import TwoLimb.Proofs.Int128.TwosComplement

namespace TwoLimb

open BinaryFormat

/-- A type of integers as conversions from floats see it. -/
structure IntegerType (α : Type) where
  toInt : α → Int
  lower : Int
  upper : Int
  /-- What reports a number below the type. -/
  below : FloatError
  toInt_inj : ∀ {a b : α}, toInt a = toInt b → a = b
  lower_lt_upper : lower < upper

/-- Unsigned values have an error of their own for what is below zero. -/
def UInt128.integers : IntegerType UInt128 where
  toInt a := a.toNat
  lower := 0
  upper := 2 ^ 128
  below := .negative
  toInt_inj hequal := ext_toNat (Int.ofNat_inj.mp hequal)
  lower_lt_upper := by decide

/-- Signed values are left in the same way on both sides. -/
def Int128.integers : IntegerType Int128 where
  toInt := toInt
  lower := -2 ^ 127
  upper := 2 ^ 127
  below := .outOfRange
  toInt_inj := toInt_inj.mp
  lower_lt_upper := by decide

/-- A rational number without what stands behind the point. -/
def roundTowardsZero (q : ℚ) : Int := if 0 ≤ q then ⌊q⌋ else ⌈q⌉

/-- What a conversion to a type of integers makes of a datum. -/
inductive ConvertsTo {α : Type} (type : IntegerType α) : Datum → Except FloatError α → Prop
  | notANumber : ConvertsTo type .notANumber (.error .notANumber)
  | infinite (negative : Bool) : ConvertsTo type (.infinite negative) (.error .infinite)
  | below {negative : Bool} {magnitude : ℚ}
      (hbelow : Datum.signed negative magnitude < type.lower) :
      ConvertsTo type (.finite negative magnitude) (.error type.below)
  | above {negative : Bool} {magnitude : ℚ}
      (habove : type.upper ≤ Datum.signed negative magnitude) :
      ConvertsTo type (.finite negative magnitude) (.error .outOfRange)
  /-- A number within the type becomes the value of the type that it is rounded to. -/
  | rounded {negative : Bool} {magnitude : ℚ} {a : α}
      (hlower : type.lower ≤ Datum.signed negative magnitude)
      (hupper : Datum.signed negative magnitude < type.upper)
      (hvalue : type.toInt a = roundTowardsZero (Datum.signed negative magnitude)) :
      ConvertsTo type (.finite negative magnitude) (.ok a)

/-! ### Rounding towards zero -/

/-- A quotient is rounded to the quotient of the truncated division. -/
theorem roundTowardsZero_div (n : Int) {d : Nat} (hd : 0 < d) :
    roundTowardsZero (n / d) = n.tdiv d := by
  have hdivisor : (0 : ℚ) < d := Nat.cast_pos.mpr hd
  rw [roundTowardsZero]
  rcases lt_or_ge n 0 with hnegative | hnonneg
  · have hquotient : (n : ℚ) / d < 0 :=
      div_neg_of_neg_of_pos (Int.cast_lt_zero.mpr hnegative) hdivisor
    have hmagnitude : 0 ≤ -n := Int.neg_nonneg_of_nonpos (Int.le_of_lt hnegative)
    rw [if_neg (not_le.mpr hquotient), Rat.ceil_intCast_div_natCast,
      ← Int.tdiv_eq_ediv_of_nonneg hmagnitude, Int.neg_tdiv, Int.neg_neg]
  · have hquotient : (0 : ℚ) ≤ n / d := div_nonneg (Int.cast_nonneg hnonneg) hdivisor.le
    rw [if_pos hquotient, Rat.floor_intCast_div_natCast, Int.tdiv_eq_ediv_of_nonneg hnonneg]

theorem roundTowardsZero_intCast (n : Int) : roundTowardsZero n = n := by
  have hquotient := roundTowardsZero_div n Nat.one_pos
  rwa [Nat.cast_one, div_one, Nat.cast_one, Int.tdiv_one] at hquotient

/-- Rounding towards zero does not leave a range that reaches above zero. -/
theorem roundTowardsZero_bounds {q : ℚ} {lower upper : Int} (hpositive : 0 < upper)
    (hlower : lower ≤ q) (hupper : q < upper) :
    lower ≤ roundTowardsZero q ∧ roundTowardsZero q < upper := by
  rw [roundTowardsZero]
  by_cases hnonneg : 0 ≤ q
  · rw [if_pos hnonneg]
    exact ⟨Int.le_floor.mpr hlower, Int.floor_lt.mpr hupper⟩
  · have hzero : ⌈q⌉ ≤ 0 := by
      apply Int.ceil_le.mpr
      rw [Int.cast_zero]
      exact (not_le.mp hnonneg).le
    rw [if_neg hnonneg]
    exact ⟨Int.cast_le.mp (hlower.trans (Int.le_ceil q)), Int.lt_of_le_of_lt hzero hpositive⟩

/-- A number at or above a negative integer is rounded to it only if it is that integer. -/
theorem eq_of_roundTowardsZero_eq {q : ℚ} {n : Int} (hn : n < 0) (hle : n ≤ q)
    (hrounded : roundTowardsZero q = n) : q = n := by
  have hnegative : ¬0 ≤ q := by
    intro hnonneg
    rw [roundTowardsZero, if_pos hnonneg] at hrounded
    exact Int.not_le.mpr hn (hrounded ▸ Int.floor_nonneg.mpr hnonneg)
  rw [roundTowardsZero, if_neg hnegative] at hrounded
  exact le_antisymm (hrounded ▸ Int.le_ceil q) hle

namespace BinaryFloat

variable {f : BinaryFormat} {x : BinaryFloat f}

/-- The integer part of a float is its value rounded towards zero. -/
theorem roundTowardsZero_value :
    roundTowardsZero ((x.value : ℚ) / 2 ^ f.unitExponent) = x.integerPart := by
  have hquotient := roundTowardsZero_div x.value (Nat.two_pow_pos f.unitExponent)
  rwa [Nat.cast_pow, Nat.cast_pow] at hquotient

/-- The integer part of a float lies where the float lies. -/
theorem IsWithin.integerPart_bounds {lower upper : Int} (hx : x.IsWithin lower upper)
    (hpositive : 0 < upper) : lower ≤ x.integerPart ∧ x.integerPart < upper := by
  rw [← roundTowardsZero_value]
  apply roundTowardsZero_bounds hpositive
  · exact (le_value_div_iff lower).mpr hx.lower
  · exact (value_div_lt_iff upper).mpr hx.upper

end BinaryFloat

namespace ConvertsTo

variable {α : Type} {type : IntegerType α} {datum : Datum}

/-- A datum is converted to one result. -/
theorem unique {one two : Except FloatError α} (hone : ConvertsTo type datum one)
    (htwo : ConvertsTo type datum two) : one = two := by
  have hrange : (type.lower : ℚ) < type.upper := Int.cast_lt.mpr type.lower_lt_upper
  cases hone with
  | notANumber =>
      cases htwo
      rfl
  | infinite negative =>
      cases htwo
      rfl
  | below hbelow =>
      cases htwo with
      | below _ => rfl
      | above habove => exact absurd hbelow (not_lt.mpr (hrange.le.trans habove))
      | rounded hlower _ _ => exact absurd hbelow (not_lt.mpr hlower)
  | above habove =>
      cases htwo with
      | below hbelow => exact absurd hbelow (not_lt.mpr (hrange.le.trans habove))
      | above _ => rfl
      | rounded _ hupper _ => exact absurd hupper (not_lt.mpr habove)
  | rounded hlower hupper hvalue =>
      cases htwo with
      | below hbelow => exact absurd hbelow (not_lt.mpr hlower)
      | above habove => exact absurd hupper (not_lt.mpr habove)
      | rounded _ _ hother => exact congrArg _ (type.toInt_inj (hvalue.trans hother.symm))

/-- Only numbers within a type have a value of the type. -/
theorem isWithin {a : α} (hvalue : ConvertsTo type datum (.ok a)) :
    datum.IsWithin type.lower type.upper := by
  cases hvalue with
  | rounded hlower hupper _ => exact ⟨_, rfl, hlower, hupper⟩

theorem eq_iff {result : Except FloatError α} (hresult : ConvertsTo type datum result)
    (other : Except FloatError α) : result = other ↔ ConvertsTo type datum other := by
  constructor
  · rintro rfl
    exact hresult
  · intro hother
    exact hresult.unique hother

/-- The least value of a type that reaches below zero comes from one number only. -/
theorem lowest_iff {a : α} (hlowest : type.toInt a = type.lower) (hnegative : type.lower < 0) :
    ConvertsTo type datum (.ok a) ↔ datum.value? = some (type.lower : ℚ) := by
  constructor
  · intro hvalue
    cases hvalue with
    | rounded hlower _ hrounded =>
        have hequal := eq_of_roundTowardsZero_eq hnegative hlower (hrounded.symm.trans hlowest)
        exact congrArg some hequal
  · intro hvalue
    cases datum with
    | notANumber => cases hvalue
    | infinite _ => cases hvalue
    | finite negative magnitude =>
        have hequal : Datum.signed negative magnitude = type.lower := Option.some.inj hvalue
        apply rounded
        · exact hequal.ge
        · rw [hequal]
          exact Int.cast_lt.mpr type.lower_lt_upper
        · rw [hequal, roundTowardsZero_intCast, hlowest]

section Float

variable {f : BinaryFormat} (hf : f.IsProper) {x : BinaryFloat f}

include hf

/-- The two checks that every conversion starts with, before any number is compared. -/
theorem of_checks {result : Except FloatError α}
    (hresult : x.isNaN = false → x.isInfinite = false → ConvertsTo type x.datum result) :
    ConvertsTo type x.datum
      (if x.isNaN then .error .notANumber
      else if x.isInfinite then .error .infinite
      else result) := by
  by_cases hnan : x.isNaN = true
  · rw [if_pos hnan, x.datum_of_isNaN hf hnan]
    exact notANumber
  · rw [if_neg hnan]
    by_cases hinfinite : x.isInfinite = true
    · rw [if_pos hinfinite, x.datum_of_isInfinite hf hinfinite]
      exact infinite x.isNegative
    · rw [if_neg hinfinite]
      exact hresult (Bool.eq_false_iff.mpr hnan) (Bool.eq_false_iff.mpr hinfinite)

variable (hnumber : x.isNaN = false) (hfinite : x.isInfinite = false)

include hnumber hfinite

theorem of_ltInt (hbelow : x.LtInt type.lower) :
    ConvertsTo type x.datum (.error type.below) := by
  rw [x.datum_of_lt hf (x.pattern_lt_infinity hnumber hfinite)]
  apply below
  rw [x.signed_units]
  exact (x.value_div_lt_iff _).mpr hbelow

theorem of_not_ltInt (habove : ¬x.LtInt type.upper) :
    ConvertsTo type x.datum (.error .outOfRange) := by
  rw [x.datum_of_lt hf (x.pattern_lt_infinity hnumber hfinite)]
  apply above
  rw [x.signed_units]
  exact (x.le_value_div_iff _).mpr habove

omit hnumber hfinite in
/-- A float within the type becomes the value that is its integer part. -/
theorem of_isWithin (hx : x.IsWithin type.lower type.upper) {a : α}
    (hvalue : type.toInt a = x.integerPart) : ConvertsTo type x.datum (.ok a) := by
  rw [x.datum_of_lt hf (x.pattern_lt_infinity hx.notNaN hx.finite)]
  apply rounded
  · rw [x.signed_units]
    exact (x.le_value_div_iff _).mpr hx.lower
  · rw [x.signed_units]
    exact (x.value_div_lt_iff _).mpr hx.upper
  · rw [x.signed_units, x.roundTowardsZero_value, hvalue]

omit hnumber hfinite in
/-- There is a value exactly for floats within the type, and it is the one that is computed
from their fields. -/
theorem eq_ok_iff {result : Except FloatError α} (hresult : ConvertsTo type x.datum result)
    {truncated : α}
    (htruncated : x.IsWithin type.lower type.upper → type.toInt truncated = x.integerPart)
    (a : α) : result = .ok a ↔ x.datum.IsWithin type.lower type.upper ∧ a = truncated := by
  have hvalue (hdatum : x.datum.IsWithin type.lower type.upper) : result = .ok truncated := by
    have hx := (x.isWithin_datum_iff hf).mp hdatum
    exact hresult.unique (of_isWithin hf hx (htruncated hx))
  constructor
  · rintro rfl
    exact ⟨hresult.isWithin, Except.ok.inj (hvalue hresult.isWithin)⟩
  · rintro ⟨hdatum, rfl⟩
    exact hvalue hdatum

end Float

end ConvertsTo

namespace UInt128

/-- The fields of a float within the type are shifted to its integer part. -/
theorem toNat_truncateBinary64_of_isWithin {x : Binary64} (hx : x.IsWithin 0 (2 ^ 128)) :
    ((truncateBinary64 x).toNat : Int) = x.integerPart := by
  rw [toNat_truncateBinary64 hx.units_lt,
    BinaryFloat.integerPart_eq (BinaryFloat.value_nonneg hx.lower)]

theorem convertsTo_ofBinary64 (x : Binary64) :
    ConvertsTo integers x.datum (ofBinary64 x) := by
  apply ConvertsTo.of_checks isProper_binary64
  intro hnumber hfinite
  by_cases hbelow : x.LtInt 0
  · rw [if_pos hbelow]
    exact ConvertsTo.of_ltInt isProper_binary64 hnumber hfinite hbelow
  · rw [if_neg hbelow]
    by_cases hupper : x.LtInt (2 ^ 128)
    · have hx : x.IsWithin 0 (2 ^ 128) := ⟨hnumber, hfinite, hbelow, hupper⟩
      rw [if_neg (not_not_intro hupper)]
      exact ConvertsTo.of_isWithin isProper_binary64 hx (toNat_truncateBinary64_of_isWithin hx)
    · rw [if_pos hupper]
      exact ConvertsTo.of_not_ltInt isProper_binary64 hnumber hfinite hupper

/-- A finite narrow float has no upper limit to be compared with. -/
theorem convertsTo_ofBinary32 (x : Binary32) :
    ConvertsTo integers x.datum (ofBinary32 x) := by
  apply ConvertsTo.of_checks isProper_binary32
  intro hnumber hfinite
  by_cases hbelow : x.LtInt 0
  · rw [if_pos hbelow]
    exact ConvertsTo.of_ltInt isProper_binary32 hnumber hfinite hbelow
  · have hx := BinaryFloat.isWithin_convert hnumber hfinite hbelow
    rw [if_neg hbelow, ← BinaryFloat.datum_convert isProper_binary32 isProper_binary64
      (by decide) (by decide)]
    exact ConvertsTo.of_isWithin isProper_binary64 hx (toNat_truncateBinary64_of_isWithin hx)

end UInt128

namespace Int128

/-- The magnitude is shifted to its integer part, and the sign is put back. The least value
has a magnitude of its own as bits. -/
theorem toInt_truncateBinary64 {x : Binary64} (hx : x.IsWithin (-2 ^ 127) (2 ^ 127)) :
    (truncateBinary64 x).toInt = x.integerPart := by
  have habs : x.abs.IsWithin 0 (2 ^ 128) := hx.abs isProper_binary64
  have hunits : x.abs.units = x.units :=
    (BinaryFloat.hasUnits_abs isProper_binary64 hx.notNaN hx.finite).units
  have hmagnitude : (UInt128.truncateBinary64 x.abs).toNat =
      x.units / 2 ^ binary64.unitExponent := by
    rw [UInt128.toNat_truncateBinary64 habs.units_lt, hunits]
  have hrange : InRange x.integerPart := hx.integerPart_bounds (by decide)
  rw [truncateBinary64]
  by_cases hbelow : x.LtInt 0
  · rw [if_pos hbelow, toInt_mk_neg, hmagnitude, ← BinaryFloat.integerPart_of_ltInt hbelow,
      bmod_of_inRange hrange]
  · rw [if_neg hbelow, toInt_eq_bmod, hmagnitude,
      ← BinaryFloat.integerPart_eq (BinaryFloat.value_nonneg hbelow), bmod_of_inRange hrange]

theorem convertsTo_ofBinary64 (x : Binary64) :
    ConvertsTo integers x.datum (ofBinary64 x) := by
  apply ConvertsTo.of_checks isProper_binary64
  intro hnumber hfinite
  by_cases hbelow : x.LtInt (-2 ^ 127)
  · rw [if_pos (Or.inr hbelow)]
    exact ConvertsTo.of_ltInt isProper_binary64 hnumber hfinite hbelow
  by_cases hupper : x.LtInt (2 ^ 127)
  · have hx : x.IsWithin (-2 ^ 127) (2 ^ 127) := ⟨hnumber, hfinite, hbelow, hupper⟩
    rw [if_neg (not_or.mpr ⟨not_not_intro hupper, hbelow⟩)]
    exact ConvertsTo.of_isWithin isProper_binary64 hx (toInt_truncateBinary64 hx)
  · rw [if_pos (Or.inl hupper)]
    exact ConvertsTo.of_not_ltInt isProper_binary64 hnumber hfinite hupper

theorem ofBinary64_eq_min_iff (x : Binary64) :
    ofBinary64 x = .ok .min ↔ x.datum.value? = some (-2 ^ 127) := by
  have hlowest : integers.toInt min = integers.lower := by simp only [integers, toInt_min]
  have hnegative : integers.lower < 0 := by decide
  have hlower : ((-2 ^ 127 : Int) : ℚ) = -2 ^ 127 := by rw [Int.cast_neg, Int.cast_pow]; rfl
  rw [(convertsTo_ofBinary64 x).eq_iff, ConvertsTo.lowest_iff hlowest hnegative, integers, hlower]

end Int128

/-- The checked conversions of wide floats follow the rules for their type, for every pattern.
A value is had exactly by the floats within the type, and it is the one computed from their
fields. The least signed value comes from its own float and no other. A narrow float stands
for the same as the wide float it is widened to, and is converted as that one. -/
theorem BinaryFloat.floats_truncate_to_integers :
    (∀ (x : Binary64) (result : Except FloatError UInt128),
      UInt128.ofBinary64 x = result ↔ ConvertsTo UInt128.integers x.datum result) ∧
    (∀ (x : Binary64) (a : UInt128),
      UInt128.ofBinary64 x = .ok a ↔
        x.datum.IsWithin 0 (2 ^ 128) ∧ a = UInt128.truncateBinary64 x) ∧
    (∀ (x : Binary64) (result : Except FloatError Int128),
      Int128.ofBinary64 x = result ↔ ConvertsTo Int128.integers x.datum result) ∧
    (∀ (x : Binary64) (a : Int128),
      Int128.ofBinary64 x = .ok a ↔
        x.datum.IsWithin (-2 ^ 127) (2 ^ 127) ∧ a = Int128.truncateBinary64 x) ∧
    (∀ x : Binary64, Int128.ofBinary64 x = .ok .min ↔ x.datum.value? = some (-2 ^ 127)) ∧
    (∀ x : Binary32, (x.convert .binary64).datum = x.datum ∧
      UInt128.ofBinary32 x = UInt128.ofBinary64 (x.convert .binary64) ∧
      Int128.ofBinary32 x = Int128.ofBinary64 (x.convert .binary64)) := by
  refine ⟨fun x => (UInt128.convertsTo_ofBinary64 x).eq_iff, ?_,
    fun x => (Int128.convertsTo_ofBinary64 x).eq_iff, ?_, Int128.ofBinary64_eq_min_iff, ?_⟩
  · intro x
    exact (UInt128.convertsTo_ofBinary64 x).eq_ok_iff isProper_binary64
      UInt128.toNat_truncateBinary64_of_isWithin
  · intro x
    exact (Int128.convertsTo_ofBinary64 x).eq_ok_iff isProper_binary64
      Int128.toInt_truncateBinary64
  · intro x
    have hdatum : (x.convert .binary64).datum = x.datum :=
      datum_convert isProper_binary32 isProper_binary64 (by decide) (by decide)
    have hwide := UInt128.convertsTo_ofBinary64 (x.convert .binary64)
    rw [hdatum] at hwide
    exact ⟨hdatum, (UInt128.convertsTo_ofBinary32 x).unique hwide, rfl⟩

/-- The negative zero is not below zero. -/
example : UInt128.ofBinary64 (.ofPattern true 0) = .ok .zero := by decide +kernel

/-- The float `-2^127`, whose magnitude no signed value has. -/
example : Int128.ofBinary64 (.ofPattern true (1150 * 2 ^ 52)) = .ok .min := by decide +kernel

end TwoLimb
