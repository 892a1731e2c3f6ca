/-
# Exact conversions

Every type here is read as a set of integers, one for each of its values. A conversion
between two types is exact when it keeps the integer and is refused where the target has no
value for it, and only there. That settles what a conversion does: the target has no second
value to choose, so converting back and forth is the identity wherever both ways exist.

The library decides each conversion by a test of limbs. `isExact_of_test` asks of a test that
it finds the integers which the target does not hold. Truncating conversions test nothing.
They return the integer of the target with the same residue, and that is the integer itself
when the target holds it.
-/

import TwoLimb.Proofs.FixedWidth
import TwoLimb.Proofs.UInt128.Overflow
import TwoLimb.UInt128.Conversion

namespace TwoLimb

/-- The integers that the values of a type stand for. -/
structure IntegerReading (α : Type) where
  value : α → Int
  /-- The integers that the type holds. -/
  Holds : Int → Prop
  value_injective : Function.Injective value
  holds_iff_exists : ∀ n : Int, Holds n ↔ ∃ x, value x = n

section Exactness

variable {α β : Type} {source : IntegerReading α} {target : IntegerReading β}
  {convert : α → Except Error β}

/-- A conversion that returns the value of the same integer where the target has one, and is
refused elsewhere. -/
structure IsExactConversion (source : IntegerReading α) (target : IntegerReading β)
    (convert : α → Except Error β) : Prop where
  returns_iff : ∀ x, (∃ y, convert x = .ok y) ↔ target.Holds (source.value x)
  ok_iff : ∀ x y, convert x = .ok y ↔ target.value y = source.value x
  error_iff : ∀ x error,
    convert x = .error error ↔ error = .outOfRange ∧ ¬target.Holds (source.value x)

/-- A conversion is exact when its test refuses what the target does not hold, and the image
of everything else stands for the same integer. -/
theorem isExact_of_test (refused : α → Prop) [DecidablePred refused] (image : α → β)
    (hconvert : ∀ x, convert x = if refused x then .error .outOfRange else .ok (image x))
    (hrefused : ∀ x, refused x ↔ ¬target.Holds (source.value x))
    (himage : ∀ x, target.Holds (source.value x) → target.value (image x) = source.value x) :
    IsExactConversion source target convert := by
  have hok (x : α) (y : β) : convert x = .ok y ↔ target.value y = source.value x := by
    rw [hconvert]
    by_cases hx : refused x
    · rw [if_pos hx]
      refine iff_of_false nofun fun hvalue => (hrefused x).mp hx ?_
      exact (target.holds_iff_exists _).mpr ⟨y, hvalue⟩
    · have hvalue := himage x (not_not.mp (mt (hrefused x).mpr hx))
      rw [if_neg hx]
      constructor
      · rintro ⟨⟩
        exact hvalue
      · intro hy
        exact congrArg Except.ok (target.value_injective (hvalue.trans hy.symm))
  constructor
  case ok_iff => exact hok
  case returns_iff =>
    intro x
    rw [target.holds_iff_exists]
    exact exists_congr (hok x)
  case error_iff =>
    intro x error
    rw [hconvert, ← hrefused]
    by_cases hx : refused x
    · rw [if_pos hx, Except.error.injEq, eq_comm, and_iff_left hx]
    · rw [if_neg hx]
      exact iff_of_false nofun fun herror => hx herror.2

theorem refused_iff {test : Prop} [Decidable test] {y : β} :
    (if test then .error .outOfRange else .ok y) = Except.error Error.outOfRange ↔ test :=
  Ne.ite_eq_left_iff nofun

/-- Two exact conversions between the same types undo each other. -/
theorem IsExactConversion.round_trip {back : β → Except Error α}
    (hconvert : IsExactConversion source target convert)
    (hback : IsExactConversion target source back) (x : α) (y : β) :
    convert x = .ok y ↔ back y = .ok x := by
  rw [hconvert.ok_iff, hback.ok_iff, eq_comm]

end Exactness

/-- Machine integers, read as their type says. -/
def FixedWidth.reading (t : FixedWidth) : IntegerReading t.Value where
  value := t.toInt
  Holds := t.Holds
  value_injective := t.toInt_injective
  holds_iff_exists := t.holds_iff_exists

/-! ### Families -/

/-- The conversions between a 128-bit type and the machine's integers, truth values and
128-bit words. -/
structure ConversionFamily (α : Type) where
  ofFixedWidth (t : FixedWidth) : t.Value → Except Error α
  toFixedWidth (t : FixedWidth) : α → Except Error t.Value
  truncate (t : FixedWidth) : α → t.Value
  ofFlag : Bool → α
  ofWide : BitVec 128 → α
  toWide : α → BitVec 128

namespace ConversionFamily

variable {α : Type} {family : ConversionFamily α} {reading : IntegerReading α}
  {wide : IntegerReading (BitVec 128)}

/-- The conversions keep integers, or reduce them where they truncate. -/
structure AgreesWithIntegers (family : ConversionFamily α) (reading : IntegerReading α)
    (wide : IntegerReading (BitVec 128)) : Prop where
  ofFixedWidth : ∀ t : FixedWidth, IsExactConversion t.reading reading (family.ofFixedWidth t)
  toFixedWidth : ∀ t : FixedWidth, IsExactConversion reading t.reading (family.toFixedWidth t)
  /-- In and back out is the identity. -/
  round_trip : ∀ (t : FixedWidth) (x : t.Value) (a : α),
    family.ofFixedWidth t x = .ok a ↔ family.toFixedWidth t a = .ok x
  truncate : ∀ (t : FixedWidth) (a : α),
    t.toInt (family.truncate t a) = t.reduce (reading.value a)
  /-- Truncation loses nothing of a value that converts. -/
  truncate_eq : ∀ (t : FixedWidth) (a : α) (x : t.Value),
    family.toFixedWidth t a = .ok x → family.truncate t a = x
  ofFlag : ∀ flag : Bool, reading.value (family.ofFlag flag) = flag.toNat
  ofWide : ∀ w : BitVec 128, reading.value (family.ofWide w) = wide.value w
  toWide : ∀ a : α, wide.value (family.toWide a) = reading.value a
  wide_round_trip : ∀ (w : BitVec 128) (a : α), family.ofWide w = a ↔ family.toWide a = w

/-- A family agrees with integers when its checked conversions are exact and the others tell
the integer: what goes back and forth follows. -/
theorem agreesWithIntegers
    (hin : ∀ t, IsExactConversion t.reading reading (family.ofFixedWidth t))
    (hout : ∀ t, IsExactConversion reading t.reading (family.toFixedWidth t))
    (htruncate : ∀ (t : FixedWidth) (a : α), t.toInt (family.truncate t a) =
      t.reduce (reading.value a))
    (hflag : ∀ flag : Bool, reading.value (family.ofFlag flag) = flag.toNat)
    (hofWide : ∀ w, reading.value (family.ofWide w) = wide.value w)
    (htoWide : ∀ a, wide.value (family.toWide a) = reading.value a) :
    family.AgreesWithIntegers reading wide := by
  constructor
  case ofFixedWidth => exact hin
  case toFixedWidth => exact hout
  case round_trip => exact fun t x a => (hin t).round_trip (hout t) x a
  case truncate => exact htruncate
  case truncate_eq =>
    intro t a x hx
    have hholds : t.Holds (reading.value a) := ((hout t).returns_iff a).mp ⟨x, hx⟩
    have hvalue : t.toInt x = reading.value a := ((hout t).ok_iff a x).mp hx
    apply t.toInt_injective
    rw [htruncate, t.reduce_of_holds hholds, hvalue]
  case ofFlag => exact hflag
  case ofWide => exact hofWide
  case toWide => exact htoWide
  case wide_round_trip =>
    intro w a
    constructor
    · rintro rfl
      exact wide.value_injective ((htoWide _).trans (hofWide w))
    · rintro rfl
      exact reading.value_injective ((hofWide _).trans (htoWide a))

end ConversionFamily

/-! ### Unsigned integers -/

namespace UInt128

theorem value_injective : Function.Injective fun a : UInt128 => (a.toNat : Int) :=
  fun _ _ hvalue => ext_toNat (Int.ofNat_inj.mp hvalue)

theorem inRange_iff_exists (n : Int) : InRange n ↔ ∃ a : UInt128, (a.toNat : Int) = n := by
  constructor
  · rintro ⟨hlower, hupper⟩
    refine ⟨ofNat n.toNat, ?_⟩
    rw [toNat_ofNat]
    omega
  · rintro ⟨a, rfl⟩
    exact ⟨Int.natCast_nonneg _, by exact_mod_cast a.toNat_lt⟩

theorem inRange_iff_exists_wide (n : Int) : InRange n ↔ ∃ w : BitVec 128, (w.toNat : Int) = n := by
  constructor
  · rintro ⟨hlower, hupper⟩
    refine ⟨BitVec.ofNat 128 n.toNat, ?_⟩
    rw [BitVec.toNat_ofNat]
    omega
  · rintro ⟨w, rfl⟩
    exact ⟨Int.natCast_nonneg _, by exact_mod_cast w.isLt⟩

def reading : IntegerReading UInt128 where
  value a := a.toNat
  Holds := InRange
  value_injective := value_injective
  holds_iff_exists := inRange_iff_exists

/-- Words of 128 bits without a sign. -/
def wideReading : IntegerReading (BitVec 128) where
  value w := w.toNat
  Holds := InRange
  value_injective _ _ hvalue := BitVec.eq_of_toNat_eq (Int.ofNat_inj.mp hvalue)
  holds_iff_exists := inRange_iff_exists_wide

/-- The conversions of unsigned integers. -/
def conversions : ConversionFamily UInt128 where
  ofFixedWidth := ofFixedWidth
  toFixedWidth := toFixedWidth
  truncate := truncate
  ofFlag := ofFlag
  ofWide := ofWide
  toWide := toWide

theorem high_ne_zero_iff (a : UInt128) : a.high ≠ 0 ↔ 2 ^ 64 ≤ a.toNat := by
  have hlow := a.low.toNat_lt
  rw [ne_eq, ← UInt64.toNat_inj, UInt64.toNat_zero, toNat]
  omega

theorem toInt_truncate (t : FixedWidth) (a : UInt128) :
    t.toInt (a.truncate t) = t.reduce a.toNat := by
  rw [truncate, t.toInt_truncate]
  apply t.reduce_congr_limb
  rw [toNat]
  omega

/-- A machine integer that is not negative is the low limb. -/
theorem isExact_ofFixedWidth (t : FixedWidth) :
    IsExactConversion t.reading reading (ofFixedWidth t) := by
  have hwide := t.greatest_lt
  apply isExact_of_test (fun x => t.toInt x < 0) fun x => ofLimb (t.widen x)
  case hconvert => exact fun x => rfl
  case hrefused =>
    intro x
    obtain ⟨-, hgreatest⟩ := t.holds_toInt x
    change t.toInt x < 0 ↔ ¬InRange (t.toInt x)
    rw [InRange]
    omega
  case himage =>
    rintro x ⟨hnonneg, -⟩
    obtain ⟨-, hgreatest⟩ := t.holds_toInt x
    change ((ofLimb (t.widen x)).toNat : Int) = t.toInt x
    rw [toNat_ofLimb, t.toNat_widen]
    exact Int.emod_eq_of_lt hnonneg (Int.lt_of_le_of_lt hgreatest hwide)

/-- A value beyond the low limb is beyond every machine integer. -/
theorem isExact_toFixedWidth (t : FixedWidth) :
    IsExactConversion reading t.reading (toFixedWidth t) := by
  have hwide := t.greatest_lt
  have hleast := t.least_nonpos
  apply isExact_of_test (fun a => a.high ≠ 0 ∨ t.greatest < a.low.toNat) (truncate t)
  case hconvert => exact fun a => rfl
  case hrefused =>
    intro a
    have hlow := a.low.toNat_lt
    change _ ↔ ¬t.Holds a.toNat
    rw [high_ne_zero_iff, FixedWidth.Holds, toNat]
    omega
  case himage =>
    intro a hholds
    exact (toInt_truncate t a).trans (t.reduce_of_holds hholds)

theorem conversions_agreeWithIntegers : conversions.AgreesWithIntegers reading wideReading := by
  apply ConversionFamily.agreesWithIntegers
  case hin => exact isExact_ofFixedWidth
  case hout => exact isExact_toFixedWidth
  case htruncate => exact toInt_truncate
  case hflag =>
    intro flag
    cases flag <;> rfl
  case hofWide => exact fun w => congrArg Int.ofNat (toNat_ofWide w)
  case htoWide => exact fun a => congrArg Int.ofNat (toNat_toWide a)

end UInt128

end TwoLimb
