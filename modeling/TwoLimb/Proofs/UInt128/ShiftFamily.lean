/-
# Families of shifts

A value is shifted by a 32-bit amount that is taken modulo 128 or refused from 128 on, or by
an operator whose amount has any of seven types. `ShiftFamily.AgreesWithExact` says what the
members of such a family owe to the integers. Values of both types and shifts in both
directions come under it, and one lemma derives it from two facts: what the wrapping member
and what the operator return.

The operators find the places in machine words. An amount is tested as a 64-bit word and
masked as a 32-bit one, and either may be cut from something wider. A cut amount passes only
if nothing was lost, so the test takes the integers from 0 to 127 and no others.
-/

import TwoLimb.InPlace.Update
import TwoLimb.Proofs.Engine.Agreement
import TwoLimb.Proofs.UInt128.Shift

namespace TwoLimb

/-! ### Amounts in machine words -/

namespace ShiftCount

/-- An amount as a 64-bit word. Narrower words are extended, a signed one with its sign, and
of a wide amount the low limb is taken. -/
def toLimb : ShiftCount → Limb
  | .byte n => n.toUInt64
  | .half n => n.toUInt64
  | .word n => n.toUInt64
  | .limb n => n
  | .size n => n
  | .int n => n.toInt64.toUInt64
  | .wide n => n.low

/-- An amount as a 32-bit word, of which the mask takes the lowest bits. -/
def toWord : ShiftCount → UInt32
  | .byte n => n.toUInt32
  | .half n => n.toUInt32
  | .word n => n
  | .limb n => n.toUInt32
  | .size n => n.toUInt32
  | .int n => n.toUInt32
  | .wide n => n.low.toUInt32

/-- Whether the 64-bit word is the amount: a sign or a high limb would not be in it. -/
def isWhole : ShiftCount → Bool
  | .int n => 0 ≤ n
  | .wide n => n.high == 0
  | _ => true

/-- The places of an amount as the operators find them: they test one word and mask
another. -/
def maskedPlaces? (amount : ShiftCount) : Option Nat :=
  if amount.isWhole = true ∧ amount.toLimb < 128 then some (UInt128.maskAmount amount.toWord)
  else none

variable {amount : ShiftCount}

theorem toNat_toLimb (hwhole : amount.isWhole = true) :
    (amount.toLimb.toNat : Int) = amount.toInt := by
  cases amount with
  | byte n => exact congrArg Nat.cast n.toNat_toUInt64
  | half n => exact congrArg Nat.cast n.toNat_toUInt64
  | word n => exact congrArg Nat.cast n.toNat_toUInt64
  | limb n | size n => rfl
  | int n =>
      have hn : 0 ≤ n.toInt := Int32.le_iff_toInt_le.mp (of_decide_eq_true hwhole)
      have hlong : 0 ≤ n.toInt64.toInt := by rwa [Int32.toInt_toInt64]
      change (n.toInt64.toUInt64.toNat : Int) = n.toInt
      rw [Int64.toNat_toUInt64_of_le (Int64.le_iff_toInt_le.mpr hlong), ← Int32.toInt_toInt64]
      exact Int.toNat_of_nonneg hlong
  | wide n =>
      have hhigh : n.high.toNat = 0 := UInt64.toNat_inj.mpr (eq_of_beq hwhole)
      change (n.low.toNat : Int) = (n.toNat : Int)
      rw [UInt128.toNat, hhigh, Nat.zero_mul, Nat.zero_add]

/-- The 32-bit word is what is left of the 64-bit one. -/
theorem toNat_toWord (hwhole : amount.isWhole = true) :
    amount.toWord.toNat = amount.toLimb.toNat % 2 ^ 32 := by
  cases amount with
  | byte n =>
      have hlt := n.toNat_lt
      change n.toUInt32.toNat = n.toUInt64.toNat % 2 ^ 32
      rw [UInt8.toNat_toUInt32, UInt8.toNat_toUInt64]
      omega
  | half n =>
      have hlt := n.toNat_lt
      change n.toUInt32.toNat = n.toUInt64.toNat % 2 ^ 32
      rw [UInt16.toNat_toUInt32, UInt16.toNat_toUInt64]
      omega
  | word n => exact (Nat.mod_eq_of_lt n.toNat_lt).symm
  | limb n | size n => exact n.toNat_toUInt32
  | int n =>
      have hn : 0 ≤ n := of_decide_eq_true hwhole
      have hvalue : (n.toNatClampNeg : Int) = n.toInt :=
        Int.toNat_of_nonneg (Int32.le_iff_toInt_le.mp hn)
      have hlimb : ((ShiftCount.int n).toLimb.toNat : Int) = n.toInt := toNat_toLimb hwhole
      have hlt := n.toInt_lt
      change n.toUInt32.toNat = (ShiftCount.int n).toLimb.toNat % 2 ^ 32
      rw [Int32.toNat_toUInt32_of_le hn]
      omega
  | wide n => exact n.low.toNat_toUInt32

/-- A negative amount and one with a high limb are no places. -/
theorem isWhole_of_isPlaces (hplaces : IsPlaces amount.toInt) : amount.isWhole = true := by
  cases amount with
  | byte n | half n | word n | limb n | size n => rfl
  | int n => exact decide_eq_true (Int32.le_iff_toInt_le.mpr hplaces.1)
  | wide n => exact beq_iff_eq.mpr ((wide_iff n).mpr hplaces).1

/-- The test of the 64-bit word takes the integers from 0 to 127, and the mask of the 32-bit
word then takes nothing away. -/
theorem maskedPlaces?_eq (amount : ShiftCount) : amount.maskedPlaces? = amount.places? := by
  have hlimit : (128 : Limb).toNat = 128 := rfl
  rw [places?_eq, maskedPlaces?]
  apply places_of_test
  · constructor
    · rintro ⟨hwhole, htest⟩
      rw [← toNat_toLimb hwhole, isPlaces_natCast]
      exact UInt64.lt_iff_toNat_lt.mp htest
    · intro hplaces
      have hwhole := isWhole_of_isPlaces hplaces
      rw [← toNat_toLimb hwhole, isPlaces_natCast] at hplaces
      exact ⟨hwhole, UInt64.lt_iff_toNat_lt.mpr hplaces⟩
  · rintro ⟨hwhole, htest⟩
    have hlt := UInt64.lt_iff_toNat_lt.mp htest
    rw [UInt128.maskAmount_eq, toNat_toWord hwhole, ← toNat_toLimb hwhole, Int.toNat_natCast]
    omega

end ShiftCount

/-! ### Families -/

/-- The shifts of values of one type in one direction. -/
structure ShiftFamily (α : Type) where
  /-- The shift by an amount modulo 128. -/
  wrapping : α → UInt32 → α
  /-- The shift that is refused from 128 on. -/
  checked : α → UInt32 → Option α
  /-- The operator, with amounts of any type. -/
  operator : α → ShiftCount → Except Fault α
  /-- The operator that assigns to its left operand. -/
  assigning : ShiftCount → InPlace.Update α Unit

/-- The members of a family agree on `a` with integers, and so with one another. Values are
read by `value`, and `exact` is the integer that a shift by a number of places owes. -/
structure ShiftFamily.AgreesWithExact {α : Type} (family : ShiftFamily α)
    (direction : Direction) (a : α) (value : α → Int) (exact : Nat → Int) : Prop where
  wrapping : ∀ amount : UInt32, value (family.wrapping a amount) = exact (amount.toNat % 128)
  checked_some : ∀ (amount : UInt32) (b : α),
    family.checked a amount = some b ↔ amount.toNat < 128 ∧ value b = exact amount.toNat
  checked_none : ∀ amount : UInt32, family.checked a amount = none ↔ 128 ≤ amount.toNat
  operator_ok : ∀ (amount : ShiftCount) (b : α),
    family.operator a amount = .ok b ↔
      IsPlaces amount.toInt ∧ value b = exact amount.toInt.toNat
  operator_error : ∀ (amount : ShiftCount) (fault : Fault),
    family.operator a amount = .error fault ↔
      ¬IsPlaces amount.toInt ∧ fault = direction.fault
  /-- What the operator returns is assigned, and nothing is when it faults. -/
  assigning_ok : ∀ (amount : ShiftCount) (b : α), family.operator a amount = .ok b →
    (family.assigning amount).on a = (.ok (), b)
  assigning_error : ∀ (amount : ShiftCount) (fault : Fault),
    family.operator a amount = .error fault →
      (family.assigning amount).on a = (.error fault, a)

section Answers

variable {α : Type} {value : α → Int} {answer : Except Fault α} {test : Prop} [Decidable test]
  {exact : Int} {refusal : Fault}

/-- An answer that has the exact value where a test passes is that value or a refusal. -/
theorem eq_ok_iff_of_map (hvalue : ∀ {b c : α}, value b = value c → b = c)
    (hanswer : answer.map value = if test then .ok exact else .error refusal) (b : α) :
    answer = .ok b ↔ test ∧ value b = exact := by
  by_cases htest : test
  · rw [if_pos htest] at hanswer
    cases answer with
    | error fault => cases hanswer
    | ok c =>
        have hc : value c = exact := Except.ok.inj hanswer
        constructor
        · rintro ⟨⟩
          exact ⟨htest, hc⟩
        · rintro ⟨_, hb⟩
          exact congrArg Except.ok (hvalue (hc.trans hb.symm))
  · rw [if_neg htest] at hanswer
    refine iff_of_false ?_ fun hb => htest hb.1
    rintro rfl
    cases hanswer

theorem eq_error_iff_of_map
    (hanswer : answer.map value = if test then .ok exact else .error refusal) (fault : Fault) :
    answer = .error fault ↔ ¬test ∧ fault = refusal := by
  by_cases htest : test
  · rw [if_pos htest] at hanswer
    refine iff_of_false ?_ fun hfault => hfault.1 htest
    rintro rfl
    cases hanswer
  · rw [if_neg htest] at hanswer
    cases answer with
    | ok c => cases hanswer
    | error reason =>
        cases hanswer
        constructor
        · rintro ⟨⟩
          exact ⟨htest, rfl⟩
        · rintro ⟨_, rfl⟩
          rfl

end Answers

/-- A family agrees with integers when its wrapping member and its operator do, and the other
members are made of these two. -/
theorem ShiftFamily.agreesWithExact {α : Type} {family : ShiftFamily α} {direction : Direction}
    {a : α} {value : α → Int} {exact : Nat → Int}
    (hvalue : ∀ {b c : α}, value b = value c → b = c)
    (hwrapping : ∀ amount : UInt32,
      value (family.wrapping a amount) = exact (amount.toNat % 128))
    (hchecked : ∀ amount : UInt32,
      family.checked a amount = if amount < 128 then some (family.wrapping a amount) else none)
    (hoperator : ∀ amount : ShiftCount,
      (family.operator a amount).map value =
        if IsPlaces amount.toInt then .ok (exact amount.toInt.toNat) else .error direction.fault)
    (hassigning : ∀ amount : ShiftCount,
      family.assigning amount = InPlace.assign fun b => family.operator b amount) :
    family.AgreesWithExact direction a value exact where
  wrapping := hwrapping
  checked_some amount b := by
    rw [hchecked]
    by_cases hamount : amount < 128
    · have hplaces : amount.toNat < 128 := UInt32.lt_iff_toNat_lt.mp hamount
      have hresult := hwrapping amount
      rw [Nat.mod_eq_of_lt hplaces] at hresult
      rw [if_pos hamount, Option.some_inj]
      constructor
      · rintro rfl
        exact ⟨hplaces, hresult⟩
      · rintro ⟨_, hb⟩
        exact hvalue (hresult.trans hb.symm)
    · rw [if_neg hamount]
      exact iff_of_false nofun fun hb => hamount (UInt32.lt_iff_toNat_lt.mpr hb.1)
  checked_none amount := by
    have hlimit : 128 ≤ amount.toNat ↔ ¬amount < 128 := by
      rw [← Nat.not_lt, UInt32.lt_iff_toNat_lt]
      rfl
    rw [hchecked, hlimit]
    by_cases hamount : amount < 128
    · rw [if_pos hamount]
      exact iff_of_false nofun (not_not_intro hamount)
    · rw [if_neg hamount]
      exact iff_of_true rfl hamount
  operator_ok amount := eq_ok_iff_of_map hvalue (hoperator amount)
  operator_error amount := eq_error_iff_of_map (hoperator amount)
  assigning_ok amount b hb := by
    rw [hassigning, InPlace.on_assign, hb]
  assigning_error amount fault hfault := by
    rw [hassigning, InPlace.on_assign, hfault]

namespace UInt128

/-- The shifts of unsigned values. -/
def shifts : Direction → ShiftFamily UInt128
  | .left =>
      { wrapping := wrappingShl
        checked := shl?
        operator := fun a => a.shiftBy .left
        assigning := InPlace.shift .left }
  | .right =>
      { wrapping := wrappingShr
        checked := shr?
        operator := fun a => a.shiftBy .right
        assigning := InPlace.shift .right }

/-- The shift of an engine by less than 128 places. -/
def engineShift (engine : Engine) (a : UInt128) : Direction → Nat → UInt128
  | .left => engine.shl a
  | .right => engine.shr a

section Members

variable (direction : Direction) (a : UInt128)

theorem shifts_wrapping (amount : UInt32) :
    (shifts direction).wrapping a amount = a.shift direction (maskAmount amount) := by
  cases direction <;> rfl

theorem shifts_checked (amount : UInt32) :
    (shifts direction).checked a amount =
      if amount < 128 then some (a.shift direction amount.toNat) else none := by
  cases direction <;> rfl

theorem shifts_operator (amount : ShiftCount) :
    (shifts direction).operator a amount = a.shiftBy direction amount := by
  cases direction <;> rfl

theorem shifts_assigning (amount : ShiftCount) :
    (shifts direction).assigning amount =
      InPlace.assign fun b => (shifts direction).operator b amount := by
  cases direction <;> rfl

end Members

/-- The mask takes nothing away from an amount below 128. -/
theorem maskAmount_of_lt {amount : UInt32} (hamount : amount < 128) :
    maskAmount amount = amount.toNat := by
  rw [maskAmount_eq]
  exact Nat.mod_eq_of_lt (UInt32.lt_iff_toNat_lt.mp hamount)

/-- Either family agrees with the shifted integers modulo `2^128`. -/
theorem shifts_agreeWithExact (direction : Direction) (a : UInt128) :
    (shifts direction).AgreesWithExact direction a (fun b => (b.toNat : Int))
      fun places => direction.exact a.toNat places % 2 ^ 128 := by
  apply ShiftFamily.agreesWithExact
  · intro b c hvalue
    exact ext_toNat (Int.ofNat_inj.mp hvalue)
  · intro amount
    rw [shifts_wrapping, ← maskAmount_eq]
    exact toNat_shift a direction (maskAmount_lt amount)
  · intro amount
    rw [shifts_checked, shifts_wrapping]
    by_cases hamount : amount < 128
    · rw [if_pos hamount, if_pos hamount, maskAmount_of_lt hamount]
    · rw [if_neg hamount, if_neg hamount]
  · intro amount
    rw [shifts_operator, map_toNat_shiftBy, Direction.map_exactBy]
  · intro amount
    exact shifts_assigning direction amount

/-- Whichever engine is selected, it shifts the same. -/
theorem engineShift_eq (strategy : Strategy) (a : UInt128) (direction : Direction) {places : Nat}
    (hplaces : places < 128) :
    engineShift strategy.engine a direction places = a.shift direction places := by
  have hagrees := strategy.exact_engine.agrees Engine.exact_portable
  cases direction with
  | left => exact hagrees.shl a places hplaces
  | right => exact hagrees.shr a places hplaces

/-- A shift to the left multiplies modulo `2^128`, and one to the right divides and rounds
down. Every member of a family gives this value, whatever the type of its amount. An amount
is taken modulo 128, flagged or refused from 128 on, and it is a fault of the direction for an
operator if it is not one of 0 to 127. -/
theorem shifts_multiply_and_divide (a : UInt128) :
    (shifts .left).AgreesWithExact .left a (fun b => (b.toNat : Int))
        (fun places => ((a.toNat * 2 ^ places % 2 ^ 128 : Nat) : Int)) ∧
      (shifts .right).AgreesWithExact .right a (fun b => (b.toNat : Int))
        (fun places => ((a.toNat / 2 ^ places : Nat) : Int)) ∧
      (∀ amount : UInt32,
        a.overflowingShl amount = (a.wrappingShl amount, decide (128 ≤ amount.toNat)) ∧
          a.overflowingShr amount = (a.wrappingShr amount, decide (128 ≤ amount.toNat))) ∧
      (∀ amount : ShiftCount, amount.maskedPlaces? = amount.places?) ∧
      (∀ (strategy : Strategy) (direction : Direction) (places : Nat), places < 128 →
        engineShift strategy.engine a direction places = a.shift direction places) ∧
      Direction.left.fault.message = "attempt to shift left with overflow" ∧
      Direction.right.fault.message = "attempt to shift right with overflow" := by
  refine ⟨?_, ?_, ?_, ShiftCount.maskedPlaces?_eq, ?_, rfl, rfl⟩
  · rw [← funext (exact_left_emod a)]
    exact shifts_agreeWithExact .left a
  · rw [← funext (exact_right_emod a)]
    exact shifts_agreeWithExact .right a
  · intro amount
    exact ⟨rfl, rfl⟩
  · intro strategy direction places hplaces
    exact engineShift_eq strategy a direction hplaces

end UInt128

end TwoLimb
