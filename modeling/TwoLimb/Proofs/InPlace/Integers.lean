/-
# Register arithmetic on integers

The bits of a register are read as an integer in one of two ways, without a sign or as
two's complement. Under either reading the arithmetic of a register is that of the
integers, followed by one reduction to the integers that are read for some bits. So both
types of registers come under one statement, `Reads`, although they divide and shift in
different ways.

Logical operations are those of the integers with infinitely many binary digits; they act
on every digit alone, so on the lowest 128 digits as well.
-/

import Mathlib.Data.Int.Bitwise
import TwoLimb.InPlace.Update
import TwoLimb.Proofs.Int128.Division
import TwoLimb.Proofs.Int128.Shift
import TwoLimb.Proofs.UInt128.Division

namespace TwoLimb.InPlace

/-- The two ways to read bits as an integer. -/
inductive View
  | unsigned
  | signed
deriving DecidableEq

/-- The integer that is read for the bits of an integer, modulo `2^128`. -/
def View.reduce : View → Int → Int
  | .unsigned, n => n % 2 ^ 128
  | .signed, n => n.bmod (2 ^ 128)

/-- What an operator makes of two integers. -/
def Operator.exact : Operator → Int → Int → Except Fault Int
  | .add, x, y => .ok (x + y)
  | .sub, x, y => .ok (x - y)
  | .mul, x, y => .ok (x * y)
  | .div, x, y => if y = 0 then .error .divisionByZero else .ok (x.tdiv y)
  | .rem, x, y => if y = 0 then .error .remainderByZero else .ok (x.tmod y)
  | .and, x, y => .ok (x.land y)
  | .or, x, y => .ok (x.lor y)
  | .xor, x, y => .ok (x.xor y)

/-- Arithmetic that is the arithmetic of the integers, with results reduced, when its values
are read as integers. -/
structure Reads {α : Type} [Arithmetic α] (view : View) (value : α → Int) : Prop where
  ofBits : ∀ bits : UInt128, value (Arithmetic.ofBits bits) = view.reduce bits.toNat
  one : value Arithmetic.one = 1
  operate : ∀ (operator : Operator) (a b : α),
    (Arithmetic.operate operator a b).map value =
      (operator.exact (value a) (value b)).map view.reduce
  shift : ∀ (a : α) (direction : Direction) (amount : ShiftCount),
    (Arithmetic.shift a direction amount).map value =
      (direction.exactBy (value a) amount.toInt).map view.reduce

section Digits

/-- The bits of an integer are its lowest 128 binary digits. -/
theorem testBit_toNat_emod (n : Int) (i : Nat) :
    (n % 2 ^ 128).toNat.testBit i = (decide (i < 128) && n.testBit i) := by
  cases n with
  | ofNat n =>
      have hbits : (Int.ofNat n % 2 ^ 128).toNat = n % 2 ^ 128 := rfl
      rw [hbits, Nat.testBit_mod_two_pow]
      rfl
  | negSucc n =>
      have hlt : n % 2 ^ 128 < 2 ^ 128 := Nat.mod_lt n (by decide)
      have hbits : (Int.negSucc n % 2 ^ 128).toNat = 2 ^ 128 - (n % 2 ^ 128 + 1) := by
        rw [Int.negSucc_emod n (by decide)]
        omega
      have hdigit : (Int.negSucc n).testBit i = !n.testBit i := rfl
      rw [hbits, hdigit, Nat.testBit_two_pow_sub_succ hlt, Nat.testBit_mod_two_pow]
      cases decide (i < 128) <;> rfl

/-- What is done digit by digit to two integers is done digit by digit to their bits. -/
theorem bitwise_emod {f : Bool → Bool → Bool} (hf : f false false = false) {x y : Int}
    {a b : Nat} (ha : (a : Int) = x % 2 ^ 128) (hb : (b : Int) = y % 2 ^ 128) :
    (Nat.bitwise f a b : Int) = Int.bitwise f x y % 2 ^ 128 := by
  have hnonneg : 0 ≤ Int.bitwise f x y % 2 ^ 128 := Int.emod_nonneg _ (by decide)
  rw [← Int.toNat_of_nonneg hnonneg, Int.ofNat_inj]
  apply Nat.eq_of_testBit_eq
  intro i
  have ha : a = (x % 2 ^ 128).toNat := by omega
  have hb : b = (y % 2 ^ 128).toNat := by omega
  rw [Nat.testBit_bitwise hf, ha, hb, testBit_toNat_emod, testBit_toNat_emod, testBit_toNat_emod,
    Int.testBit_bitwise]
  cases decide (i < 128) with
  | true => rfl
  | false => exact hf

end Digits

/-- The logical operators on bits are those of the integers that the bits are read as. -/
structure ActsOnDigits (a b : UInt128) (x y : Int) : Prop where
  and : ((a &&& b).toNat : Int) = x.land y % 2 ^ 128
  or : ((a ||| b).toNat : Int) = x.lor y % 2 ^ 128
  xor : ((a ^^^ b).toNat : Int) = x.xor y % 2 ^ 128

theorem actsOnDigits {a b : UInt128} {x y : Int} (ha : (a.toNat : Int) = x % 2 ^ 128)
    (hb : (b.toNat : Int) = y % 2 ^ 128) : ActsOnDigits a b x y where
  and := by
    rw [UInt128.toNat_and, ← Int.bitwise_and]
    exact bitwise_emod rfl ha hb
  or := by
    rw [UInt128.toNat_or, ← Int.bitwise_or]
    exact bitwise_emod rfl ha hb
  xor := by
    rw [UInt128.toNat_xor, ← Int.bitwise_xor]
    exact bitwise_emod rfl ha hb

/-- Only a divisor that is read as zero is refused. -/
theorem map_of_divisor {α : Type} {value : α → Int} {reduce : Int → Int} {divisor result : Int}
    {fault : Fault} {answer : Except Fault α} (hzero : divisor = 0 → answer = .error fault)
    (hanswer : divisor ≠ 0 → ∃ a, answer = .ok a ∧ value a = reduce result) :
    answer.map value =
      (if divisor = 0 then .error fault else .ok result : Except Fault Int).map reduce := by
  by_cases hdivisor : divisor = 0
  · rw [hzero hdivisor, if_pos hdivisor]
    rfl
  · obtain ⟨a, rfl, hvalue⟩ := hanswer hdivisor
    rw [if_neg hdivisor]
    exact congrArg Except.ok hvalue

section Unsigned

variable (a b : UInt128)

/-- Without a sign, bits are read as they are. -/
theorem reduce_unsigned : View.unsigned.reduce a.toNat = a.toNat := by
  have hlt := a.toNat_lt
  exact Int.emod_eq_of_lt (Int.natCast_nonneg _) (by omega)

theorem toNat_divMod {b : UInt128} (hb : b ≠ .zero) :
    ((a.divMod b).quotient.toNat : Int) = View.unsigned.reduce ((a.toNat : Int).tdiv b.toNat) ∧
      ((a.divMod b).remainder.toNat : Int) =
        View.unsigned.reduce ((a.toNat : Int).tmod b.toNat) := by
  have hdivides := UInt128.divides_divMod a hb
  rw [← reduce_unsigned (a.divMod b).quotient, ← reduce_unsigned (a.divMod b).remainder,
    IsDivision.quotient_eq hdivides, IsDivision.remainder_eq hdivides]
  exact ⟨rfl, rfl⟩

/-- Read without a sign, the operators are those of the integers. -/
theorem map_operate_unsigned (operator : Operator) :
    (Arithmetic.operate operator a b).map (fun value => (value.toNat : Int)) =
      (operator.exact a.toNat b.toNat).map View.unsigned.reduce := by
  have ha := a.toNat_lt
  have hb := b.toNat_lt
  have hdigits : ActsOnDigits a b a.toNat b.toNat := actsOnDigits (by omega) (by omega)
  have hzero (hdivisor : (b.toNat : Int) = 0) : b = .zero :=
    UInt128.toNat_inj.mp (Int.natCast_eq_zero.mp hdivisor)
  have hanswers (hdivisor : (b.toNat : Int) ≠ 0) :
      b ≠ .zero ∧ UInt128.AnswersEverywhere a b (a.divMod b) := by
    have hne : b ≠ .zero := fun hb => hdivisor (congrArg (fun b => (UInt128.toNat b : Int)) hb)
    exact ⟨hne, UInt128.answersEverywhere hne (UInt128.divides_divMod a hne)⟩
  cases operator with
  | add =>
      apply congrArg Except.ok
      change ((a + b).toNat : Int) = ((a.toNat : Int) + b.toNat) % 2 ^ 128
      rw [UInt128.toNat_add]
      rfl
  | sub =>
      apply congrArg Except.ok
      change ((a - b).toNat : Int) = ((a.toNat : Int) - b.toNat) % 2 ^ 128
      rw [UInt128.toNat_sub]
      omega
  | mul =>
      apply congrArg Except.ok
      change ((a * b).toNat : Int) = ((a.toNat : Int) * b.toNat) % 2 ^ 128
      have hproduct : (a * b).toNat = a.toNat * b.toNat % 2 ^ 128 := Engine.exact_portable.mul a b
      rw [hproduct]
      rfl
  | div =>
      apply map_of_divisor
      · intro hdivisor
        rw [hzero hdivisor]
        exact (UInt128.refusedEverywhere a).div.value
      · intro hdivisor
        obtain ⟨hne, hanswers⟩ := hanswers hdivisor
        exact ⟨_, hanswers.div, (toNat_divMod a hne).1⟩
  | rem =>
      apply map_of_divisor
      · intro hdivisor
        rw [hzero hdivisor]
        exact (UInt128.refusedEverywhere a).rem.value
      · intro hdivisor
        obtain ⟨hne, hanswers⟩ := hanswers hdivisor
        exact ⟨_, hanswers.rem, (toNat_divMod a hne).2⟩
  | and => exact congrArg Except.ok hdigits.and
  | or => exact congrArg Except.ok hdigits.or
  | xor => exact congrArg Except.ok hdigits.xor

/-- Read without a sign, a shift operator is that of the integers. -/
theorem map_shift_unsigned (direction : Direction) (amount : ShiftCount) :
    (Arithmetic.shift a direction amount).map (fun value => (value.toNat : Int)) =
      (direction.exactBy a.toNat amount.toInt).map View.unsigned.reduce :=
  a.map_toNat_shiftBy direction amount

end Unsigned

/-- The arithmetic of unsigned registers is that of the integers modulo `2^128`. -/
theorem reads_unsigned : Reads .unsigned (fun value : UInt128 => (value.toNat : Int)) where
  ofBits bits := (reduce_unsigned bits).symm
  one := rfl
  operate operator a b := map_operate_unsigned a b operator
  shift := map_shift_unsigned

section Signed

variable (a b : Int128)

/-- Read as two's complement, the operators are those of the integers. -/
theorem map_operate_signed (operator : Operator) :
    (Arithmetic.operate operator a b).map Int128.toInt =
      (operator.exact a.toInt b.toInt).map View.signed.reduce := by
  have hdigits : ActsOnDigits a.bits b.bits a.toInt b.toInt :=
    actsOnDigits a.toNat_bits_eq_emod b.toNat_bits_eq_emod
  have hzero (hdivisor : b.toInt = 0) : b = .zero :=
    Int128.toInt_inj.mp (hdivisor.trans Int128.toInt_zero.symm)
  have hne (hdivisor : b.toInt ≠ 0) : b ≠ .zero := fun hb => by
    rw [hb] at hdivisor
    exact hdivisor Int128.toInt_zero
  cases operator with
  | add => exact congrArg Except.ok (a.toInt_add b)
  | sub => exact congrArg Except.ok (a.toInt_sub b)
  | mul => exact congrArg Except.ok (a.toInt_mul b)
  | div =>
      apply map_of_divisor
      · intro hdivisor
        rw [hzero hdivisor]
        exact a.refuses_zero.div
      · intro hdivisor
        have hb := hne hdivisor
        exact ⟨_, (a.answersWrapped hb).div, (a.toInt_divMod hb).1⟩
  | rem =>
      apply map_of_divisor
      · intro hdivisor
        rw [hzero hdivisor]
        exact a.refuses_zero.rem
      · intro hdivisor
        have hb := hne hdivisor
        exact ⟨_, (a.answersWrapped hb).rem, (a.toInt_divMod hb).2⟩
  | and => exact congrArg Except.ok (Int128.toInt_eq_bmod_of_emod hdigits.and)
  | or => exact congrArg Except.ok (Int128.toInt_eq_bmod_of_emod hdigits.or)
  | xor => exact congrArg Except.ok (Int128.toInt_eq_bmod_of_emod hdigits.xor)

end Signed

/-- The arithmetic of signed registers is that of the integers modulo `2^128`, read as two's
complement. -/
theorem reads_signed : Reads .signed Int128.toInt where
  ofBits bits := Int128.toInt_eq_bmod ⟨bits⟩
  one := by decide
  operate operator a b := map_operate_signed a b operator
  shift := Int128.map_toInt_shiftBy

end TwoLimb.InPlace
