/-
# Exact engines

What an engine owes to its callers, said on the values of limbs and pairs and on
nothing else. A carry or a borrow is worth one more place, a product has all its
digits, a quotient comes with a remainder below the divisor. Every result is fixed
by its value and its flag, so two engines that keep these promises agree in every
result that a caller may ask for.
-/

import TwoLimb.Engine.Basic

namespace TwoLimb

/-- Quotient and remainder of an exact division: together they give the dividend back,
and the remainder is below the divisor. -/
def IsDivision (dividend divisor quotient remainder : Nat) : Prop :=
  dividend = quotient * divisor + remainder ∧ remainder < divisor

namespace IsDivision

variable {dividend divisor quotient remainder : Nat}

theorem quotient_eq (hdivision : IsDivision dividend divisor quotient remainder) :
    quotient = dividend / divisor := by
  obtain ⟨hvalue, hlt⟩ := hdivision
  rw [hvalue, Nat.mul_comm, Nat.mul_add_div (Nat.zero_lt_of_lt hlt), Nat.div_eq_of_lt hlt,
    Nat.add_zero]

theorem remainder_eq (hdivision : IsDivision dividend divisor quotient remainder) :
    remainder = dividend % divisor := by
  obtain ⟨hvalue, hlt⟩ := hdivision
  rw [hvalue, Nat.mul_add_mod', Nat.mod_eq_of_lt hlt]

theorem div_mod (dividend : Nat) {divisor : Nat} (hdivisor : 0 < divisor) :
    IsDivision dividend divisor (dividend / divisor) (dividend % divisor) :=
  ⟨(Nat.div_add_mod' dividend divisor).symm, Nat.mod_lt _ hdivisor⟩

end IsDivision

/-- The quotient of a pair fits a limb when its high limb is below the divisor. -/
theorem pair_div_lt {high low divisor : Limb} (hhigh : high < divisor) :
    (high.toNat * 2 ^ 64 + low.toNat) / divisor.toNat < 2 ^ 64 := by
  have hlow := low.toNat_lt
  have hlt : high.toNat + 1 ≤ divisor.toNat := UInt64.lt_iff_toNat_lt.mp hhigh
  rw [Nat.div_lt_iff_lt_mul (by omega)]
  calc
    high.toNat * 2 ^ 64 + low.toNat < (high.toNat + 1) * 2 ^ 64 := by omega
    _ ≤ divisor.toNat * 2 ^ 64 := Nat.mul_le_mul_right _ hlt
    _ = 2 ^ 64 * divisor.toNat := Nat.mul_comm _ _

/-- What a place holds of a sum, and the carry out of it, make up the sum. -/
theorem mod_add_carry {n place : Nat} (hn : n < 2 * place) :
    n % place + (decide (place ≤ n)).toNat * place = n := by
  by_cases hle : place ≤ n
  · rw [decide_eq_true hle, Bool.toNat_true, Nat.mod_eq_sub_mod hle,
      Nat.mod_eq_of_lt (by omega)]
    omega
  · rw [decide_eq_false hle, Bool.toNat_false, Nat.mod_eq_of_lt (by omega)]
    omega

/-- What a place holds of a difference, with the borrow out of it. -/
theorem sub_mod_add_borrow {a b place : Nat} (ha : a < place) (hb : b ≤ place) :
    (a + place - b) % place + b = a + (decide (a < b)).toNat * place := by
  by_cases hlt : a < b
  · rw [decide_eq_true hlt, Bool.toNat_true, Nat.mod_eq_of_lt (by omega)]
    omega
  · rw [decide_eq_false hlt, Bool.toNat_false, Nat.mod_eq_sub_mod (by omega),
      Nat.mod_eq_of_lt (by omega)]
    omega

/-- A result that is the exact division of two values. -/
def DivMod.Divides (result : DivMod UInt128) (dividend divisor : UInt128) : Prop :=
  IsDivision dividend.toNat divisor.toNat result.quotient.toNat result.remainder.toNat

/-- There is only one exact division of two values. -/
theorem DivMod.Divides.unique {one two : DivMod UInt128} {dividend divisor : UInt128}
    (hone : one.Divides dividend divisor) (htwo : two.Divides dividend divisor) :
    one = two := by
  have hquotient : one.quotient = two.quotient :=
    UInt128.ext_toNat ((IsDivision.quotient_eq hone).trans (IsDivision.quotient_eq htwo).symm)
  have hremainder : one.remainder = two.remainder :=
    UInt128.ext_toNat ((IsDivision.remainder_eq hone).trans (IsDivision.remainder_eq htwo).symm)
  cases one
  cases two
  exact congr (congrArg DivMod.mk hquotient) hremainder

/-- The obligations of limb primitives. -/
structure LimbOps.Exact (ops : LimbOps) : Prop where
  /-- The carry out of a limb sum is worth `2^64`. -/
  addWithCarry : ∀ (a b : Limb) (carry : Bool),
    (ops.addWithCarry a b carry).1.toNat + (ops.addWithCarry a b carry).2.toNat * 2 ^ 64 =
      a.toNat + b.toNat + carry.toNat
  /-- The borrow out of a limb difference is worth `2^64`. -/
  subWithBorrow : ∀ (a b : Limb) (borrow : Bool),
    (ops.subWithBorrow a b borrow).1.toNat + b.toNat + borrow.toNat =
      a.toNat + (ops.subWithBorrow a b borrow).2.toNat * 2 ^ 64
  /-- Nothing of a limb product is lost. -/
  wideningMul : ∀ a b : Limb, (ops.wideningMul a b).toNat = a.toNat * b.toNat
  /-- Where the quotient fits a limb, the division is exact. -/
  divPair : ∀ high low divisor : Limb, high < divisor →
    IsDivision (high.toNat * 2 ^ 64 + low.toNat) divisor.toNat
      (ops.divPair high low divisor).1.toNat (ops.divPair high low divisor).2.toNat

/-- The obligations of an engine: those of its primitives, and seven more on 128-bit
values. -/
structure Engine.Exact (e : Engine) : Prop extends e.toLimbOps.Exact where
  /-- The carry out of a sum is worth `2^128`. -/
  add : ∀ (a b : UInt128) (carry : Bool),
    (e.add a b carry).1.toNat + (e.add a b carry).2.toNat * 2 ^ 128 =
      a.toNat + b.toNat + carry.toNat
  /-- The borrow out of a difference is worth `2^128`. -/
  sub : ∀ (a b : UInt128) (borrow : Bool),
    (e.sub a b borrow).1.toNat + b.toNat + borrow.toNat =
      a.toNat + (e.sub a b borrow).2.toNat * 2 ^ 128
  /-- A product is kept modulo `2^128`. -/
  mul : ∀ a b : UInt128, (e.mul a b).toNat = a.toNat * b.toNat % 2 ^ 128
  /-- So is a flagged product. -/
  overflowingMul_value : ∀ a b : UInt128,
    (e.overflowingMul a b).1.toNat = a.toNat * b.toNat % 2 ^ 128
  /-- The flag says whether the product was cut. -/
  overflowingMul_flag : ∀ a b : UInt128,
    (e.overflowingMul a b).2 = decide (2 ^ 128 ≤ a.toNat * b.toNat)
  /-- A divisor that is not zero divides exactly. -/
  divMod : ∀ dividend divisor : UInt128, divisor ≠ .zero →
    (e.divMod dividend divisor).Divides dividend divisor
  /-- A left shift by less than 128 multiplies modulo `2^128`. -/
  shl : ∀ (value : UInt128) (amount : Nat), amount < 128 →
    (e.shl value amount).toNat = value.toNat * 2 ^ amount % 2 ^ 128
  /-- A right shift by less than 128 divides and rounds down. -/
  shr : ∀ (value : UInt128) (amount : Nat), amount < 128 →
    (e.shr value amount).toNat = value.toNat / 2 ^ amount

/-- Two engines give the same result, flags included, wherever the interface lets a
caller ask: the wide division needs its high limb below the divisor, the long one a
divisor that is not zero, and shifts an amount below 128. -/
structure Engine.Agrees (e f : Engine) : Prop where
  addWithCarry : ∀ (a b : Limb) (carry : Bool),
    e.addWithCarry a b carry = f.addWithCarry a b carry
  subWithBorrow : ∀ (a b : Limb) (borrow : Bool),
    e.subWithBorrow a b borrow = f.subWithBorrow a b borrow
  wideningMul : ∀ a b : Limb, e.wideningMul a b = f.wideningMul a b
  divPair : ∀ high low divisor : Limb, high < divisor →
    e.divPair high low divisor = f.divPair high low divisor
  add : ∀ (a b : UInt128) (carry : Bool), e.add a b carry = f.add a b carry
  sub : ∀ (a b : UInt128) (borrow : Bool), e.sub a b borrow = f.sub a b borrow
  mul : ∀ a b : UInt128, e.mul a b = f.mul a b
  overflowingMul : ∀ a b : UInt128, e.overflowingMul a b = f.overflowingMul a b
  divMod : ∀ dividend divisor : UInt128, divisor ≠ .zero →
    e.divMod dividend divisor = f.divMod dividend divisor
  shl : ∀ (value : UInt128) (amount : Nat), amount < 128 →
    e.shl value amount = f.shl value amount
  shr : ∀ (value : UInt128) (amount : Nat), amount < 128 →
    e.shr value amount = f.shr value amount

namespace Engine

/-- Words below a place with a flag worth that place are determined by the total. -/
private theorem flagged_ext {place x y : Nat} (first second : Bool)
    (hx : x < place) (hy : y < place)
    (htotal : x + first.toNat * place = y + second.toNat * place) :
    x = y ∧ first = second := by
  cases first <;> cases second <;>
    simp only [Bool.toNat_true, Bool.toNat_false, Nat.zero_mul, Nat.one_mul] at htotal
  · exact ⟨by omega, rfl⟩
  · omega
  · omega
  · exact ⟨by omega, rfl⟩

theorem addWithCarry_unique {one two : LimbOps} (hone : one.Exact) (htwo : two.Exact)
    (a b : Limb) (carry : Bool) : one.addWithCarry a b carry = two.addWithCarry a b carry := by
  obtain ⟨hvalue, hflag⟩ := flagged_ext (one.addWithCarry a b carry).2
    (two.addWithCarry a b carry).2 (UInt64.toNat_lt _) (UInt64.toNat_lt _)
    ((hone.addWithCarry a b carry).trans (htwo.addWithCarry a b carry).symm)
  exact Prod.ext (UInt64.toNat_inj.mp hvalue) hflag

/-- Exact limb primitives give the same difference and borrow. The flags change sides,
since a borrow is added to the minuend. -/
theorem subWithBorrow_unique {one two : LimbOps} (hone : one.Exact) (htwo : two.Exact)
    (a b : Limb) (borrow : Bool) :
    one.subWithBorrow a b borrow = two.subWithBorrow a b borrow := by
  have hfirst := hone.subWithBorrow a b borrow
  have hsecond := htwo.subWithBorrow a b borrow
  obtain ⟨hvalue, hflag⟩ := flagged_ext (two.subWithBorrow a b borrow).2
    (one.subWithBorrow a b borrow).2 (UInt64.toNat_lt (one.subWithBorrow a b borrow).1)
    (UInt64.toNat_lt (two.subWithBorrow a b borrow).1) (by omega)
  exact Prod.ext (UInt64.toNat_inj.mp hvalue) hflag.symm

theorem divPair_unique {one two : LimbOps} (hone : one.Exact) (htwo : two.Exact)
    {high low divisor : Limb} (hhigh : high < divisor) :
    one.divPair high low divisor = two.divPair high low divisor := by
  have hfirst := hone.divPair high low divisor hhigh
  have hsecond := htwo.divPair high low divisor hhigh
  exact Prod.ext
    (UInt64.toNat_inj.mp (hfirst.quotient_eq.trans hsecond.quotient_eq.symm))
    (UInt64.toNat_inj.mp (hfirst.remainder_eq.trans hsecond.remainder_eq.symm))

/-- Exact engines agree: every result is fixed by what it owes. -/
theorem Exact.agrees {e f : Engine} (he : e.Exact) (hf : f.Exact) : e.Agrees f where
  addWithCarry := addWithCarry_unique he.toExact hf.toExact
  subWithBorrow := subWithBorrow_unique he.toExact hf.toExact
  wideningMul a b := UInt128.ext_toNat ((he.wideningMul a b).trans (hf.wideningMul a b).symm)
  divPair _ _ _ hhigh := divPair_unique he.toExact hf.toExact hhigh
  add a b carry := by
    obtain ⟨hvalue, hflag⟩ := flagged_ext (e.add a b carry).2 (f.add a b carry).2
      (UInt128.toNat_lt _) (UInt128.toNat_lt _)
      ((he.add a b carry).trans (hf.add a b carry).symm)
    exact Prod.ext (UInt128.ext_toNat hvalue) hflag
  sub a b borrow := by
    have hfirst := he.sub a b borrow
    have hsecond := hf.sub a b borrow
    obtain ⟨hvalue, hflag⟩ := flagged_ext (f.sub a b borrow).2 (e.sub a b borrow).2
      (UInt128.toNat_lt (e.sub a b borrow).1) (UInt128.toNat_lt (f.sub a b borrow).1)
      (by omega)
    exact Prod.ext (UInt128.ext_toNat hvalue) hflag.symm
  mul a b := UInt128.ext_toNat ((he.mul a b).trans (hf.mul a b).symm)
  overflowingMul a b := Prod.ext
    (UInt128.ext_toNat ((he.overflowingMul_value a b).trans (hf.overflowingMul_value a b).symm))
    ((he.overflowingMul_flag a b).trans (hf.overflowingMul_flag a b).symm)
  divMod dividend divisor hdivisor :=
    (he.divMod dividend divisor hdivisor).unique (hf.divMod dividend divisor hdivisor)
  shl value amount hamount := UInt128.ext_toNat
    ((he.shl value amount hamount).trans (hf.shl value amount hamount).symm)
  shr value amount hamount := UInt128.ext_toNat
    ((he.shr value amount hamount).trans (hf.shr value amount hamount).symm)

end Engine

end TwoLimb
