/-
# Machine integers among the integers

A machine integer type holds an interval of as many integers as it has bit patterns. Its
bits tell the integer up to a multiple of that number, and the interval has one integer of
every residue. So an integer of the type is known by its residue, and every change of width
is settled by two facts: which residue the new bits have and which interval they are read in.
-/

import TwoLimb.FixedWidth
import Mathlib.Algebra.Order.Ring.Int

namespace TwoLimb.FixedWidth

variable (t : FixedWidth)

/-- The integer of the type that differs by a multiple of `2 ^ bits`: the lowest bits, read
as two's complement where the type is signed. -/
def reduce (n : Int) : Int := (n - t.least) % 2 ^ t.bits + t.least

/-! ### The interval of a type -/

theorem greatest_eq : t.greatest = t.least + 2 ^ t.bits - 1 := by
  obtain ⟨signed, width⟩ := t
  cases signed <;> cases width <;> rfl

/-- Zero belongs to every type. -/
theorem least_nonpos : t.least ≤ 0 := by
  obtain ⟨signed, width⟩ := t
  cases signed <;> cases width <;> decide

theorem bits_le : t.bits ≤ 64 := by
  obtain ⟨signed, width⟩ := t
  cases signed <;> cases width <;> decide

/-- No type is wider than a limb. -/
theorem greatest_lt : t.greatest < 2 ^ 64 := by
  obtain ⟨signed, width⟩ := t
  cases signed <;> cases width <;> decide

/-- No type goes further below zero than a signed limb. -/
theorem le_least : -2 ^ 63 ≤ t.least := by
  obtain ⟨signed, width⟩ := t
  cases signed <;> cases width <;> decide

theorem greatest_lt_of_signed (hsigned : t.signed = true) : t.greatest < 2 ^ 63 := by
  obtain ⟨signed, width⟩ := t
  cases hsigned
  cases width <;> decide

theorem least_of_unsigned (hsigned : ¬t.signed = true) : t.least = 0 := if_neg hsigned

theorem holds_iff_lt {n : Int} : t.Holds n ↔ t.least ≤ n ∧ n < t.least + 2 ^ t.bits := by
  rw [Holds, greatest_eq]
  omega

/-! ### Residues -/

theorem reduce_of_holds {n : Int} (hn : t.Holds n) : t.reduce n = n := by
  obtain ⟨hleast, hgreatest⟩ := t.holds_iff_lt.mp hn
  rw [reduce, Int.emod_eq_of_lt (Int.sub_nonneg_of_le hleast) (by omega)]
  omega

theorem reduce_congr {m n : Int} (hsame : m % 2 ^ t.bits = n % 2 ^ t.bits) :
    t.reduce m = t.reduce n := by
  rw [reduce, reduce, (Int.emod_sub_cancel_right t.least).mpr hsame]

/-- What agrees in the bits of a limb agrees in those of every type. -/
theorem reduce_congr_limb {m n : Int} (hsame : m % 2 ^ 64 = n % 2 ^ 64) :
    t.reduce m = t.reduce n := by
  have hdvd : (2 : Int) ^ t.bits ∣ 2 ^ 64 := pow_dvd_pow 2 t.bits_le
  apply t.reduce_congr
  rw [← Int.emod_emod_of_dvd m hdvd, hsame, Int.emod_emod_of_dvd n hdvd]

/-! ### The integers of values -/

/-- The bits of a value are the residue of its integer. -/
theorem toInt_emod (x : t.Value) : t.toInt x % 2 ^ t.bits = x.toNat := by
  have hx : (x.toNat : Int) < 2 ^ t.bits := by exact_mod_cast x.isLt
  have hresidue : (x.toNat : Int) % 2 ^ t.bits = x.toNat :=
    Int.emod_eq_of_lt (Int.natCast_nonneg _) hx
  rw [toInt]
  split
  · have hpower : (2 : Int) ^ t.bits = ((2 ^ t.bits : Nat) : Int) := by push_cast; rfl
    rw [BitVec.toInt_eq_toNat_bmod, hpower, Int.bmod_emod, ← hpower, hresidue]
  · exact hresidue

theorem holds_toInt (x : t.Value) : t.Holds (t.toInt x) := by
  rw [Holds, toInt, least, greatest]
  split
  · have hlt : x.toInt < 2 ^ (t.bits - 1) := x.toInt_lt
    exact ⟨x.le_toInt, Int.le_sub_one_of_lt hlt⟩
  · have hlt : (x.toNat : Int) < 2 ^ t.bits := by exact_mod_cast x.isLt
    exact ⟨Int.natCast_nonneg _, Int.le_sub_one_of_lt hlt⟩

theorem toInt_injective : Function.Injective t.toInt := by
  intro x y hvalue
  apply BitVec.eq_of_toNat_eq
  have hresidue := t.toInt_emod x
  rw [hvalue, t.toInt_emod y] at hresidue
  exact Int.ofNat_inj.mp hresidue.symm

/-- Bits with the residue of an integer stand for that integer reduced. -/
theorem toInt_eq_reduce {x : t.Value} {n : Int} (hbits : (x.toNat : Int) = n % 2 ^ t.bits) :
    t.toInt x = t.reduce n := by
  rw [← t.reduce_of_holds (t.holds_toInt x)]
  apply t.reduce_congr
  rw [t.toInt_emod, hbits]

theorem toInt_ofInt (n : Int) : t.toInt (t.ofInt n) = t.reduce n := by
  apply t.toInt_eq_reduce
  rw [ofInt, BitVec.toNat_ofInt]
  push_cast
  exact Int.toNat_of_nonneg (Int.emod_nonneg n (pow_ne_zero t.bits (by decide)))

/-- The integers of a type are those that its values stand for. -/
theorem holds_iff_exists (n : Int) : t.Holds n ↔ ∃ x : t.Value, t.toInt x = n := by
  constructor
  · intro hn
    exact ⟨t.ofInt n, by rw [toInt_ofInt, t.reduce_of_holds hn]⟩
  · rintro ⟨x, rfl⟩
    exact t.holds_toInt x

/-! ### Limbs -/

/-- The lowest bits of a limb. -/
theorem toInt_truncate (x : Limb) : t.toInt (t.truncate x) = t.reduce x.toNat := by
  apply t.toInt_eq_reduce
  rw [truncate, BitVec.toNat_setWidth, UInt64.toNat_toBitVec]
  push_cast
  rfl

example : toInt ⟨true, .w8⟩ (truncate ⟨true, .w8⟩ 200) = -56 := by decide

/-- A widened value has the residue of its integer. -/
theorem toNat_widen (x : t.Value) : ((t.widen x).toNat : Int) = t.toInt x % 2 ^ 64 := by
  have hdouble : 2 ^ t.bits ≤ 2 ^ 64 := Nat.pow_le_pow_right (by decide) t.bits_le
  have hx := x.isLt
  rw [widen, toInt, UInt64.toNat_ofBitVec]
  split
  · rw [BitVec.signExtend, BitVec.toNat_ofInt]
    push_cast
    exact Int.toNat_of_nonneg (Int.emod_nonneg _ (by decide))
  · rw [BitVec.toNat_setWidth]
    omega

/-- A signed value is widened to the same signed limb. -/
theorem toInt_widen (hsigned : t.signed = true) (x : t.Value) :
    (t.widen x).toInt64.toInt = t.toInt x := by
  have hwide : (t.widen x).toInt64.toInt = (t.widen x).toBitVec.toInt := rfl
  rw [hwide, widen, toInt, if_pos hsigned, if_pos hsigned, UInt64.toBitVec_ofBitVec,
    BitVec.toInt_signExtend_of_le t.bits_le]

end TwoLimb.FixedWidth
