/-
# Unsigned overflow against the integers

Sums, differences and products of unsigned values are integers that may lie outside the
128 bits, differences below and the others above. `Reduces` says what a flagged result owes
to the exact integer, whichever side it leaves on. Every other member of a family reads the
flagged result, so what each of them owes follows from that one fact.

The flagged result itself comes from the exactness of the engines. A carry or a borrow is
worth one modulus, and the flag of a product is the one its five partial conditions make.
The operations are those of the signed families, quantified over in the same way.
-/

import TwoLimb.Proofs.Int128.Overflow

namespace TwoLimb.UInt128

open Int128 (Operation)

/-- The integers that unsigned values stand for. -/
def InRange (n : Int) : Prop := 0 ≤ n ∧ n < 2 ^ 128

instance (n : Int) : Decidable (InRange n) := inferInstanceAs (Decidable (_ ∧ _))

/-- The unsigned value nearest to an integer. -/
def clamp (n : Int) : Int := Max.max 0 (Min.min n (2 ^ 128 - 1))

/-- A flagged result of an operation with the given exact result: the value is the exact
result modulo `2^128`, and the flag is set exactly when that is not the exact result. -/
structure Reduces (result : UInt128 × Bool) (exact : Int) : Prop where
  value : (result.1.toNat : Int) = exact % 2 ^ 128
  flag : result.2 = true ↔ ¬InRange exact

namespace Family

/-- The flagged operation of an engine. -/
def flagged (engine : Engine) : Operation → UInt128 → UInt128 → UInt128 × Bool
  | .add, a, b => engine.add a b false
  | .sub, a, b => engine.sub a b false
  | .mul, a, b => engine.overflowingMul a b

def overflowing : Operation → UInt128 → UInt128 → UInt128 × Bool
  | .add => overflowingAdd
  | .sub => overflowingSub
  | .mul => overflowingMul

def wrapping : Operation → UInt128 → UInt128 → UInt128
  | .add => UInt128.add
  | .sub => UInt128.sub
  | .mul => UInt128.mul

def operator : Operation → UInt128 → UInt128 → UInt128
  | .add => (· + ·)
  | .sub => (· - ·)
  | .mul => (· * ·)

def checked : Operation → UInt128 → UInt128 → Option UInt128
  | .add => add?
  | .sub => sub?
  | .mul => mul?

def saturating : Operation → UInt128 → UInt128 → UInt128
  | .add => saturatingAdd
  | .sub => saturatingSub
  | .mul => saturatingMul

/-- The end of the range on the side where results of an operation leave it. -/
def bound : Operation → UInt128
  | .add => max
  | .sub => zero
  | .mul => max

/-- The members of a family agree with the exact result of the operation on `a` and `b`,
and so with one another. -/
structure AgreesWithExact (op : Operation) (a b : UInt128) : Prop where
  overflowing : Reduces (overflowing op a b) (op.exact a.toNat b.toNat)
  /-- Whichever engine computes the flagged result. -/
  flagged : ∀ strategy : Strategy, flagged strategy.engine op a b = Family.overflowing op a b
  wrapping : wrapping op a b = (Family.overflowing op a b).1
  operator : operator op a b = (Family.overflowing op a b).1
  /-- Whichever engine computes the operator, products by their truncated form. -/
  onBits : ∀ strategy : Strategy,
    op.onBits strategy.engine a b = (Family.overflowing op a b).1
  checked_some : ∀ value : UInt128,
    checked op a b = some value ↔ (value.toNat : Int) = op.exact a.toNat b.toNat
  checked_none : checked op a b = none ↔ ¬InRange (op.exact a.toNat b.toNat)
  saturating : ((saturating op a b).toNat : Int) = clamp (op.exact a.toNat b.toNat)
  saturating_of_set : (Family.overflowing op a b).2 = true →
    Family.saturating op a b = bound op

end Family

theorem inRange_toNat (a : UInt128) : InRange a.toNat := by
  have hlt := a.toNat_lt
  constructor
  · exact Int.natCast_nonneg _
  · exact Int.ofNat_lt.mpr hlt

/-- What is not negative and yet no unsigned value lies above. -/
theorem two_pow_le_of_not_inRange {n : Int} (hout : ¬InRange n) (hnonneg : 0 ≤ n) :
    2 ^ 128 ≤ n := by
  apply Int.not_lt.mp
  intro hlt
  exact hout ⟨hnonneg, hlt⟩

theorem clamp_of_inRange {n : Int} (hrange : InRange n) : clamp n = n := by
  rw [clamp, Int.min_eq_left (Int.le_sub_one_of_lt hrange.2), Int.max_eq_right hrange.1]

theorem clamp_of_neg {n : Int} (hn : n < 0) : clamp n = 0 := by
  apply Int.max_eq_left
  exact Int.le_trans (Int.min_le_left _ _) (Int.le_of_lt hn)

theorem clamp_of_two_pow_le {n : Int} (hn : 2 ^ 128 ≤ n) : clamp n = 2 ^ 128 - 1 := by
  rw [clamp, Int.min_eq_right (Int.le_trans (by decide) hn)]
  decide

theorem emod_of_inRange {n : Int} (hrange : InRange n) : n % 2 ^ 128 = n :=
  Int.emod_eq_of_lt hrange.1 hrange.2

namespace Reduces

variable {result : UInt128 × Bool} {exact : Int}

theorem toNat_of_clear (hresult : Reduces result exact) (hclear : result.2 = false) :
    (result.1.toNat : Int) = exact := by
  have hrange : InRange exact := by
    apply Decidable.not_not.mp
    intro hout
    rw [hresult.flag.mpr hout] at hclear
    exact Bool.noConfusion hclear
  rw [hresult.value, emod_of_inRange hrange]

/-- A checked result is the one value that stands for the exact result. -/
theorem unflagged_eq_some_iff (hresult : Reduces result exact) (value : UInt128) :
    unflagged result = some value ↔ (value.toNat : Int) = exact := by
  obtain ⟨kept, flag⟩ := result
  cases flag with
  | false =>
      have hkept : (kept.toNat : Int) = exact := hresult.toNat_of_clear rfl
      constructor
      · intro hvalue
        cases hvalue
        exact hkept
      · intro hvalue
        have hequal : kept.toNat = value.toNat := Int.ofNat_inj.mp (hkept.trans hvalue.symm)
        exact congrArg some (ext_toNat hequal)
  | true =>
      have hout : ¬InRange exact := hresult.flag.mp rfl
      constructor
      · intro hvalue
        cases hvalue
      · intro hvalue
        exact absurd (hvalue ▸ value.inRange_toNat) hout

theorem unflagged_eq_none_iff (hresult : Reduces result exact) :
    unflagged result = none ↔ ¬InRange exact := by
  rw [← hresult.flag]
  obtain ⟨kept, flag⟩ := result
  cases flag <;> simp [unflagged]

/-- A result that is replaced by the end of the range on its own side is the exact one
clamped. -/
theorem toNat_orElseFlagged (hresult : Reduces result exact) {bound : UInt128}
    (hside : ¬InRange exact → (bound.toNat : Int) = clamp exact) :
    ((orElseFlagged bound result).toNat : Int) = clamp exact := by
  obtain ⟨kept, flag⟩ := result
  cases flag with
  | false =>
      have hkept : (kept.toNat : Int) = exact := hresult.toNat_of_clear rfl
      have hinside : clamp exact = exact := clamp_of_inRange (hkept ▸ kept.inRange_toNat)
      exact hkept.trans hinside.symm
  | true => exact hside (hresult.flag.mp rfl)

end Reduces

theorem orElseFlagged_of_set {α : Type} {bound : α} {result : α × Bool}
    (hset : result.2 = true) : orElseFlagged bound result = bound := by
  obtain ⟨value, flag⟩ := result
  subst hset
  rfl

/-! ### The flagged results -/

/-- A flag that is worth one modulus, above for a carry and below for a borrow, tells
whether the exact result was left. -/
theorem reduces_of_total {result : UInt128 × Bool} {exact place : Int}
    (hplace : place = 2 ^ 128 ∨ place = -2 ^ 128)
    (htotal : (result.1.toNat : Int) + result.2.toNat * place = exact) :
    Reduces result exact := by
  obtain ⟨value, flag⟩ := result
  have hvalue := value.inRange_toNat
  cases flag with
  | false =>
      have hexact : (value.toNat : Int) = exact := by simpa using htotal
      rw [hexact] at hvalue
      constructor
      · exact hexact.trans (emod_of_inRange hvalue).symm
      · exact iff_of_false Bool.false_ne_true (not_not_intro hvalue)
  | true =>
      have hexact : (value.toNat : Int) + place = exact := by simpa using htotal
      have hresidue : exact % 2 ^ 128 = value.toNat := by
        rw [← hexact]
        rcases hplace with rfl | rfl
        · rw [Int.add_emod_right, emod_of_inRange hvalue]
        · rw [← Int.sub_eq_add_neg, Int.sub_emod_right, emod_of_inRange hvalue]
      constructor
      · exact hresidue.symm
      · refine iff_of_true rfl ?_
        intro hrange
        have hzero : place = 0 := by
          rw [emod_of_inRange hrange, ← hexact] at hresidue
          omega
        rcases hplace with rfl | rfl <;> exact absurd hzero (by decide)

theorem reduces_carryingAdd (a b : UInt128) (carry : Bool) :
    Reduces (a.carryingAdd b carry) (a.toNat + b.toNat + carry.toNat) := by
  have htotal : (a.carryingAdd b carry).1.toNat + (a.carryingAdd b carry).2.toNat * 2 ^ 128 =
      a.toNat + b.toNat + carry.toNat := Engine.exact_portable.add a b carry
  apply reduces_of_total (Or.inl rfl)
  exact_mod_cast htotal

theorem reduces_borrowingSub (a b : UInt128) (borrow : Bool) :
    Reduces (a.borrowingSub b borrow) (a.toNat - b.toNat - borrow.toNat) := by
  have htotal : (a.borrowingSub b borrow).1.toNat + b.toNat + borrow.toNat =
      a.toNat + (a.borrowingSub b borrow).2.toNat * 2 ^ 128 := Engine.exact_portable.sub a b borrow
  apply reduces_of_total (Or.inr rfl)
  omega

/-- An exact result that is not negative can leave the range only above. -/
theorem Truncates.reduces {result : UInt128 × Bool} {exact : Nat}
    (hresult : Truncates result exact) : Reduces result exact where
  value := by
    rw [hresult.value, Int.natCast_emod]
    rfl
  flag := by
    rw [hresult.flag, decide_eq_true_iff, InRange]
    omega

namespace Family

theorem reduces_overflowing (op : Operation) (a b : UInt128) :
    Reduces (overflowing op a b) (op.exact a.toNat b.toNat) := by
  cases op with
  | add =>
      have hsum := reduces_carryingAdd a b false
      rwa [Bool.toNat_false, Int.natCast_zero, Int.add_zero] at hsum
  | sub =>
      have hdifference := reduces_borrowingSub a b false
      rwa [Bool.toNat_false, Int.natCast_zero, Int.sub_zero] at hdifference
  | mul => exact (truncates_overflowingMul a b).reduces

/-- Engines agree, so the selected one stands for all. -/
theorem flagged_eq (op : Operation) (strategy : Strategy) (a b : UInt128) :
    flagged strategy.engine op a b = overflowing op a b := by
  have hagrees := strategy.exact_engine.agrees Engine.exact_portable
  cases op with
  | add => exact hagrees.add a b false
  | sub => exact hagrees.sub a b false
  | mul => exact hagrees.overflowingMul a b

/-- The truncated product is the one that comes with a flag. -/
theorem wrapping_eq (op : Operation) (a b : UInt128) :
    wrapping op a b = (overflowing op a b).1 := by
  cases op <;> rfl

theorem checked_eq (op : Operation) (a b : UInt128) :
    checked op a b = unflagged (overflowing op a b) := by
  cases op <;> rfl

theorem saturating_eq (op : Operation) (a b : UInt128) :
    saturating op a b = orElseFlagged (bound op) (overflowing op a b) := by
  cases op <;> rfl

/-- Sums and products leave the range above, differences below. -/
theorem toNat_bound (op : Operation) (a b : UInt128)
    (hout : ¬InRange (op.exact a.toNat b.toNat)) :
    ((bound op).toNat : Int) = clamp (op.exact a.toNat b.toNat) := by
  have ha : (0 : Int) ≤ a.toNat := Int.natCast_nonneg _
  have hb : (0 : Int) ≤ b.toNat := Int.natCast_nonneg _
  cases op with
  | add => exact (clamp_of_two_pow_le (two_pow_le_of_not_inRange hout (Int.add_nonneg ha hb))).symm
  | sub =>
      have hnegative : (a.toNat : Int) - b.toNat < 0 := by
        apply Int.not_le.mp
        intro hnonneg
        have hle : (a.toNat : Int) - b.toNat ≤ a.toNat := Int.sub_le_self _ hb
        exact hout ⟨hnonneg, Int.lt_of_le_of_lt hle a.inRange_toNat.2⟩
      exact (clamp_of_neg hnegative).symm
  | mul => exact (clamp_of_two_pow_le (two_pow_le_of_not_inRange hout (Int.mul_nonneg ha hb))).symm

theorem agreesWithExact (op : Operation) (a b : UInt128) : AgreesWithExact op a b where
  overflowing := reduces_overflowing op a b
  flagged strategy := flagged_eq op strategy a b
  wrapping := wrapping_eq op a b
  operator := by cases op <;> rfl
  onBits strategy := by
    rw [op.onBits_eq strategy]
    cases op <;> rfl
  checked_some value := by
    rw [checked_eq]
    exact (reduces_overflowing op a b).unflagged_eq_some_iff value
  checked_none := by
    rw [checked_eq]
    exact (reduces_overflowing op a b).unflagged_eq_none_iff
  saturating := by
    rw [saturating_eq]
    exact (reduces_overflowing op a b).toNat_orElseFlagged (toNat_bound op a b)
  saturating_of_set hset := by
    rw [saturating_eq]
    exact orElseFlagged_of_set hset

end Family

/-- The distance of two values always fits. -/
theorem toNat_absDiff (a b : UInt128) :
    (a.absDiff b).toNat = ((a.toNat : Int) - b.toNat).natAbs := by
  rw [absDiff]
  by_cases hless : a.isLessThan b = true
  · have hlt : a.toNat < b.toNat := (isLessThan_iff a b).mp hless
    rw [if_pos hless, toNat_sub_of_le (Nat.le_of_lt hlt)]
    omega
  · have hle : b.toNat ≤ a.toNat := Nat.le_of_not_lt (mt (isLessThan_iff a b).mpr hless)
    rw [if_neg hless, toNat_sub_of_le hle]
    omega

/-- Sums with a carry and differences with a borrow are exact up to one modulus, which the
flag tells. Every member of the three families agrees with the integers, and the distance
of two values is that of the integers. -/
theorem unsigned_families_agree_with_integers (a b : UInt128) (carry : Bool) :
    Reduces (a.carryingAdd b carry) (a.toNat + b.toNat + carry.toNat) ∧
      Reduces (a.borrowingSub b carry) (a.toNat - b.toNat - carry.toNat) ∧
      (∀ op : Operation, Family.AgreesWithExact op a b) ∧
      (a.absDiff b).toNat = ((a.toNat : Int) - b.toNat).natAbs :=
  ⟨reduces_carryingAdd a b carry, reduces_borrowingSub a b carry,
    fun op => Family.agreesWithExact op a b, toNat_absDiff a b⟩

end TwoLimb.UInt128
