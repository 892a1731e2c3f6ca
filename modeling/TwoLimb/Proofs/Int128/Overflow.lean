/-
# Signed overflow against the integers

The wrapped result of a signed operation and its flag come from different
computations: bits against signs for sums and differences, bits against magnitudes for
products. `Reduces` says what both owe to one exact integer, and the other members of a
family follow from it. The families of the three operations are quantified over, so
what is said of one is said of all.
-/

import TwoLimb.Int128.Overflow
import TwoLimb.Proofs.Int128.TwosComplement

namespace TwoLimb.Int128

/-- The signed value nearest to an integer. -/
def clamp (n : Int) : Int := Max.max min.toInt (Min.min n max.toInt)

/-- A flagged result of an operation with the given exact result: the value is the exact
result reduced into the signed range, and the flag is set exactly when it lies outside. -/
structure Reduces (result : Int128 × Bool) (exact : Int) : Prop where
  value : result.1.toInt = exact.bmod (2 ^ 128)
  flag : result.2 = true ↔ ¬InRange exact

/-- The operations that come in overflow families. -/
inductive Operation
  | add
  | sub
  | mul
deriving DecidableEq

namespace Operation

/-- The operation on integers. -/
def exact : Operation → Int → Int → Int
  | .add, m, n => m + n
  | .sub, m, n => m - n
  | .mul, m, n => m * n

/-- The operation on bits, as an engine computes it. -/
def onBits (engine : Engine) : Operation → UInt128 → UInt128 → UInt128
  | .add, x, y => (engine.add x y false).1
  | .sub, x, y => (engine.sub x y false).1
  | .mul, x, y => engine.mul x y

def operator : Operation → Int128 → Int128 → Int128
  | .add => (· + ·)
  | .sub => (· - ·)
  | .mul => (· * ·)

def wrapping : Operation → Int128 → Int128 → Int128
  | .add => Int128.add
  | .sub => Int128.sub
  | .mul => Int128.mul

def overflowing : Operation → Int128 → Int128 → Int128 × Bool
  | .add => overflowingAdd
  | .sub => overflowingSub
  | .mul => overflowingMul

def checked : Operation → Int128 → Int128 → Option Int128
  | .add => add?
  | .sub => sub?
  | .mul => mul?

def saturating : Operation → Int128 → Int128 → Int128
  | .add => saturatingAdd
  | .sub => saturatingSub
  | .mul => saturatingMul

/-- The members of a family agree with the exact result of the operation on `a` and
`b`, and so with one another. -/
structure AgreesWithExact (op : Operation) (a b : Int128) : Prop where
  overflowing : Reduces (op.overflowing a b) (op.exact a.toInt b.toInt)
  wrapping : op.wrapping a b = (op.overflowing a b).1
  operator : op.operator a b = (op.overflowing a b).1
  /-- Whichever engine computes the operator. -/
  onBits : ∀ strategy : Strategy,
    ⟨op.onBits strategy.engine a.bits b.bits⟩ = (op.overflowing a b).1
  checked_of_clear : (op.overflowing a b).2 = false →
    ∃ value, op.checked a b = some value ∧ value.toInt = op.exact a.toInt b.toInt
  checked_of_set : (op.overflowing a b).2 = true → op.checked a b = none
  saturating : (op.saturating a b).toInt = clamp (op.exact a.toInt b.toInt)

end Operation

/-- Negation and absolute value agree with the integers, and the least value is the only
one where they overflow. -/
structure SignsAgreeWithExact (a : Int128) : Prop where
  overflowingNeg : Reduces a.overflowingNeg (-a.toInt)
  neg : -a = a.overflowingNeg.1
  overflowingNeg_flag : a.overflowingNeg.2 = true ↔ a = min
  neg? : a ≠ min → ∃ value, a.neg? = some value ∧ value.toInt = -a.toInt
  neg?_min : a = min → a.neg? = none
  abs : a.abs.toInt = (a.toInt.natAbs : Int).bmod (2 ^ 128)
  abs? : a ≠ min → ∃ value, a.abs? = some value ∧ value.toInt = a.toInt.natAbs
  abs?_min : a = min → a.abs? = none
  unsignedAbs : a.unsignedAbs.toNat = a.toInt.natAbs

namespace Reduces

variable {result : Int128 × Bool} {exact : Int}

theorem toInt_of_clear (hresult : Reduces result exact) (hclear : result.2 = false) :
    result.1.toInt = exact := by
  have hrange : InRange exact :=
    Decidable.not_not.mp (mt hresult.flag.mpr (Bool.eq_false_iff.mp hclear))
  rw [hresult.value, bmod_of_inRange hrange]

/-- A clear flag leaves the exact result. -/
theorem unflagged_of_clear (hresult : Reduces result exact) (hclear : result.2 = false) :
    ∃ value, unflagged result = some value ∧ value.toInt = exact := by
  refine ⟨result.1, ?_, hresult.toInt_of_clear hclear⟩
  obtain ⟨value, flag⟩ := result
  subst hclear
  rfl

/-- A result that is replaced by the end of the range on its own side is the exact one
clamped. -/
theorem toInt_orElseFlagged {negative : Bool} (hresult : Reduces result exact)
    (hside : ¬InRange exact → (negative = true ↔ exact < 0)) :
    (orElseFlagged (bound negative) result).toInt = clamp exact := by
  obtain ⟨value, flag⟩ := result
  rw [clamp, toInt_min, toInt_max]
  cases flag with
  | false =>
      have hvalue : value.toInt = exact := hresult.toInt_of_clear rfl
      have hbounds := value.toInt_bounds
      change value.toInt = _
      omega
  | true =>
      have hout : ¬InRange exact := hresult.flag.mp rfl
      have hsign := hside hout
      change (bound negative).toInt = _
      rw [InRange] at hout
      cases negative with
      | false =>
          have hbound : (bound false).toInt = 2 ^ 127 - 1 := toInt_max
          simp only [Bool.false_eq_true, false_iff] at hsign
          omega
      | true =>
          have hbound : (bound true).toInt = -2 ^ 127 := toInt_min
          simp only [true_iff] at hsign
          omega

end Reduces

theorem unflagged_of_set {α : Type} {result : α × Bool} (hset : result.2 = true) :
    unflagged result = none := by
  obtain ⟨value, flag⟩ := result
  subst hset
  rfl

/-- The reduction of an integer that is at most one modulus away. -/
theorem bmod_eq_ite {n : Int} (hlower : -2 ^ 128 ≤ n) (hupper : n < 2 ^ 128) :
    n.bmod (2 ^ 128) =
      if n < -2 ^ 127 then n + 2 ^ 128 else if n < 2 ^ 127 then n else n - 2 ^ 128 := by
  rw [Int.bmod]
  split <;> split <;> (try split) <;> omega

/-- The exact sum leaves the signed range when equal signs give the other sign. -/
theorem reduces_overflowingAdd (a b : Int128) :
    Reduces (a.overflowingAdd b) (a.toInt + b.toInt) where
  value := toInt_add a b
  flag := by
    have ha := a.toInt_bounds
    have hb := b.toInt_bounds
    have hsum : (a + b).toInt = _ :=
      (toInt_add a b).trans (bmod_eq_ite (by omega) (by omega))
    simp only [overflowingAdd, isNegative_eq_decide, Bool.and_eq_true, beq_iff_eq, bne_iff_ne,
      ne_eq, decide_eq_decide, InRange]
    split at hsum
    · omega
    · split at hsum <;> omega

/-- The exact difference leaves the signed range when different signs give the sign of
the subtrahend. -/
theorem reduces_overflowingSub (a b : Int128) :
    Reduces (a.overflowingSub b) (a.toInt - b.toInt) where
  value := toInt_sub a b
  flag := by
    have ha := a.toInt_bounds
    have hb := b.toInt_bounds
    have hdifference : (a - b).toInt = _ :=
      (toInt_sub a b).trans (bmod_eq_ite (by omega) (by omega))
    simp only [overflowingSub, isNegative_eq_decide, Bool.and_eq_true, bne_iff_ne, ne_eq,
      decide_eq_decide, InRange]
    split at hdifference
    · omega
    · split at hdifference <;> omega

theorem mul_of_signs (first second : Bool) (m n : Nat) :
    (if first = true then -(m : Int) else m) * (if second = true then -(n : Int) else n) =
      if (first != second) = true then -((m * n : Nat) : Int) else (m * n : Nat) := by
  rw [Int.natCast_mul]
  cases first <;> cases second
  · rfl
  · exact Int.mul_neg _ _
  · exact Int.neg_mul _ _
  · exact Int.neg_mul_neg _ _

/-- A product has the product of the magnitudes, and is negative where the signs
differ. -/
theorem toInt_mul_toInt (a b : Int128) :
    a.toInt * b.toInt =
      if (a.isNegative != b.isNegative) = true then
        -((a.unsignedAbs.toNat * b.unsignedAbs.toNat : Nat) : Int)
      else (a.unsignedAbs.toNat * b.unsignedAbs.toNat : Nat) := by
  rw [a.toInt_eq_magnitude, b.toInt_eq_magnitude]
  exact mul_of_signs _ _ _ _

/-- The limit for a product of magnitudes depends on the sign that it gets. -/
theorem reduces_overflowingMul (a b : Int128) :
    Reduces (a.overflowingMul b) (a.toInt * b.toInt) where
  value := toInt_mul a b
  flag := by
    obtain ⟨hvalue, hflag⟩ := UInt128.truncates_overflowingMul a.unsignedAbs b.unsignedAbs
    have hexact := toInt_mul_toInt a b
    simp only [overflowingMul, hflag, InRange]
    generalize a.unsignedAbs.toNat * b.unsignedAbs.toNat = magnitude at *
    by_cases hwide : 2 ^ 128 ≤ magnitude
    · simp only [decide_eq_true hwide, Bool.true_or, true_iff]
      split at hexact <;> omega
    · rw [Nat.mod_eq_of_lt (Nat.lt_of_not_le hwide)] at hvalue
      simp only [decide_eq_false hwide, Bool.false_or, Bool.not_eq_true']
      split at hexact
      · rename_i hsigns
        rw [if_pos hsigns, Bool.not_eq_false', UInt128.isGreaterThan_iff, toNat_bits_min, hvalue]
        omega
      · rename_i hsigns
        rw [if_neg hsigns, Bool.eq_false_iff, ne_eq, UInt128.isLessThan_iff, toNat_bits_min,
          hvalue]
        omega

theorem reduces_overflowingNeg (a : Int128) : Reduces a.overflowingNeg (-a.toInt) where
  value := toInt_neg a
  flag := by
    have ha := a.toInt_bounds
    have hmin := a.eq_min_iff
    rw [overflowingNeg, equals_iff, bits_inj, hmin, InRange]
    omega

namespace Operation

theorem reduces_overflowing (op : Operation) (a b : Int128) :
    Reduces (op.overflowing a b) (op.exact a.toInt b.toInt) := by
  cases op with
  | add => exact reduces_overflowingAdd a b
  | sub => exact reduces_overflowingSub a b
  | mul => exact reduces_overflowingMul a b

/-- The operator does not depend on the engine, since engines agree. -/
theorem onBits_eq (op : Operation) (strategy : Strategy) (x y : UInt128) :
    op.onBits strategy.engine x y = op.onBits .selected x y := by
  have hagrees := strategy.exact_engine.agrees Engine.exact_portable
  cases op with
  | add => exact congrArg Prod.fst (hagrees.add x y false)
  | sub => exact congrArg Prod.fst (hagrees.sub x y false)
  | mul => exact hagrees.mul x y

/-- Outside the range, an exact result has the sign by which a saturating member picks
its end of the range. -/
theorem toInt_saturating (op : Operation) (a b : Int128) :
    (op.saturating a b).toInt = clamp (op.exact a.toInt b.toInt) := by
  have ha := a.toInt_bounds
  have hb := b.toInt_bounds
  cases op with
  | add =>
      refine (reduces_overflowingAdd a b).toInt_orElseFlagged fun hout => ?_
      rw [isNegative_iff_toInt_neg]
      unfold InRange at hout
      omega
  | sub =>
      refine (reduces_overflowingSub a b).toInt_orElseFlagged fun hout => ?_
      rw [Bool.not_eq_true', Bool.eq_false_iff, ne_eq, isNegative_iff_toInt_neg]
      unfold InRange at hout
      omega
  | mul =>
      refine (reduces_overflowingMul a b).toInt_orElseFlagged fun hout => ?_
      have hexact := toInt_mul_toInt a b
      unfold InRange at hout
      by_cases hsigns : (a.isNegative != b.isNegative) = true
      · rw [if_pos hsigns] at hexact
        simp only [hsigns, true_iff]
        omega
      · rw [if_neg hsigns] at hexact
        simp only [hsigns, Bool.false_eq_true, false_iff]
        omega

theorem checked_eq (op : Operation) (a b : Int128) :
    op.checked a b = unflagged (op.overflowing a b) := by
  cases op <;> rfl

theorem agreesWithExact (op : Operation) (a b : Int128) : op.AgreesWithExact a b where
  overflowing := op.reduces_overflowing a b
  wrapping := by cases op <;> rfl
  operator := by cases op <;> rfl
  onBits strategy := by
    rw [op.onBits_eq strategy]
    cases op <;> rfl
  checked_of_clear hclear := by
    rw [checked_eq]
    exact (op.reduces_overflowing a b).unflagged_of_clear hclear
  checked_of_set hset := by
    rw [checked_eq]
    exact unflagged_of_set hset
  saturating := op.toInt_saturating a b

end Operation

/-- The magnitude of a value other than the least one is a signed value. -/
theorem toInt_abs (a : Int128) : a.abs.toInt = (a.toInt.natAbs : Int).bmod (2 ^ 128) := by
  rw [← toNat_unsignedAbs]
  exact toInt_eq_bmod a.abs

theorem overflowingNeg_flag (a : Int128) : a.overflowingNeg.2 = true ↔ a = min := by
  have ha := a.toInt_bounds
  rw [(reduces_overflowingNeg a).flag, a.eq_min_iff, InRange]
  omega

theorem signsAgreeWithExact (a : Int128) : SignsAgreeWithExact a where
  overflowingNeg := reduces_overflowingNeg a
  neg := rfl
  overflowingNeg_flag := a.overflowingNeg_flag
  neg? hmin := (reduces_overflowingNeg a).unflagged_of_clear
    (Bool.eq_false_iff.mpr (mt a.overflowingNeg_flag.mp hmin))
  neg?_min hmin := unflagged_of_set (a.overflowingNeg_flag.mpr hmin)
  abs := a.toInt_abs
  abs? hmin := by
    have ha := a.toInt_bounds
    have hvalue := mt a.eq_min_iff.mpr hmin
    refine ⟨a.abs, if_neg (mt a.overflowingNeg_flag.mp hmin), ?_⟩
    rw [a.toInt_abs]
    exact bmod_of_inRange ⟨by omega, by omega⟩
  abs?_min hmin := if_pos (a.overflowingNeg_flag.mpr hmin)
  unsignedAbs := a.toNat_unsignedAbs

/-- Every member of the three families agrees with the integers, and so do negation and
absolute value; the magnitude of the least value is `2^127`. -/
theorem families_agree_with_integers (a b : Int128) :
    (∀ op : Operation, op.AgreesWithExact a b) ∧ SignsAgreeWithExact a ∧
      min.unsignedAbs.toNat = 2 ^ 127 :=
  ⟨fun op => op.agreesWithExact a b, signsAgreeWithExact a, by rw [toNat_unsignedAbs]; decide⟩

end TwoLimb.Int128
