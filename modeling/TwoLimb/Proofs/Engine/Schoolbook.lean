/-
# The schoolbook product of two limbs

Four products of halves are added up in three columns. None of the products and none
of the column sums leaves a limb, so the sums of the machine are sums of integers.
The middle column straddles the limb boundary: its lower half becomes part of the low
limb, and what lies above is added to the high limb once.
-/

import TwoLimb.Engine.Portable

namespace TwoLimb.Engine.Portable

@[simp]
theorem toNat_lowHalf (x : Limb) : (lowHalf x).toNat = x.toNat % 2 ^ 32 := by
  rw [lowHalf, UInt64.toNat_and]
  exact Nat.and_two_pow_sub_one_eq_mod x.toNat 32

@[simp]
theorem toNat_highHalf (x : Limb) : (highHalf x).toNat = x.toNat / 2 ^ 32 :=
  Limb.toNat_shr x (show halfBits < 64 by decide)

theorem highHalf_lt (x : Limb) : (highHalf x).toNat < 2 ^ 32 := by
  have hx := x.toNat_lt
  rw [toNat_highHalf]
  omega

theorem lowHalf_lt (x : Limb) : (lowHalf x).toNat < 2 ^ 32 := by
  rw [toNat_lowHalf]
  exact Nat.mod_lt _ (by decide)

theorem halves_eq (x : Limb) :
    (highHalf x).toNat * 2 ^ 32 + (lowHalf x).toNat = x.toNat := by
  rw [toNat_highHalf, toNat_lowHalf, Nat.div_add_mod']

/-- A product of halves leaves room for two more halves in its limb. -/
theorem mul_halves_le {x y : Nat} (hx : x < 2 ^ 32) (hy : y < 2 ^ 32) :
    x * y ≤ 2 ^ 64 - 2 * 2 ^ 32 + 1 := by
  calc
    x * y ≤ (2 ^ 32 - 1) * (2 ^ 32 - 1) :=
      Nat.mul_le_mul (Nat.le_sub_one_of_lt hx) (Nat.le_sub_one_of_lt hy)
    _ = 2 ^ 64 - 2 * 2 ^ 32 + 1 := by decide

/-- A product of limbs that are halves is the product of their values. -/
theorem toNat_mul_halves {x y : Limb} (hx : x.toNat < 2 ^ 32) (hy : y.toNat < 2 ^ 32) :
    (x * y).toNat = x.toNat * y.toNat := by
  have hle := mul_halves_le hx hy
  rw [UInt64.toNat_mul, Nat.mod_eq_of_lt (by omega)]

namespace Schoolbook

/-- The obligations of the four products: each is the product of two halves. -/
structure IsProductOf (p : Schoolbook) (a b : Limb) : Prop where
  lowLow : p.lowLow.toNat = (lowHalf a).toNat * (lowHalf b).toNat
  lowHigh : p.lowHigh.toNat = (lowHalf a).toNat * (highHalf b).toNat
  highLow : p.highLow.toNat = (highHalf a).toNat * (lowHalf b).toNat
  highHigh : p.highHigh.toNat = (highHalf a).toNat * (highHalf b).toNat

theorem isProductOf_ofLimbs (a b : Limb) : (ofLimbs a b).IsProductOf a b where
  lowLow := toNat_mul_halves (lowHalf_lt a) (lowHalf_lt b)
  lowHigh := toNat_mul_halves (lowHalf_lt a) (highHalf_lt b)
  highLow := toNat_mul_halves (highHalf_lt a) (lowHalf_lt b)
  highHigh := toNat_mul_halves (highHalf_lt a) (highHalf_lt b)

variable {p : Schoolbook} {a b : Limb}

/-- The middle column has three halves, so its sum is exact. -/
theorem toNat_middle (p : Schoolbook) :
    p.middle.toNat =
      p.lowLow.toNat / 2 ^ 32 + p.lowHigh.toNat % 2 ^ 32 + p.highLow.toNat % 2 ^ 32 := by
  have hlowLow := p.lowLow.toNat_lt
  simp only [middle, UInt64.toNat_add, toNat_highHalf, toNat_lowHalf]
  omega

theorem middle_lt (p : Schoolbook) : p.middle.toNat < 3 * 2 ^ 32 := by
  have hlowLow := p.lowLow.toNat_lt
  rw [toNat_middle]
  omega

/-- The low limb is the lowest half under the lower half of the middle column. -/
theorem toNat_low (p : Schoolbook) :
    p.low.toNat = p.middle.toNat % 2 ^ 32 * 2 ^ 32 + p.lowLow.toNat % 2 ^ 32 := by
  rw [low, UInt64.toNat_or, Limb.toNat_shl _ (show halfBits < 64 by decide), toNat_lowHalf,
    Nat.or_comm, show halfBits = 32 from rfl,
    mul_two_pow_mod_two_pow _ (show 32 ≤ 64 by decide)]
  exact mul_two_pow_or (Nat.mod_lt _ (by decide))

/-- The four terms above the limb boundary fit a limb together. The product of the upper
halves leaves room for two halves, and the cross products and the middle column carry less. -/
theorem highTerms_lt (hproduct : p.IsProductOf a b) :
    p.highHigh.toNat + (highHalf p.lowHigh).toNat + (highHalf p.highLow).toNat +
      (highHalf p.middle).toNat < 2 ^ 64 := by
  have hmiddle := p.middle_lt
  have hlowHigh := mul_halves_le (lowHalf_lt a) (highHalf_lt b)
  have hhighLow := mul_halves_le (highHalf_lt a) (lowHalf_lt b)
  have hhighHigh := mul_halves_le (highHalf_lt a) (highHalf_lt b)
  rw [← hproduct.lowHigh] at hlowHigh
  rw [← hproduct.highLow] at hhighLow
  rw [← hproduct.highHigh] at hhighHigh
  simp only [toNat_highHalf]
  omega

/-- The high limb is the sum of the four terms above the limb boundary. -/
theorem toNat_high (hproduct : p.IsProductOf a b) :
    p.high.toNat =
      p.highHigh.toNat + p.lowHigh.toNat / 2 ^ 32 + p.highLow.toNat / 2 ^ 32 +
        p.middle.toNat / 2 ^ 32 := by
  have hterms := highTerms_lt hproduct
  simp only [toNat_highHalf] at hterms
  simp only [high, UInt64.toNat_add, toNat_highHalf]
  omega

/-- Both limbs together are the product of the limbs, expanded on their halves. -/
theorem toNat_eq_mul (hproduct : p.IsProductOf a b) :
    p.high.toNat * 2 ^ 64 + p.low.toNat = a.toNat * b.toNat := by
  have hexpand (a₁ a₀ b₁ b₀ : Nat) :
      (a₁ * 2 ^ 32 + a₀) * (b₁ * 2 ^ 32 + b₀) =
        a₁ * b₁ * 2 ^ 64 + (a₀ * b₁ + a₁ * b₀) * 2 ^ 32 + a₀ * b₀ := by
    simp only [Nat.add_mul, Nat.mul_add]
    rw [show (2 : Nat) ^ 64 = 2 ^ 32 * 2 ^ 32 by decide]
    ac_rfl
  have hmiddle := toNat_middle p
  have hcolumns : p.high.toNat * 2 ^ 64 + p.low.toNat =
      p.highHigh.toNat * 2 ^ 64 + (p.lowHigh.toNat + p.highLow.toNat) * 2 ^ 32 +
        p.lowLow.toNat := by
    rw [toNat_high hproduct, toNat_low]
    omega
  rw [hcolumns, hproduct.lowLow, hproduct.lowHigh, hproduct.highLow, hproduct.highHigh,
    ← hexpand, halves_eq, halves_eq]

/-- The integers that a product asks for stay within their limbs: the products of halves, and
the sums of the middle and of the high column, each added up from left to right. -/
structure StaysInLimbs (p : Schoolbook) (a b : Limb) : Prop where
  products_lt : ∀ x ∈ [lowHalf a, highHalf a], ∀ y ∈ [lowHalf b, highHalf b],
    x.toNat * y.toNat < 2 ^ 64
  middleFirst_lt : (highHalf p.lowLow).toNat + (lowHalf p.lowHigh).toNat < 2 ^ 64
  middle_lt : (highHalf p.lowLow).toNat + (lowHalf p.lowHigh).toNat +
    (lowHalf p.highLow).toNat < 3 * 2 ^ 32
  highFirst_lt : p.highHigh.toNat + (highHalf p.lowHigh).toNat < 2 ^ 64
  highSecond_lt : p.highHigh.toNat + (highHalf p.lowHigh).toNat +
    (highHalf p.highLow).toNat < 2 ^ 64
  high_le : p.highHigh.toNat + (highHalf p.lowHigh).toNat + (highHalf p.highLow).toNat +
    (highHalf p.middle).toNat ≤ 2 ^ 64 - 1

theorem staysInLimbs (hproduct : p.IsProductOf a b) : p.StaysInLimbs a b := by
  have hcarried := highHalf_lt p.lowLow
  have hlower := lowHalf_lt p.lowHigh
  have hupper := lowHalf_lt p.highLow
  have hterms := highTerms_lt hproduct
  refine ⟨?_, by omega, by omega, by omega, by omega, by omega⟩
  have hhalf (z : Limb) : ∀ x ∈ [lowHalf z, highHalf z], x.toNat < 2 ^ 32 := by
    rw [List.forall_mem_cons, List.forall_mem_singleton]
    exact ⟨lowHalf_lt z, highHalf_lt z⟩
  intro x hx y hy
  have hle := mul_halves_le (hhalf a x hx) (hhalf b y hy)
  omega

/-- What a shift of the middle column by half a limb discards is its upper half. -/
theorem toNat_highHalf_middle (p : Schoolbook) :
    (highHalf p.middle).toNat = p.middle.toNat * 2 ^ 32 / 2 ^ 64 := by
  rw [toNat_highHalf]
  omega

end Schoolbook

/-- The widening product on halves loses nothing. -/
theorem toNat_wideningMul (a b : Limb) :
    (wideningMul a b).toNat = a.toNat * b.toNat :=
  Schoolbook.toNat_eq_mul (Schoolbook.isProductOf_ofLimbs a b)

end TwoLimb.Engine.Portable
