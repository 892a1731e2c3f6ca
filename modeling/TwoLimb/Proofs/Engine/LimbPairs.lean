/-
# Exact operations on limb pairs

Exact limb primitives make exact operations on pairs. A product of pairs is expanded
in the four products of limbs, and both the kept value and the flag are read off that
expansion; a division takes one of three ways, each of which divides exactly.
-/

import TwoLimb.Proofs.Engine.RestoringDivision

namespace TwoLimb.Engine

namespace Limbwise

variable {ops : LimbOps}

/-- A product of pairs in the products of their limbs. -/
theorem mul_toNat_eq (a b : UInt128) :
    a.toNat * b.toNat =
      a.high.toNat * b.high.toNat * 2 ^ 128 +
          (a.high.toNat * b.low.toNat + a.low.toNat * b.high.toNat) * 2 ^ 64 +
        a.low.toNat * b.low.toNat := by
  simp only [UInt128.toNat, Nat.add_mul, Nat.mul_add]
  rw [show (2 : Nat) ^ 128 = 2 ^ 64 * 2 ^ 64 by decide]
  ac_rfl

/-- Of the cross products only what stays below the pair's end is kept. -/
theorem toNat_mul (hops : ops.Exact) (a b : UInt128) :
    (mul ops a b).toNat = a.toNat * b.toNat % 2 ^ 128 := by
  have hlow := hops.wideningMul a.low b.low
  have hlowLt := (ops.wideningMul a.low b.low).low.toNat_lt
  rw [mul_toNat_eq, ← hlow]
  simp only [mul, UInt128.toNat, UInt64.toNat_add, UInt64.toNat_mul]
  omega

/-- The five conditions of the flag together say that the expansion reaches `2^128`. If
both high limbs contribute, it does; otherwise the high limb is a sum of three terms,
and the conditions watch each of them and each addition. -/
theorem overflowingMul_snd (hops : ops.Exact) (a b : UInt128) :
    (overflowingMul ops a b).2 = decide (2 ^ 128 ≤ a.toNat * b.toNat) := by
  have hlow := hops.wideningMul a.low b.low
  generalize hproduct : ops.wideningMul a.low b.low = product at hlow
  have hproductLow := product.low.toNat_lt
  have hproductHigh := product.high.toNat_lt
  have hflag : (overflowingMul ops a b).2 = true ↔
      (a.high ≠ 0 ∧ b.high ≠ 0) ∨ 2 ^ 64 ≤ a.high.toNat * b.low.toNat ∨
        2 ^ 64 ≤ a.low.toNat * b.high.toNat ∨
        product.high + a.high * b.low < product.high ∨
        product.high + a.high * b.low + a.low * b.high < product.high + a.high * b.low := by
    simp [overflowingMul, Limb.overflowingMul, Limb.overflowingAdd, hproduct, or_assoc]
  have hcontribute : (a.high ≠ 0 ∧ b.high ≠ 0) ↔ a.high.toNat * b.high.toNat ≠ 0 := by
    rw [Nat.mul_ne_zero_iff, ne_eq, ne_eq, ← UInt64.toNat_inj, ← UInt64.toNat_inj,
      UInt64.toNat_zero]
  rw [Bool.eq_iff_iff, decide_eq_true_iff, hflag, hcontribute, mul_toNat_eq, ← hlow,
    UInt128.toNat]
  simp only [UInt64.lt_iff_toNat_lt, UInt64.toNat_add, UInt64.toNat_mul]
  omega

/-- A limb that is not zero divides a pair exactly: the remainder of the high limb is
the upper half of the wide division. -/
theorem divides_divModLimb (hops : ops.Exact) (dividend : UInt128) {divisor : Limb}
    (hdivisor : divisor ≠ 0) :
    (divModLimb ops dividend divisor).Divides dividend (.ofLimb divisor) := by
  have hpos : 0 < divisor.toNat :=
    Nat.pos_of_ne_zero (Limb.toNat_ne_zero hdivisor)
  have hrest : dividend.high % divisor < divisor := by
    rw [UInt64.lt_iff_toNat_lt, UInt64.toNat_mod]
    exact Nat.mod_lt _ hpos
  obtain ⟨hvalue, hremainder⟩ :=
    hops.divPair (dividend.high % divisor) dividend.low divisor hrest
  generalize hpair : ops.divPair (dividend.high % divisor) dividend.low divisor = pair at *
  have hresult : divModLimb ops dividend divisor =
      ⟨⟨dividend.high / divisor, pair.1⟩, .ofLimb pair.2⟩ := by
    rw [divModLimb, hpair]
  have hhigh := Nat.div_add_mod' dividend.high.toNat divisor.toNat
  rw [UInt64.toNat_mod] at hvalue
  rw [hresult, DivMod.Divides, UInt128.toNat_ofLimb, UInt128.toNat_ofLimb]
  refine ⟨?_, hremainder⟩
  calc
    dividend.toNat =
        (dividend.high.toNat / divisor.toNat * divisor.toNat +
          dividend.high.toNat % divisor.toNat) * 2 ^ 64 + dividend.low.toNat := by
      rw [hhigh, UInt128.toNat]
    _ = dividend.high.toNat / divisor.toNat * divisor.toNat * 2 ^ 64 +
          (pair.1.toNat * divisor.toNat + pair.2.toNat) := by
      rw [← hvalue, Nat.add_mul, Nat.add_assoc]
    _ = _ := by
      rw [UInt128.toNat, UInt64.toNat_div, Nat.add_mul, Nat.mul_right_comm, Nat.add_assoc]

/-- The three ways of a division divide exactly by a divisor that is not zero. -/
theorem divides_divMod (hops : ops.Exact) (dividend : UInt128) {divisor : UInt128}
    (hdivisor : divisor ≠ .zero) : (divMod ops dividend divisor).Divides dividend divisor := by
  unfold divMod
  by_cases hhigh : divisor.high = 0
  · have hlimb : UInt128.ofLimb divisor.low = divisor := by
      rw [UInt128.ofLimb, ← hhigh]
    have hlow : divisor.low ≠ 0 := fun hzero =>
      hdivisor (by rw [← hlimb, hzero]; rfl)
    have hdivides := divides_divModLimb hops dividend hlow
    rw [hlimb] at hdivides
    rw [if_pos hhigh]
    exact hdivides
  · rw [if_neg hhigh]
    by_cases hexceeds : divisor.isGreaterThan dividend
    · rw [if_pos hexceeds]
      refine ⟨?_, (UInt128.isGreaterThan_iff _ _).mp hexceeds⟩
      rw [UInt128.toNat_zero, Nat.zero_mul, Nat.zero_add]
    · rw [if_neg hexceeds]
      apply divides_divModRestoring hops hhigh
      rw [UInt128.isGreaterThan_iff] at hexceeds
      exact Nat.le_of_not_lt hexceeds

end Limbwise

/-- Exact limb primitives make an exact engine. -/
theorem exact_ofLimbOps (strategy : Strategy) {ops : LimbOps} (hops : ops.Exact) :
    (ofLimbOps strategy ops).Exact where
  toExact := hops
  add := Limbwise.toNat_add ops hops.addWithCarry
  sub := Limbwise.toNat_sub ops hops.subWithBorrow
  mul := Limbwise.toNat_mul hops
  overflowingMul_value := Limbwise.toNat_mul hops
  overflowingMul_flag := Limbwise.overflowingMul_snd hops
  divMod dividend _ hdivisor := Limbwise.divides_divMod hops dividend hdivisor
  shl value _ hamount := Limbwise.toNat_shl value hamount
  shr value _ hamount := Limbwise.toNat_shr value hamount

end TwoLimb.Engine
