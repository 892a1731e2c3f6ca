/-
# The engines agree

Each of the three engines is exact, the two that keep limbs because their primitives
are. Exact results are unique, so the choice of an engine never shows in a result.
-/

import TwoLimb.Engine.Instruction
import TwoLimb.Proofs.Engine.BitwiseDivision
import TwoLimb.Proofs.Engine.LimbPairs
import TwoLimb.Proofs.Engine.Schoolbook
import TwoLimb.Proofs.Engine.WideWord

namespace TwoLimb

namespace Engine

theorem Portable.exact_limbOps : Portable.limbOps.Exact where
  addWithCarry := Portable.addWithCarry_eq
  subWithBorrow := Portable.subWithBorrow_eq
  wideningMul := Portable.toNat_wideningMul
  divPair _ _ _ hhigh := Portable.isDivision_divPair hhigh

theorem Instruction.exact_limbOps : Instruction.limbOps.Exact where
  addWithCarry a b carry := by
    have ha := a.toNat_lt
    have hb := b.toNat_lt
    have hcarry := carry.toNat_le
    change (UInt64.ofNat (a.toNat + b.toNat + carry.toNat)).toNat +
      (decide (2 ^ 64 ≤ a.toNat + b.toNat + carry.toNat)).toNat * 2 ^ 64 = _
    rw [UInt64.toNat_ofNat', mod_add_carry (by omega)]
  subWithBorrow a b borrow := by
    have ha := a.toNat_lt
    have hb := b.toNat_lt
    have hborrow := borrow.toNat_le
    change (UInt64.ofNat (a.toNat + 2 ^ 64 - (b.toNat + borrow.toNat))).toNat +
      b.toNat + borrow.toNat =
        a.toNat + (decide (a.toNat < b.toNat + borrow.toNat)).toNat * 2 ^ 64
    rw [UInt64.toNat_ofNat', Nat.add_assoc]
    exact sub_mod_add_borrow ha (by omega)
  wideningMul a b := by
    have hproduct : a.toNat * b.toNat < 2 ^ 64 * 2 ^ 64 :=
      Nat.mul_lt_mul'' a.toNat_lt b.toNat_lt
    change (UInt128.ofNat (a.toNat * b.toNat)).toNat = _
    rw [UInt128.toNat_ofNat, Nat.mod_eq_of_lt hproduct]
  divPair high low divisor hhigh := by
    have hpos : 0 < divisor.toNat := Nat.zero_lt_of_lt (UInt64.lt_iff_toNat_lt.mp hhigh)
    have hremainder : (high.toNat * 2 ^ 64 + low.toNat) % divisor.toNat < divisor.toNat :=
      Nat.mod_lt _ hpos
    change IsDivision _ _
      (UInt64.ofNat ((high.toNat * 2 ^ 64 + low.toNat) / divisor.toNat)).toNat
      (UInt64.ofNat ((high.toNat * 2 ^ 64 + low.toNat) % divisor.toNat)).toNat
    rw [UInt64.toNat_ofNat', UInt64.toNat_ofNat', Nat.mod_eq_of_lt (pair_div_lt hhigh),
      Nat.mod_eq_of_lt (Nat.lt_trans hremainder divisor.toNat_lt)]
    exact .div_mod _ hpos

theorem exact_portable : portable.Exact := exact_ofLimbOps .portable Portable.exact_limbOps

theorem exact_instruction : instruction.Exact :=
  exact_ofLimbOps .instruction Instruction.exact_limbOps

end Engine

/-- The engine that computes by a strategy. -/
def Strategy.engine : Strategy → Engine
  | .wideWord => .wideWord
  | .instruction => .instruction
  | .portable => .portable

/-- Whatever the strategy, its engine is exact. -/
theorem Strategy.exact_engine (strategy : Strategy) : strategy.engine.Exact := by
  cases strategy with
  | wideWord => exact Engine.exact_wideWord
  | instruction => exact Engine.exact_instruction
  | portable => exact Engine.exact_portable

/-- Any two strategies give the same results, flags included, wherever a caller may
ask. -/
theorem Strategy.engines_agree (one two : Strategy) : one.engine.Agrees two.engine :=
  one.exact_engine.agrees two.exact_engine

end TwoLimb
