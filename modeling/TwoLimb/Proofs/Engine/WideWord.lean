/-
# The wide word engine is exact

Operands are widened to 128 bits, computed with once, and cut. What has to be shown is
that nothing is lost before the cut, and that the upper half of a wide result is the
carry or borrow that the cut would drop.
-/

import TwoLimb.Engine.WideWord
import TwoLimb.Proofs.Engine.Exact

namespace TwoLimb.Engine.WideWord

@[simp]
theorem toNat_widen (x : Limb) : (widen x).toNat = x.toNat := by
  have hx := x.toNat_lt
  rw [widen, BitVec.toNat_setWidth, UInt64.toNat_toBitVec, Nat.mod_eq_of_lt (by omega)]

@[simp]
theorem toNat_lowHalf (w : BitVec 128) : (lowHalf w).toNat = w.toNat % 2 ^ 64 := by
  rw [lowHalf, UInt64.toNat_ofBitVec, BitVec.toNat_setWidth]

@[simp]
theorem toNat_ofFlag (flag : Bool) : (ofFlag flag).toNat = flag.toNat := by
  cases flag <;> rfl

theorem upperHalf_bne_zero (w : BitVec 128) :
    (w >>> 64 != 0) = decide (2 ^ 64 ≤ w.toNat) := by
  have hw := w.isLt
  rw [Bool.eq_iff_iff, bne_iff_ne, decide_eq_true_iff, ne_eq, ← BitVec.toNat_inj,
    BitVec.toNat_ushiftRight, Nat.shiftRight_eq_div_pow]
  simp only [BitVec.ofNat_eq_ofNat, BitVec.toNat_ofNat, Nat.zero_mod]
  omega

theorem addWithCarry_eq (a b : Limb) (carry : Bool) :
    (addWithCarry a b carry).1.toNat + (addWithCarry a b carry).2.toNat * 2 ^ 64 =
      a.toNat + b.toNat + carry.toNat := by
  have ha := a.toNat_lt
  have hb := b.toNat_lt
  have hcarry := carry.toNat_le
  have hsum : (widen a + widen b + ofFlag carry).toNat =
      a.toNat + b.toNat + carry.toNat := by
    simp only [BitVec.toNat_add, toNat_widen, toNat_ofFlag]
    omega
  simp only [addWithCarry, upperHalf_bne_zero, toNat_lowHalf, hsum]
  exact mod_add_carry (by omega)

theorem subWithBorrow_eq (a b : Limb) (borrow : Bool) :
    (subWithBorrow a b borrow).1.toNat + b.toNat + borrow.toNat =
      a.toNat + (subWithBorrow a b borrow).2.toNat * 2 ^ 64 := by
  have ha := a.toNat_lt
  have hb := b.toNat_lt
  have hborrow := borrow.toNat_le
  have hvalue : (subWithBorrow a b borrow).1.toNat =
      (a.toNat + 2 ^ 64 - (b.toNat + borrow.toNat)) % 2 ^ 64 := by
    simp only [subWithBorrow, toNat_lowHalf, BitVec.toNat_sub, toNat_widen, toNat_ofFlag]
    omega
  have hflag : (subWithBorrow a b borrow).2 =
      decide (a.toNat < b.toNat + borrow.toNat) := by
    rw [subWithBorrow, upperHalf_bne_zero, decide_eq_decide]
    simp only [BitVec.toNat_sub, toNat_widen, toNat_ofFlag]
    omega
  rw [hvalue, hflag, Nat.add_assoc]
  exact sub_mod_add_borrow ha (by omega)

theorem exact_limbOps : wideWord.toLimbOps.Exact where
  addWithCarry := addWithCarry_eq
  subWithBorrow := subWithBorrow_eq
  wideningMul a b := by
    have hproduct : a.toNat * b.toNat < 2 ^ 64 * 2 ^ 64 :=
      Nat.mul_lt_mul'' a.toNat_lt b.toNat_lt
    change (UInt128.ofWide (widen a * widen b)).toNat = _
    rw [UInt128.toNat_ofWide, BitVec.toNat_mul, toNat_widen, toNat_widen,
      Nat.mod_eq_of_lt hproduct]
  divPair high low divisor hhigh := by
    have hpos : 0 < divisor.toNat := Nat.zero_lt_of_lt (UInt64.lt_iff_toNat_lt.mp hhigh)
    have hremainder : (high.toNat * 2 ^ 64 + low.toNat) % divisor.toNat < divisor.toNat :=
      Nat.mod_lt _ hpos
    change IsDivision _ _
      (lowHalf (UInt128.toWide ⟨high, low⟩ / widen divisor)).toNat
      (lowHalf (UInt128.toWide ⟨high, low⟩ % widen divisor)).toNat
    rw [toNat_lowHalf, toNat_lowHalf, BitVec.toNat_udiv, BitVec.toNat_umod,
      UInt128.toNat_toWide, toNat_widen, UInt128.toNat,
      Nat.mod_eq_of_lt (pair_div_lt hhigh),
      Nat.mod_eq_of_lt (Nat.lt_trans hremainder divisor.toNat_lt)]
    exact .div_mod _ hpos

theorem add_eq (a b : UInt128) (carry : Bool) :
    (add a b carry).1.toNat + (add a b carry).2.toNat * 2 ^ 128 =
      a.toNat + b.toNat + carry.toNat := by
  have ha := a.toNat_lt
  have hb := b.toNat_lt
  have hcarry := carry.toNat_le
  -- The second addition overflows only when the first one did not.
  have hflag : (add a b carry).2 =
      decide (2 ^ 128 ≤ a.toNat + b.toNat + carry.toNat) := by
    rw [Bool.eq_iff_iff, decide_eq_true_iff]
    simp only [add, BitVec.uaddOverflow, BitVec.toNat_add, UInt128.toNat_toWide,
      toNat_ofFlag, Bool.or_eq_true, decide_eq_true_eq, ge_iff_le]
    omega
  have hvalue : (add a b carry).1.toNat =
      (a.toNat + b.toNat + carry.toNat) % 2 ^ 128 := by
    simp only [add, UInt128.toNat_ofWide, BitVec.toNat_add, UInt128.toNat_toWide,
      toNat_ofFlag]
    omega
  rw [hvalue, hflag]
  exact mod_add_carry (by omega)

theorem sub_eq (a b : UInt128) (borrow : Bool) :
    (sub a b borrow).1.toNat + b.toNat + borrow.toNat =
      a.toNat + (sub a b borrow).2.toNat * 2 ^ 128 := by
  have ha := a.toNat_lt
  have hb := b.toNat_lt
  have hborrow := borrow.toNat_le
  have hflag : (sub a b borrow).2 = decide (a.toNat < b.toNat + borrow.toNat) := by
    rw [Bool.eq_iff_iff, decide_eq_true_iff]
    simp only [sub, BitVec.usubOverflow, BitVec.toNat_sub, UInt128.toNat_toWide,
      toNat_ofFlag, Bool.or_eq_true, decide_eq_true_eq]
    omega
  have hvalue : (sub a b borrow).1.toNat =
      (a.toNat + 2 ^ 128 - (b.toNat + borrow.toNat)) % 2 ^ 128 := by
    simp only [sub, UInt128.toNat_ofWide, BitVec.toNat_sub, UInt128.toNat_toWide,
      toNat_ofFlag]
    omega
  rw [hvalue, hflag, Nat.add_assoc]
  exact sub_mod_add_borrow ha (by omega)

theorem toNat_ofWide_mul (a b : UInt128) :
    (UInt128.ofWide (a.toWide * b.toWide)).toNat = a.toNat * b.toNat % 2 ^ 128 := by
  rw [UInt128.toNat_ofWide, BitVec.toNat_mul, UInt128.toNat_toWide, UInt128.toNat_toWide]

end WideWord

theorem exact_wideWord : wideWord.Exact where
  toExact := WideWord.exact_limbOps
  add := WideWord.add_eq
  sub := WideWord.sub_eq
  mul := WideWord.toNat_ofWide_mul
  overflowingMul_value := WideWord.toNat_ofWide_mul
  overflowingMul_flag a b := by
    change BitVec.umulOverflow a.toWide b.toWide = _
    rw [BitVec.umulOverflow, UInt128.toNat_toWide, UInt128.toNat_toWide]
  divMod dividend divisor hdivisor := by
    have hpos : 0 < divisor.toNat :=
      Nat.pos_of_ne_zero (UInt128.toNat_ne_zero hdivisor)
    change IsDivision _ _ (UInt128.ofWide (dividend.toWide / divisor.toWide)).toNat
      (UInt128.ofWide (dividend.toWide % divisor.toWide)).toNat
    rw [UInt128.toNat_ofWide, UInt128.toNat_ofWide, BitVec.toNat_udiv, BitVec.toNat_umod,
      UInt128.toNat_toWide, UInt128.toNat_toWide]
    exact .div_mod _ hpos
  shl value amount hamount := by
    change (UInt128.ofWide (value.toWide <<< amount)).toNat = _
    rw [UInt128.toNat_ofWide, BitVec.toNat_shiftLeft, UInt128.toNat_toWide,
      Nat.shiftLeft_eq]
  shr value amount hamount := by
    change (UInt128.ofWide (value.toWide >>> amount)).toNat = _
    rw [UInt128.toNat_ofWide, BitVec.toNat_ushiftRight, UInt128.toNat_toWide,
      Nat.shiftRight_eq_div_pow]

end TwoLimb.Engine
