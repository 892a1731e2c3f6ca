/-
# Exact results and their truncation

What the operators on unsigned integers return is an exact result modulo `2^128` and a
flag that says whether it was cut. `Truncates` states this once; the checked members of
a family then have a result exactly when the exact one fits. All of it follows from
the exactness of the selected engine.
-/

import TwoLimb.Proofs.Engine.Agreement
import TwoLimb.UInt128.Division

namespace TwoLimb.UInt128

/-- A flagged result of an operation whose exact result is not negative: the result is
cut to 128 bits, and the flag says whether that changed it. -/
structure Truncates (result : UInt128 × Bool) (exact : Nat) : Prop where
  value : result.1.toNat = exact % 2 ^ 128
  flag : result.2 = decide (2 ^ 128 ≤ exact)

/-- A result is refused exactly when it does not fit. -/
theorem Truncates.unflagged_eq {result : UInt128 × Bool} {exact : Nat}
    (hresult : Truncates result exact) :
    unflagged result = if exact < 2 ^ 128 then some (ofNat exact) else none := by
  obtain ⟨value, flag⟩ := result
  have hvalue : value = ofNat exact :=
    ext_toNat (hresult.value.trans (toNat_ofNat exact).symm)
  have hflag : flag = decide (2 ^ 128 ≤ exact) := hresult.flag
  by_cases hfits : exact < 2 ^ 128
  · rw [if_pos hfits, hvalue, hflag, decide_eq_false (Nat.not_le_of_lt hfits)]
    rfl
  · rw [if_neg hfits, hvalue, hflag, decide_eq_true (Nat.le_of_not_lt hfits)]
    rfl

theorem truncates_overflowingAdd (a b : UInt128) :
    Truncates (a.overflowingAdd b) (a.toNat + b.toNat) := by
  have hsum := Engine.exact_portable.add a b false
  have hresult : a.overflowingAdd b = Engine.portable.add a b false := rfl
  have hlt := (Engine.portable.add a b false).1.toNat_lt
  rw [← hresult, Bool.toNat_false, Nat.add_zero] at hsum
  rw [← hresult] at hlt
  refine ⟨?_, ?_⟩
  · rw [← hsum, Nat.add_mul_mod_self_right, Nat.mod_eq_of_lt hlt]
  · cases hflag : (a.overflowingAdd b).2 with
    | false =>
        rw [hflag, Bool.toNat_false, Nat.zero_mul, Nat.add_zero] at hsum
        exact (decide_eq_false (Nat.not_le_of_lt (hsum ▸ hlt))).symm
    | true =>
        rw [hflag, Bool.toNat_true, Nat.one_mul] at hsum
        exact (decide_eq_true (hsum ▸ Nat.le_add_left _ _)).symm

theorem truncates_overflowingMul (a b : UInt128) :
    Truncates (a.overflowingMul b) (a.toNat * b.toNat) where
  value := Engine.exact_portable.overflowingMul_value a b
  flag := Engine.exact_portable.overflowingMul_flag a b

/-- The product operator cuts the exact product. -/
theorem toNat_mul (a b : UInt128) : (a * b).toNat = a.toNat * b.toNat % 2 ^ 128 :=
  (truncates_overflowingMul a b).value

/-- The checked sum is the exact sum when it fits. -/
theorem add?_eq (a b : UInt128) :
    a.add? b = if a.toNat + b.toNat < 2 ^ 128 then some (ofNat (a.toNat + b.toNat)) else none :=
  (truncates_overflowingAdd a b).unflagged_eq

/-- The checked product is the exact product when it fits. -/
theorem mul?_eq (a b : UInt128) :
    a.mul? b = if a.toNat * b.toNat < 2 ^ 128 then some (ofNat (a.toNat * b.toNat)) else none :=
  (truncates_overflowingMul a b).unflagged_eq

/-- A product and a sum after it fit when the exact result does. -/
theorem mul?_bind_add?_eq (a b c : UInt128) :
    ((a.mul? b).bind fun product => product.add? c) =
      if a.toNat * b.toNat + c.toNat < 2 ^ 128 then
        some (ofNat (a.toNat * b.toNat + c.toNat))
      else none := by
  rw [mul?_eq]
  by_cases hproduct : a.toNat * b.toNat < 2 ^ 128
  · rw [if_pos hproduct, Option.bind_some, add?_eq, toNat_ofNat, Nat.mod_eq_of_lt hproduct]
  · have hsum : ¬a.toNat * b.toNat + c.toNat < 2 ^ 128 := fun hsum =>
      hproduct (Nat.lt_of_le_of_lt (Nat.le_add_right _ _) hsum)
    rw [if_neg hproduct, if_neg hsum, Option.bind_none]

/-- A division by anything but zero is exact. -/
theorem divides_divMod (a : UInt128) {b : UInt128} (hb : b ≠ .zero) :
    (a.divMod b).Divides a b :=
  Engine.exact_portable.divMod a b hb

end TwoLimb.UInt128
