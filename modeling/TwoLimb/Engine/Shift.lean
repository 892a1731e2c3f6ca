/-
# Shifts of limb pairs

A shift by less than 128 places, spelled out on two limbs. There is one case for
amounts that stay within a limb, one for amounts that cross it, and one for zero,
where the complementary limb shift would be by a whole limb. The main statements
say that a shift towards the low end divides by a power of two, and that a shift
towards the high end multiplies by it and keeps the value modulo `2^128`.
-/

import TwoLimb.UInt128.Basic

namespace TwoLimb.Engine.Limbwise

/-- Shift towards the high end by less than 128. -/
def shl (value : UInt128) (amount : Nat) : UInt128 :=
  if amount = 0 then value
  else if amount ≥ Limb.bits then ⟨value.low.shl (amount - Limb.bits), 0⟩
  else ⟨value.high.shl amount ||| value.low.shr (Limb.bits - amount), value.low.shl amount⟩

/-- Shift towards the low end by less than 128. -/
def shr (value : UInt128) (amount : Nat) : UInt128 :=
  if amount = 0 then value
  else if amount ≥ Limb.bits then ⟨0, value.high.shr (amount - Limb.bits)⟩
  else ⟨value.high.shr amount, value.low.shr amount ||| value.high.shl (Limb.bits - amount)⟩

/-- A shift towards the low end divides and rounds down. -/
theorem toNat_shr (value : UInt128) {amount : Nat} (hamount : amount < 128) :
    (shr value amount).toNat = value.toNat / 2 ^ amount := by
  have hlow := value.low.toNat_lt
  unfold shr
  split
  · rename_i hzero
    rw [hzero, Nat.pow_zero, Nat.div_one]
  · split
    · rename_i _ hcross
      have hcross : 64 ≤ amount := hcross
      have hsplit : 2 ^ amount = 2 ^ 64 * 2 ^ (amount - 64) := by
        rw [← Nat.pow_add]
        congr 1
        omega
      have hdrop : value.toNat / 2 ^ 64 = value.high.toNat := by
        unfold UInt128.toNat
        omega
      rw [hsplit, ← Nat.div_div_eq_div_mul, hdrop]
      simp [UInt128.toNat, Limb.bits, Limb.toNat_shr, show amount - 64 < 64 by omega]
    · rename_i hne hwithin
      have hwithin : amount < 64 := Nat.lt_of_not_ge hwithin
      have hsub : 64 - (64 - amount) = amount := by omega
      have hlowLt : value.low.toNat / 2 ^ amount < 2 ^ (64 - amount) := by
        rw [Nat.div_lt_iff_lt_mul (Nat.two_pow_pos amount), ← Nat.pow_add,
          Nat.sub_add_cancel (by omega)]
        exact hlow
      have hsplit : 2 ^ 64 = 2 ^ (64 - amount) * 2 ^ amount := by
        rw [← Nat.pow_add, Nat.sub_add_cancel (by omega)]
      have hhigh := Nat.div_add_mod value.high.toNat (2 ^ amount)
      have hmoved : value.high.toNat * 2 ^ 64 =
          value.high.toNat / 2 ^ amount * 2 ^ 64 * 2 ^ amount +
            value.high.toNat % 2 ^ amount * 2 ^ (64 - amount) * 2 ^ amount := by
        conv => lhs; rw [← hhigh, Nat.add_mul]
        congr 1
        · rw [Nat.mul_comm (2 ^ amount), Nat.mul_right_comm]
        · rw [hsplit, Nat.mul_assoc]
      simp only [UInt128.toNat, Limb.bits, UInt64.toNat_or, Limb.toNat_shr _ hwithin,
        Limb.toNat_shl _ (show 64 - amount < 64 by omega)]
      rw [mul_two_pow_mod_two_pow _ (show 64 - amount ≤ 64 by omega), hsub, Nat.or_comm,
        mul_two_pow_or hlowLt, hmoved, ← Nat.add_mul, Nat.add_comm _ value.low.toNat,
        Nat.add_mul_div_right _ _ (Nat.two_pow_pos amount), ← Nat.add_assoc, Nat.add_comm]

/-- A shift towards the high end multiplies and drops what leaves the pair. -/
theorem toNat_shl (value : UInt128) {amount : Nat} (hamount : amount < 128) :
    (shl value amount).toNat = value.toNat * 2 ^ amount % 2 ^ 128 := by
  have hlow := value.low.toNat_lt
  unfold shl
  split
  · rename_i hzero
    rw [hzero, Nat.pow_zero, Nat.mul_one, Nat.mod_eq_of_lt value.toNat_lt]
  · split
    · rename_i _ hcross
      have hcross : 64 ≤ amount := hcross
      have hsplit : 2 ^ amount = 2 ^ (amount - 64) * 2 ^ 64 := by
        rw [← Nat.pow_add]
        congr 1
        omega
      have hword : (2 : Nat) ^ 128 = 2 ^ 64 * 2 ^ 64 := by decide
      have hmod : value.toNat * 2 ^ (amount - 64) % 2 ^ 64 =
          value.low.toNat * 2 ^ (amount - 64) % 2 ^ 64 := by
        rw [Nat.mul_mod, show value.toNat % 2 ^ 64 = value.low.toNat by
          unfold UInt128.toNat; omega, ← Nat.mod_eq_of_lt hlow, ← Nat.mul_mod,
          Nat.mod_eq_of_lt hlow]
      rw [hsplit, ← Nat.mul_assoc, hword, Nat.mul_mod_mul_right, hmod]
      simp [UInt128.toNat, Limb.bits, Limb.toNat_shl, show amount - 64 < 64 by omega]
    · rename_i hne hwithin
      have hwithin : amount < 64 := Nat.lt_of_not_ge hwithin
      have hsub : 64 - (64 - amount) = amount := by omega
      have hhighLt : value.low.toNat / 2 ^ (64 - amount) < 2 ^ amount := by
        rw [Nat.div_lt_iff_lt_mul (Nat.two_pow_pos _), ← Nat.pow_add,
          show amount + (64 - amount) = 64 by omega]
        exact hlow
      simp only [UInt128.toNat, Limb.bits, UInt64.toNat_or, Limb.toNat_shl _ hwithin,
        Limb.toNat_shr _ (show 64 - amount < 64 by omega)]
      rw [mul_two_pow_mod_two_pow _ (show amount ≤ 64 by omega), mul_two_pow_or hhighLt,
        mul_two_pow_mod_two_pow _ (show amount ≤ 64 by omega)]
      have hpow : (2 : Nat) ^ 64 = 2 ^ (64 - amount) * 2 ^ amount := by
        rw [← Nat.pow_add, Nat.sub_add_cancel (by omega)]
      have hlowSplit : value.low.toNat * 2 ^ amount =
          value.low.toNat / 2 ^ (64 - amount) * 2 ^ 64 +
            value.low.toNat % 2 ^ (64 - amount) * 2 ^ amount := by
        have h := Nat.div_add_mod value.low.toNat (2 ^ (64 - amount))
        conv => lhs; rw [← h, Nat.add_mul]
        rw [hpow, Nat.mul_comm (2 ^ (64 - amount)), Nat.mul_assoc]
      have hhighSplit : value.high.toNat * 2 ^ 64 * 2 ^ amount =
          value.high.toNat / 2 ^ (64 - amount) * 2 ^ 128 +
            value.high.toNat % 2 ^ (64 - amount) * 2 ^ amount * 2 ^ 64 := by
        have h := Nat.div_add_mod value.high.toNat (2 ^ (64 - amount))
        have hword : (2 : Nat) ^ 128 = 2 ^ (64 - amount) * 2 ^ amount * 2 ^ 64 := by
          rw [← hpow, ← Nat.pow_add]
        conv => lhs; rw [← h, Nat.add_mul, Nat.add_mul]
        rw [hword]
        congr 1
        · rw [Nat.mul_comm (2 ^ (64 - amount)), Nat.mul_right_comm _ (2 ^ 64),
            Nat.mul_assoc, Nat.mul_assoc, Nat.mul_assoc]
        · rw [Nat.mul_right_comm]
      have hupper : value.high.toNat % 2 ^ (64 - amount) * 2 ^ amount +
          value.low.toNat / 2 ^ (64 - amount) < 2 ^ 64 := by
        have hrest := Nat.mod_lt value.high.toNat (Nat.two_pow_pos (64 - amount))
        calc
          _ < value.high.toNat % 2 ^ (64 - amount) * 2 ^ amount + 2 ^ amount := by omega
          _ = (value.high.toNat % 2 ^ (64 - amount) + 1) * 2 ^ amount := by
            rw [Nat.add_mul, Nat.one_mul]
          _ ≤ 2 ^ (64 - amount) * 2 ^ amount := Nat.mul_le_mul_right _ hrest
          _ = 2 ^ 64 := hpow.symm
      have hlower : value.low.toNat % 2 ^ (64 - amount) * 2 ^ amount < 2 ^ 64 := by
        rw [hpow]
        exact Nat.mul_lt_mul_of_pos_right (Nat.mod_lt _ (Nat.two_pow_pos _))
          (Nat.two_pow_pos _)
      rw [Nat.add_mul (value.high.toNat * 2 ^ 64), hhighSplit, hlowSplit]
      omega

end TwoLimb.Engine.Limbwise
