/-
# Restoring division

The divisor is moved up until its topmost bit meets that of the dividend, and moved
down again by one place per round. Before every round the dividend is divided exactly
by the divisor at its place, so after the last round it is divided by the divisor
itself. The alignment is what makes this true at the start, and it keeps every
intermediate value within its 128 bits.
-/

import TwoLimb.Engine.Limbwise
import TwoLimb.Proofs.Engine.Exact
import TwoLimb.Proofs.UInt128.Bits

namespace TwoLimb.Engine.Limbwise

/-- The alignment of two values is the distance of their integer logarithms. -/
theorem alignment_eq {dividend divisor : UInt128} (hdivisor : divisor.toNat ≠ 0)
    (hle : divisor.toNat ≤ dividend.toNat) :
    alignment dividend divisor = dividend.toNat.log2 - divisor.toNat.log2 := by
  have hdividend : dividend.toNat ≠ 0 := by omega
  have hlog : dividend.toNat.log2 < 128 := (Nat.log2_lt hdividend).mpr dividend.toNat_lt
  rw [alignment, UInt128.leadingZeros_eq hdivisor, UInt128.leadingZeros_eq hdividend]
  omega

/-- An aligned divisor still fits, and moved up by one more place it exceeds the
dividend. -/
theorem alignment_bounds {dividend divisor : UInt128} (hdivisor : divisor.toNat ≠ 0)
    (hle : divisor.toNat ≤ dividend.toNat) :
    divisor.toNat * 2 ^ alignment dividend divisor < 2 ^ 128 ∧
      dividend.toNat < divisor.toNat * 2 ^ (alignment dividend divisor + 1) := by
  have hdividend : dividend.toNat ≠ 0 := by omega
  have hlog : dividend.toNat.log2 < 128 := (Nat.log2_lt hdividend).mpr dividend.toNat_lt
  have hlogLe : divisor.toNat.log2 ≤ dividend.toNat.log2 :=
    (Nat.le_log2 hdividend).mpr (Nat.le_trans (Nat.log2_self_le hdivisor) hle)
  have hdividendLt : dividend.toNat < 2 ^ (dividend.toNat.log2 + 1) := Nat.lt_log2_self
  have hdivisorLt : divisor.toNat < 2 ^ (divisor.toNat.log2 + 1) := Nat.lt_log2_self
  have hdivisorLe : 2 ^ divisor.toNat.log2 ≤ divisor.toNat := Nat.log2_self_le hdivisor
  rw [alignment_eq hdivisor hle]
  generalize dividend.toNat.log2 = n at *
  generalize divisor.toNat.log2 = d at *
  constructor
  · calc
      divisor.toNat * 2 ^ (n - d) < 2 ^ (d + 1) * 2 ^ (n - d) :=
        Nat.mul_lt_mul_of_pos_right hdivisorLt (Nat.two_pow_pos _)
      _ = 2 ^ (n + 1) := by
        rw [← Nat.pow_add, show d + 1 + (n - d) = n + 1 by omega]
      _ ≤ 2 ^ 128 := Nat.pow_le_pow_right (by decide) hlog
  · calc
      dividend.toNat < 2 ^ (n + 1) := hdividendLt
      _ = 2 ^ d * 2 ^ (n - d + 1) := by
        rw [← Nat.pow_add, show d + (n - d + 1) = n + 1 by omega]
      _ ≤ divisor.toNat * 2 ^ (n - d + 1) := Nat.mul_le_mul_right _ hdivisorLe

/-- A divisor of two limbs is moved up by less than a limb. -/
theorem alignment_lt {dividend divisor : UInt128} (hhigh : divisor.high ≠ 0)
    (hle : divisor.toNat ≤ dividend.toNat) : alignment dividend divisor < 64 := by
  have hdivisor := UInt128.toNat_ne_zero_of_high hhigh
  have hlog : dividend.toNat.log2 < 128 :=
    (Nat.log2_lt (by omega)).mpr dividend.toNat_lt
  rw [alignment_eq hdivisor hle, UInt128.log2_of_high (Limb.toNat_ne_zero hhigh)]
  omega

theorem toNat_or_one {a : UInt128} (heven : a.toNat % 2 = 0) :
    UInt128.toNat ⟨a.high, a.low ||| 1⟩ = a.toNat + 1 := by
  have hlow : a.low.toNat = a.low.toNat / 2 * 2 ^ 1 := by
    unfold UInt128.toNat at heven
    omega
  have hset : (a.low ||| 1).toNat = a.low.toNat + 1 := by
    rw [UInt64.toNat_or, hlow, UInt64.toNat_one, mul_two_pow_or (by decide)]
  unfold UInt128.toNat
  rw [hset, Nat.add_assoc]

theorem toNat_sub_of_le {ops : LimbOps} (hops : ops.Exact) {a b : UInt128}
    (hle : b.toNat ≤ a.toNat) : (sub ops a b false).1.toNat = a.toNat - b.toNat := by
  have hdifference := toNat_sub ops hops.subWithBorrow a b false
  have ha := a.toNat_lt
  have hlt := (sub ops a b false).1.toNat_lt
  cases hborrow : (sub ops a b false).2 <;>
    simp only [hborrow, Bool.toNat_true, Bool.toNat_false] at hdifference <;> omega

namespace Restoring

variable {dividend divisor : UInt128} {rounds rest : Nat} {s : Restoring}

/-- The numbers when `rest` of the given number of rounds are left: the dividend is
divided exactly by the divisor moved up by `rest` places, the denominator is half of
that, and the quotient has as many bits as there were rounds. -/
structure Invariant (dividend divisor : UInt128) (rounds rest : Nat) (s : Restoring) :
    Prop where
  division : IsDivision dividend.toNat (divisor.toNat * 2 ^ rest) s.quotient.toNat
    s.remainder.toNat
  quotient_lt : s.quotient.toNat < 2 ^ (rounds - rest)
  denominator_eq : s.denominator.toNat = divisor.toNat * 2 ^ rest / 2

/-- The alignment establishes the invariant before the first round. -/
theorem Invariant.start (hdivisor : divisor.toNat ≠ 0)
    (hle : divisor.toNat ≤ dividend.toNat) (halignment : alignment dividend divisor < 128) :
    Invariant dividend divisor (alignment dividend divisor + 1)
      (alignment dividend divisor + 1)
      (.start dividend divisor (alignment dividend divisor)) := by
  obtain ⟨hfits, hexceeds⟩ := alignment_bounds hdivisor hle
  generalize alignment dividend divisor = shift at *
  refine ⟨⟨?_, hexceeds⟩, ?_, ?_⟩
  · rw [Restoring.start, UInt128.toNat_zero, Nat.zero_mul, Nat.zero_add]
  · rw [Restoring.start, UInt128.toNat_zero]
    exact Nat.two_pow_pos _
  · rw [Restoring.start, Limbwise.toNat_shl divisor halignment, Nat.mod_eq_of_lt hfits,
      Nat.pow_succ, ← Nat.mul_assoc, Nat.mul_div_cancel _ (by decide)]

/-- One round keeps the invariant: the divisor comes down by one place, and the digit
of that place enters the quotient. -/
theorem Invariant.round {ops : LimbOps} (hops : ops.Exact) (hrounds : rounds ≤ 128)
    (hrest : rest < rounds) (hinvariant : Invariant dividend divisor rounds (rest + 1) s) :
    Invariant dividend divisor rounds rest (Restoring.round ops s) := by
  obtain ⟨⟨hvalue, hremainder⟩, hquotient, hdenominator⟩ := hinvariant
  have hdouble : divisor.toNat * 2 ^ (rest + 1) = 2 * (divisor.toNat * 2 ^ rest) := by
    rw [Nat.pow_succ, ← Nat.mul_assoc, Nat.mul_comm]
  have hplace : s.denominator.toNat = divisor.toNat * 2 ^ rest := by
    rw [hdenominator, hdouble, Nat.mul_div_cancel_left _ (by decide)]
  have hpower : 2 ^ (rounds - rest) = 2 * 2 ^ (rounds - (rest + 1)) := by
    rw [show rounds - rest = rounds - (rest + 1) + 1 by omega, Nat.pow_succ, Nat.mul_comm]
  have hquotientLt : s.quotient.toNat < 2 ^ 127 :=
    Nat.lt_of_lt_of_le hquotient (Nat.pow_le_pow_right (by decide) (by omega))
  have hshifted : (shl s.quotient 1).toNat = 2 * s.quotient.toNat := by
    rw [Limbwise.toNat_shl _ (show 1 < 128 by decide)]
    omega
  have hlowered : (shr s.denominator 1).toNat = divisor.toNat * 2 ^ rest / 2 := by
    rw [Limbwise.toNat_shr _ (show 1 < 128 by decide), hplace]
  rw [hdouble, ← hplace, Nat.mul_left_comm] at hvalue
  rw [hdouble, ← hplace] at hremainder
  by_cases hgreater : s.remainder.toNat < s.denominator.toNat
  · have hround : Restoring.round ops s = ⟨shl s.quotient 1, s.remainder, shr s.denominator 1⟩ :=
      if_pos ((UInt128.isGreaterThan_iff _ _).mpr hgreater)
    rw [hround]
    refine ⟨⟨?_, ?_⟩, ?_, hlowered⟩
    · rw [hshifted, ← hplace, Nat.mul_assoc]
      exact hvalue
    · rw [← hplace]
      exact hgreater
    · rw [hshifted, hpower]
      omega
  · have hround : Restoring.round ops s =
        ⟨⟨(shl s.quotient 1).high, (shl s.quotient 1).low ||| 1⟩,
          (sub ops s.remainder s.denominator false).1, shr s.denominator 1⟩ :=
      if_neg fun h => hgreater ((UInt128.isGreaterThan_iff _ _).mp h)
    have hdigit : UInt128.toNat ⟨(shl s.quotient 1).high, (shl s.quotient 1).low ||| 1⟩ =
        2 * s.quotient.toNat + 1 := by
      rw [toNat_or_one (by omega), hshifted]
    have hrestored := toNat_sub_of_le hops (Nat.le_of_not_lt hgreater)
    rw [hround]
    refine ⟨⟨?_, ?_⟩, ?_, hlowered⟩
    · rw [hdigit, hrestored, ← hplace, Nat.add_mul, Nat.mul_assoc]
      omega
    · rw [hrestored, ← hplace]
      omega
    · rw [hdigit, hpower]
      omega

/-- Rounds keep the invariant, one place for each of them. -/
theorem Invariant.after {ops : LimbOps} (hops : ops.Exact) (hrounds : rounds ≤ 128)
    {count : Nat} (hrest : rest + count ≤ rounds)
    (hinvariant : Invariant dividend divisor rounds (rest + count) s) :
    Invariant dividend divisor rounds rest (Restoring.run ops count s) := by
  induction count generalizing s with
  | zero => exact hinvariant
  | succ count ih => exact ih (by omega) (hinvariant.round hops hrounds hrest)

/-- The rounds that are left bring the divisor down to its own place. -/
theorem Invariant.run {ops : LimbOps} (hops : ops.Exact) (hrounds : rounds ≤ 128)
    (hrest : rest ≤ rounds) (hinvariant : Invariant dividend divisor rounds rest s) :
    Invariant dividend divisor rounds 0 (Restoring.run ops rest s) := by
  rw [← Nat.zero_add rest] at hrest hinvariant
  exact hinvariant.after hops hrounds hrest

end Restoring

/-- Restoring division is exact where its rounds run: the divisor has two limbs and does
not exceed the dividend. -/
theorem divides_divModRestoring {ops : LimbOps} (hops : ops.Exact)
    {dividend divisor : UInt128} (hhigh : divisor.high ≠ 0)
    (hle : divisor.toNat ≤ dividend.toNat) :
    (divModRestoring ops dividend divisor).Divides dividend divisor := by
  have halignment := alignment_lt hhigh hle
  have hdivisor := UInt128.toNat_ne_zero_of_high hhigh
  have hlast := (Restoring.Invariant.start hdivisor hle (by omega)).run hops
    (by omega) (Nat.le_refl _)
  simpa [divModRestoring, DivMod.Divides] using hlast.division

end TwoLimb.Engine.Limbwise
