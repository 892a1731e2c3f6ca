/-
# Division, round by round

Both divisions of the engines on limbs are loops. Their results are exact because a relation
between the numbers holds whenever a round starts, and this module says which one it is at
every round, for the states that the loop of the program goes through.

The bitwise division reads its dividend from the top. What has been read so far is divided,
and a doubled remainder that no longer fits a limb is known by the bit that it spills. The
restoring division reads its dividend as a whole and moves its divisor down instead. Aligned
with the dividend, the divisor still fits 128 bits, so nothing is lost by moving it up, and
nothing is lost by moving it down as long as it is looked at again.
-/

import TwoLimb.Proofs.UInt128.DivisionTrace

namespace TwoLimb.Engine

namespace Portable.Bitwise

variable {high low divisor bit : Limb} {s : Bitwise}

/-- The state of the division when the given number of bits has been brought down, the topmost
bit of the low limb first. -/
def afterBits (high low divisor : Limb) : (count : Nat) → Bitwise
  | 0 => ⟨0, high⟩
  | count + 1 => step divisor (low.shr (63 - count) &&& 1) (afterBits high low divisor count)

/-- The bits that are left take a state on the way to the result. -/
theorem run_afterBits (high low divisor : Limb) {count : Nat} (hcount : count ≤ 64) :
    run low divisor (64 - count) (afterBits high low divisor count) =
      run low divisor 64 ⟨0, high⟩ := by
  induction count with
  | zero => rfl
  | succ count ih =>
      rw [← ih (by omega), show 64 - count = 63 - count + 1 by omega, run,
        show 64 - (count + 1) = 63 - count by omega, afterBits]

theorem invariant_afterBits (low : Limb) (hhigh : high.toNat < divisor.toNat) {count : Nat}
    (hcount : count ≤ 64) :
    Invariant high low divisor (64 - count) (afterBits high low divisor count) := by
  induction count with
  | zero => exact .start hhigh
  | succ count ih =>
      have hbefore := ih (by omega)
      rw [show 64 - count = 63 - count + 1 by omega] at hbefore
      rw [show 64 - (count + 1) = 63 - count by omega]
      exact hbefore.step (by omega)

/-- A step that brings a bit down exactly, although the doubled remainder may need one bit more
than a limb has. That bit is the one that is spilled. The comparison is that of the integers,
the wrapping difference is theirs, and quotient and remainder are continued by a division of
the doubled remainder. -/
structure StepsExactly (divisor bit : Limb) (s : Bitwise) : Prop where
  doubled_lt : 2 * s.remainder.toNat + bit.toNat < 2 * divisor.toNat
  spilled_iff : s.remainder.shr (Limb.bits - 1) ≠ 0 ↔
    2 ^ 64 ≤ 2 * s.remainder.toNat + bit.toNat
  fits_iff : (s.remainder.shr (Limb.bits - 1) ≠ 0 ∨ divisor ≤ s.remainder.shl 1 ||| bit) ↔
    divisor.toNat ≤ 2 * s.remainder.toNat + bit.toNat
  restored : divisor.toNat ≤ 2 * s.remainder.toNat + bit.toNat →
    ((s.remainder.shl 1 ||| bit) - divisor).toNat =
      2 * s.remainder.toNat + bit.toNat - divisor.toNat
  quotient_eq : (step divisor bit s).quotient.toNat =
    2 * s.quotient.toNat + (2 * s.remainder.toNat + bit.toNat) / divisor.toNat
  remainder_eq : (step divisor bit s).remainder.toNat =
    (2 * s.remainder.toNat + bit.toNat) % divisor.toNat

theorem spilled_iff (hbit : bit.toNat < 2) :
    s.remainder.shr (Limb.bits - 1) ≠ 0 ↔ 2 ^ 64 ≤ 2 * s.remainder.toNat + bit.toNat := by
  rw [ne_eq, ← UInt64.toNat_inj, Limb.toNat_shr _ (show Limb.bits - 1 < 64 by decide),
    UInt64.toNat_zero, show Limb.bits - 1 = 63 from rfl]
  omega

/-- Quotient and remainder are continued by dividing the doubled remainder, which holds the
divisor once or not at all. -/
theorem step_divides_doubled (hremainder : s.remainder.toNat < divisor.toNat)
    (hquotient : s.quotient.toNat < 2 ^ 63) (hbit : bit.toNat < 2) :
    (step divisor bit s).quotient.toNat =
        2 * s.quotient.toNat + (2 * s.remainder.toNat + bit.toNat) / divisor.toNat ∧
      (step divisor bit s).remainder.toNat =
        (2 * s.remainder.toNat + bit.toNat) % divisor.toNat := by
  by_cases hfits : divisor.toNat ≤ 2 * s.remainder.toNat + bit.toNat
  · obtain ⟨hnextQuotient, hnextRemainder⟩ := step_of_fits hremainder hquotient hbit hfits
    have hone : (2 * s.remainder.toNat + bit.toNat) / divisor.toNat = 1 :=
      Nat.div_eq_of_lt_le (by omega) (by omega)
    rw [hnextQuotient, hnextRemainder, hone, Nat.mod_eq_sub_mod hfits,
      Nat.mod_eq_of_lt (by omega)]
    exact ⟨rfl, rfl⟩
  · obtain ⟨hnextQuotient, hnextRemainder⟩ :=
      step_of_not_fits hremainder hquotient hbit (Nat.lt_of_not_le hfits)
    rw [hnextQuotient, hnextRemainder, Nat.div_eq_of_lt (Nat.lt_of_not_le hfits),
      Nat.mod_eq_of_lt (Nat.lt_of_not_le hfits)]
    exact ⟨rfl, rfl⟩

/-- A remainder below the divisor is all that a step relies on. -/
theorem stepsExactly (hremainder : s.remainder.toNat < divisor.toNat)
    (hquotient : s.quotient.toNat < 2 ^ 63) (hbit : bit.toNat < 2) :
    StepsExactly divisor bit s := by
  have hdoubled : 2 * s.remainder.toNat + bit.toNat < 2 * divisor.toNat := by omega
  obtain ⟨hnextQuotient, hnextRemainder⟩ := step_divides_doubled hremainder hquotient hbit
  exact ⟨hdoubled, spilled_iff hbit, fits_iff hremainder hbit,
    toNat_doubled_sub hremainder hbit, hnextQuotient, hnextRemainder⟩

end Portable.Bitwise

/-- The bitwise division divides what it has read. When the bits of the low limb from the
topmost one down to bit `place` have been brought down, the part of the dividend that they
belong to is divided exactly, the remainder is below the divisor, and the quotient has as many
bits as have been read. The step that reads the next bit is exact even where the doubled
remainder is wider than a limb, and the bits that are left take this state to the result. -/
theorem Portable.bits_read_are_divided {high low divisor : Limb} (hhigh : high < divisor)
    {place : Nat} (hplace : place ≤ 64) :
    Bitwise.Invariant high low divisor place (.afterBits high low divisor (64 - place)) ∧
    (∀ next, next + 1 = place →
      Bitwise.StepsExactly divisor (low.shr next &&& 1)
        (.afterBits high low divisor (64 - place))) ∧
    divPair high low divisor =
      ((Bitwise.run low divisor place (.afterBits high low divisor (64 - place))).quotient,
        (Bitwise.run low divisor place (.afterBits high low divisor (64 - place))).remainder) := by
  have hread : 64 - (64 - place) = place := Nat.sub_sub_self hplace
  have hinvariant := Bitwise.invariant_afterBits low (UInt64.lt_iff_toNat_lt.mp hhigh)
    (Nat.sub_le 64 place)
  have hrun := Bitwise.run_afterBits high low divisor (Nat.sub_le 64 place)
  rw [hread] at hinvariant hrun
  refine ⟨hinvariant, ?_, ?_⟩
  · rintro next rfl
    have hbit := toNat_shr_and_one low (show next < 64 by omega)
    have hquotient : 2 ^ (64 - (next + 1)) ≤ 2 ^ 63 :=
      Nat.pow_le_pow_right (by decide) (by omega)
    exact Bitwise.stepsExactly hinvariant.remainder_lt
      (Nat.lt_of_lt_of_le hinvariant.quotient_lt hquotient) (by omega)
  · rw [hrun]
    rfl

/-- With a divisor above `2^63` the doubled remainder of the very first step spills, and the
step is exact all the same. -/
theorem Portable.spilled_bit_is_restored :
    (0x8000000000000000 : Limb) < 0x8000000000000001 ∧ 64 ≤ 64 ∧
    2 ^ 64 ≤ 2 * (Bitwise.afterBits 0x8000000000000000 12345 0x8000000000000001 0).remainder.toNat ∧
    Bitwise.StepsExactly 0x8000000000000001 ((12345 : Limb).shr 63 &&& 1)
      (.afterBits 0x8000000000000000 12345 0x8000000000000001 0) :=
  ⟨by decide, by decide, by decide,
    (bits_read_are_divided (by decide) (Nat.le_refl 64)).2.1 63 rfl⟩

namespace Limbwise.Restoring

variable {ops : LimbOps} {dividend divisor : UInt128} {shift round : Nat} {s : Restoring}

theorem run_add (first second : Nat) :
    run ops (first + second) s = run ops second (run ops first s) := by
  induction first generalizing s with
  | zero => rw [Nat.zero_add, run]
  | succ first ih => rw [Nat.add_right_comm, run, ih, run]

/-- When a round starts, the loop has the rounds before behind it, and those from it on lead
to the end. -/
theorem loops_from_round (hround : round ≤ shift + 1) :
    Loops ops shift round (run ops round s) (shift + 1 - round) (run ops (shift + 1) s) := by
  have hcount := Nat.add_sub_cancel' hround
  have hend : run ops (shift + 1) s = run ops (shift + 1 - round) (run ops round s) := by
    rw [← run_add, hcount]
  rw [hend]
  exact loops_run hcount

/-- The numbers at the start of a round, as integers. The dividend is divided exactly by the
divisor moved up by one place more than the round looks at, and the quotient has one bit for
every round before. In the rounds that are made, the denominator is the divisor at its place
and the quotient moves up without loss. The denominator moves down without loss where another
round looks at it. -/
structure HoldsAt (dividend divisor : UInt128) (shift round : Nat) (s : Restoring) : Prop where
  value : dividend.toNat =
    s.quotient.toNat * divisor.toNat * 2 ^ (shift + 1 - round) + s.remainder.toNat
  remainder_lt : s.remainder.toNat < divisor.toNat * 2 ^ (shift + 1 - round)
  quotient_lt : s.quotient.toNat < 2 ^ round
  denominator_eq : round ≤ shift → s.denominator.toNat = divisor.toNat * 2 ^ (shift - round)
  quotient_kept : round ≤ shift → (shl s.quotient 1).toNat = s.quotient.toNat * 2
  denominator_kept : round < shift → (shr s.denominator 1).toNat * 2 = s.denominator.toNat

/-- The invariant of the rounds that are left says all of it. -/
theorem Invariant.holdsAt (hshift : shift < 64) (hround : round ≤ shift + 1)
    (hinvariant : Invariant dividend divisor (shift + 1) (shift + 1 - round) s) :
    HoldsAt dividend divisor shift round s := by
  obtain ⟨⟨hvalue, hremainder⟩, hquotient, hdenominator⟩ := hinvariant
  rw [Nat.sub_sub_self hround] at hquotient
  have hplace (hmade : round ≤ shift) :
      s.denominator.toNat = divisor.toNat * 2 ^ (shift - round) := by
    rw [hdenominator, show shift + 1 - round = shift - round + 1 by omega, Nat.pow_succ,
      ← Nat.mul_assoc, Nat.mul_div_cancel _ (by decide)]
  refine ⟨?_, hremainder, hquotient, hplace, ?_, ?_⟩
  · rw [hvalue, Nat.mul_assoc]
  · intro hmade
    have hfits : 2 ^ round ≤ 2 ^ 127 := Nat.pow_le_pow_right (by decide) (by omega)
    rw [toNat_shl _ (show 1 < 128 by decide), Nat.pow_one, Nat.mod_eq_of_lt (by omega)]
  · intro hmore
    have heven : s.denominator.toNat = divisor.toNat * 2 ^ (shift - (round + 1)) * 2 := by
      rw [hplace (Nat.le_of_lt hmore), show shift - round = shift - (round + 1) + 1 by omega,
        Nat.pow_succ, Nat.mul_assoc]
    rw [toNat_shr _ (show 1 < 128 by decide), Nat.pow_one, heven,
      Nat.mul_div_cancel _ (by decide)]

/-- Any number of rounds up to all of them, made from the start. -/
theorem holdsAt_run (hops : ops.Exact) (hhigh : divisor.high ≠ 0)
    (hle : divisor.toNat ≤ dividend.toNat)
    (hround : round ≤ alignment dividend divisor + 1) :
    HoldsAt dividend divisor (alignment dividend divisor) round
      (run ops round (.start dividend divisor (alignment dividend divisor))) := by
  have hlt := alignment_lt hhigh hle
  have hstart := Invariant.start (UInt128.toNat_ne_zero_of_high hhigh) hle (by omega)
  refine Invariant.holdsAt hlt hround ?_
  generalize alignment dividend divisor = shift at *
  have hrest : shift + 1 - round + round = shift + 1 := Nat.sub_add_cancel hround
  have hbefore : Invariant dividend divisor (shift + 1) (shift + 1 - round + round)
      (.start dividend divisor shift) := by rwa [hrest]
  exact hbefore.after hops (by omega) (Nat.le_of_eq hrest)

end Limbwise.Restoring

/-- The restoring division divides exactly at every round, with either set of primitives. The
leading zeros of divisor and dividend differ by less than a limb, and the divisor moves up by
this shift without losing a bit. The numbers are exact whenever a round starts, up to the one
that is not made any more. The states they are said of are those of the loop, which counts its
rounds from zero and ends in the result of the division. -/
theorem Limbwise.rounds_divide_exactly {ops : LimbOps}
    (hops : ops ∈ [Portable.limbOps, Instruction.limbOps]) {dividend divisor : UInt128}
    (hhigh : divisor.high ≠ 0) (hle : divisor.toNat ≤ dividend.toNat) {shift : Nat}
    (hshift : shift = divisor.leadingZeros - dividend.leadingZeros) :
    dividend.leadingZeros + shift = divisor.leadingZeros ∧ shift < 64 ∧
    (shl divisor shift).toNat = divisor.toNat * 2 ^ shift ∧
    (∀ round ≤ shift + 1, Restoring.HoldsAt dividend divisor shift round
      (.run ops round (.start dividend divisor shift))) ∧
    ∃ last, divMod ops dividend divisor = ⟨last.quotient, last.remainder⟩ ∧
      ∀ round ≤ shift + 1, Restoring.Loops ops shift round
        (.run ops round (.start dividend divisor shift)) (shift + 1 - round) last := by
  have hexact : ops.Exact := by
    rcases List.mem_pair.mp hops with rfl | rfl
    · exact Portable.exact_limbOps
    · exact Instruction.exact_limbOps
  have hdivisor := UInt128.toNat_ne_zero_of_high hhigh
  obtain rfl : shift = alignment dividend divisor := hshift
  have hlt := alignment_lt hhigh hle
  refine ⟨(leadingZeros_eq_add_alignment hdivisor hle).symm, hlt, ?_, ?_, ?_⟩
  · rw [toNat_shl _ (by omega), Nat.mod_eq_of_lt (alignment_bounds hdivisor hle).1]
  · exact fun round hround => Restoring.holdsAt_run hexact hhigh hle hround
  · refine ⟨_, ?_, fun round hround => Restoring.loops_from_round hround⟩
    have hnot : ¬divisor.isGreaterThan dividend = true := by
      rw [UInt128.isGreaterThan_iff]
      exact Nat.not_lt.mpr hle
    rw [divMod, if_neg hhigh, if_neg hnot]
    rfl

/-- A divisor of two limbs, moved up by 62 places to meet the greatest dividend. When the last
round starts, it is back at its own place, where it is odd. -/
theorem Limbwise.odd_divisor_in_last_round :
    Portable.limbOps ∈ [Portable.limbOps, Instruction.limbOps] ∧
    UInt128.high ⟨3, 1⟩ ≠ 0 ∧ UInt128.toNat ⟨3, 1⟩ ≤ UInt128.max.toNat ∧
    62 = UInt128.leadingZeros ⟨3, 1⟩ - UInt128.max.leadingZeros ∧
    Restoring.HoldsAt .max ⟨3, 1⟩ 62 62 (.run Portable.limbOps 62 (.start .max ⟨3, 1⟩ 62)) :=
  have hshift : 62 = UInt128.leadingZeros ⟨3, 1⟩ - UInt128.max.leadingZeros := by decide
  ⟨List.mem_cons_self, by decide, by decide, hshift,
    (rounds_divide_exactly List.mem_cons_self (by decide) (by decide) hshift).2.2.2.1 62
      (by decide)⟩

end TwoLimb.Engine
