/-
# Truncated division at every entry

Magnitudes are divided without a sign and the signs are put back by a negation that may
wrap. The quotient of magnitudes fits the sign it gets, with one exception: the least
value divided by minus one has the quotient `2^127`. There the entries part ways, and
everywhere else they answer with the one quotient that leaves a remainder below the
divisor and of the sign of the dividend.
-/

import TwoLimb.Machine.Signed
import TwoLimb.Proofs.Int128.TwosComplement

namespace TwoLimb

open Machine

/-- Quotient and remainder of a division that truncates: together they give the dividend
back, and the remainder is below the divisor and zero or of the sign of the dividend. -/
def IsTruncatedDivision (dividend divisor quotient remainder : Int) : Prop :=
  dividend = quotient * divisor + remainder ∧ remainder.natAbs < divisor.natAbs ∧
    (remainder = 0 ∨ remainder.sign = dividend.sign)

theorem isTruncatedDivision_tdiv_tmod (dividend : Int) {divisor : Int} (hdivisor : divisor ≠ 0) :
    IsTruncatedDivision dividend divisor (dividend.tdiv divisor) (dividend.tmod divisor) := by
  refine ⟨(Int.tdiv_mul_add_tmod dividend divisor).symm, ?_, ?_⟩
  · rw [Int.natAbs_tmod]
    exact Nat.mod_lt _ (Int.natAbs_pos.mpr hdivisor)
  · have hsign := Int.sign_tmod dividend divisor
    split at hsign
    · exact Or.inl (Int.sign_eq_zero_iff_zero.mp hsign)
    · exact Or.inr hsign

/-- There is only one truncated division, since the remainder is on the side of zero
where the dividend is. -/
theorem IsTruncatedDivision.eq_tdiv_tmod {dividend divisor quotient remainder : Int}
    (hdivision : IsTruncatedDivision dividend divisor quotient remainder) :
    quotient = dividend.tdiv divisor ∧ remainder = dividend.tmod divisor := by
  obtain ⟨hvalue, hlt, hsign⟩ := hdivision
  have hdivisor : divisor ≠ 0 := by omega
  rw [Int.mul_comm] at hvalue
  rcases Int.le_total 0 dividend with hdividend | hdividend
  · have hremainder : 0 ≤ remainder := by
      rcases hsign with rfl | hsign
      · exact Int.le_refl 0
      · exact Int.sign_nonneg_iff.mp (hsign ▸ Int.sign_nonneg_iff.mpr hdividend)
    obtain ⟨hquotient, hrest⟩ := (Int.tdiv_tmod_unique hdividend hdivisor).mpr
      ⟨(by omega : remainder + divisor * quotient = dividend), hremainder, by omega⟩
    exact ⟨hquotient.symm, hrest.symm⟩
  · have hremainder : remainder ≤ 0 := by
      rcases hsign with rfl | hsign
      · exact Int.le_refl 0
      · exact Int.sign_nonpos_iff.mp (hsign ▸ Int.sign_nonpos_iff.mpr hdividend)
    obtain ⟨hquotient, hrest⟩ := (Int.tdiv_tmod_unique' hdividend hdivisor).mpr
      ⟨(by omega : remainder + divisor * quotient = dividend), by omega, hremainder⟩
    exact ⟨hquotient.symm, hrest.symm⟩

/-- A result that is the truncated division of two signed values. -/
def DivMod.DividesSigned (result : DivMod Int128) (dividend divisor : Int128) : Prop :=
  IsTruncatedDivision dividend.toInt divisor.toInt result.quotient.toInt result.remainder.toInt

theorem DivMod.DividesSigned.unique {one two : DivMod Int128} {dividend divisor : Int128}
    (hone : one.DividesSigned dividend divisor) (htwo : two.DividesSigned dividend divisor) :
    one = two := by
  obtain ⟨hquotient, hremainder⟩ := hone.eq_tdiv_tmod
  obtain ⟨hquotient', hremainder'⟩ := htwo.eq_tdiv_tmod
  cases one
  cases two
  exact congr (congrArg DivMod.mk (Int128.toInt_inj.mp (hquotient.trans hquotient'.symm)))
    (Int128.toInt_inj.mp (hremainder.trans hremainder'.symm))

namespace Int128

/-- Every entry that does not look for an overflowing quotient answers with its part of
`result`. -/
structure AnswersWrapped (a b : Int128) (result : DivMod Int128) : Prop where
  /-- Any engine that may be selected divides the magnitudes to the same result. -/
  passed : ∀ strategy : Strategy,
    ((UInt128.divisionCall id a.unsignedAbs b.unsignedAbs).run strategy.engine).map
      (a.restoreSigns b) = some result
  divMod : a.divMod b = result
  divMod? : a.divMod? b = some result
  divModOrError : a.divModOrError b = .ok result
  div : a.div b = .ok result.quotient
  rem : a.rem b = .ok result.remainder
  divAssign : signedAct .div a b = (result.quotient, .nothing)
  remAssign : signedAct .rem a b = (result.remainder, .nothing)

/-- Every safe entry of the division of `a` by `b` reports its failure; the operators stop
with their messages, and an assigning operator leaves its target as it is. -/
structure Refuses (a b : Int128) : Prop where
  divMod? : a.divMod? b = none
  divModOrError : a.divModOrError b = .error .divideByZero
  div? : a.div? b = none
  rem? : a.rem? b = none
  div : a.div b = .error .divisionByZero
  rem : a.rem b = .error .remainderByZero
  divAssign : signedAct .div a b = (a, .fault .divisionByZero)
  remAssign : signedAct .rem a b = (a, .fault .remainderByZero)
  div_message : Fault.divisionByZero.message = "attempt to divide by zero"
  rem_message : Fault.remainderByZero.message =
    "attempt to calculate the remainder with a divisor of zero"

theorem quotientOverflows_iff (a b : Int128) :
    a.quotientOverflows b = true ↔ a = min ∧ b = negOne := by
  rw [quotientOverflows, Bool.and_eq_true, equals_iff, equals_iff, bits_inj, bits_inj]

theorem toInt_ne_zero {b : Int128} (hb : b ≠ zero) : b.toInt ≠ 0 := fun hzero =>
  hb (toInt_inj.mp (hzero.trans toInt_zero.symm))

theorem unsignedAbs_ne_zero {b : Int128} (hb : b ≠ zero) : b.unsignedAbs ≠ .zero := fun hzero => by
  have hmagnitude := b.toNat_unsignedAbs
  rw [hzero, UInt128.toNat_zero] at hmagnitude
  exact toInt_ne_zero hb (Int.natAbs_eq_zero.mp hmagnitude.symm)

theorem toInt_ofMagnitude (negative : Bool) (magnitude : UInt128) :
    (ofMagnitude negative magnitude).toInt =
      (if negative = true then -(magnitude.toNat : Int) else magnitude.toNat).bmod (2 ^ 128) := by
  cases negative with
  | false =>
      rw [ofMagnitude, if_neg Bool.false_ne_true, if_neg Bool.false_ne_true]
      exact toInt_eq_bmod ⟨magnitude⟩
  | true =>
      rw [ofMagnitude, if_pos rfl, if_pos rfl]
      exact toInt_mk_neg magnitude

theorem tdiv_of_signs (first second : Bool) (m n : Nat) :
    (if first = true then -(m : Int) else m).tdiv (if second = true then -(n : Int) else n) =
      if (first != second) = true then -((m / n : Nat) : Int) else (m / n : Nat) := by
  rw [Int.ofNat_tdiv]
  cases first <;> cases second <;> simp [Int.neg_tdiv, Int.tdiv_neg]

theorem tmod_of_signs (first second : Bool) (m n : Nat) :
    (if first = true then -(m : Int) else m).tmod (if second = true then -(n : Int) else n) =
      if first = true then -((m % n : Nat) : Int) else (m % n : Nat) := by
  rw [Int.ofNat_tmod]
  cases first <;> cases second <;> simp [Int.neg_tmod, Int.tmod_neg]

/-- Signs put back on divided magnitudes give the truncated division, reduced. -/
theorem toInt_restoreSigns {a b : Int128} {magnitudes : DivMod UInt128}
    (hmagnitudes : magnitudes.Divides a.unsignedAbs b.unsignedAbs) :
    (a.restoreSigns b magnitudes).quotient.toInt = (a.toInt.tdiv b.toInt).bmod (2 ^ 128) ∧
      (a.restoreSigns b magnitudes).remainder.toInt =
        (a.toInt.tmod b.toInt).bmod (2 ^ 128) := by
  rw [a.toInt_eq_magnitude, b.toInt_eq_magnitude, tdiv_of_signs, tmod_of_signs,
    ← hmagnitudes.quotient_eq, ← hmagnitudes.remainder_eq]
  exact ⟨toInt_ofMagnitude _ magnitudes.quotient, toInt_ofMagnitude _ magnitudes.remainder⟩

theorem toInt_divMod (a : Int128) {b : Int128} (hb : b ≠ zero) :
    (a.divMod b).quotient.toInt = (a.toInt.tdiv b.toInt).bmod (2 ^ 128) ∧
      (a.divMod b).remainder.toInt = (a.toInt.tmod b.toInt).bmod (2 ^ 128) :=
  toInt_restoreSigns (UInt128.divides_divMod a.unsignedAbs (unsignedAbs_ne_zero hb))

/-- The remainder is a signed value. -/
theorem inRange_tmod (a : Int128) {b : Int128} (hb : b ≠ zero) :
    InRange (a.toInt.tmod b.toInt) := by
  have hbounds := b.toInt_bounds
  have habs := Int.natAbs_tmod a.toInt b.toInt
  have hlt := Nat.mod_lt a.toInt.natAbs (Int.natAbs_pos.mpr (toInt_ne_zero hb))
  rw [InRange]
  omega

/-- The quotient is a signed value but for the least value divided by minus one. -/
theorem inRange_tdiv {a b : Int128} (hpair : ¬(a = min ∧ b = negOne)) :
    InRange (a.toInt.tdiv b.toInt) := by
  have ha := a.toInt_bounds
  have habs := Int.natAbs_tdiv a.toInt b.toInt
  have hle := Int.natAbs_tdiv_le_natAbs a.toInt b.toInt
  by_cases hone : b.toInt.natAbs = 1
  · have hsign : b.toInt = 1 ∨ b.toInt = -1 := by omega
    rcases hsign with hsign | hsign
    · rw [hsign, Int.tdiv_one]
      exact ha
    · have hmin : a.toInt ≠ -2 ^ 127 := fun hmin =>
        hpair ⟨a.eq_min_iff.mpr hmin, toInt_inj.mp (hsign.trans toInt_negOne.symm)⟩
      rw [hsign, Int.tdiv_neg, Int.tdiv_one, InRange]
      omega
  · have hhalf : a.toInt.natAbs.div b.toInt.natAbs ≤ a.toInt.natAbs / 2 := by
      by_cases hzero : b.toInt.natAbs = 0
      · rw [hzero]
        exact Nat.le_trans (Nat.le_of_eq (Nat.div_zero _)) (Nat.zero_le _)
      · exact Nat.div_le_div_left (by omega) (by decide)
    rw [InRange]
    omega

theorem dividesSigned_divMod {a b : Int128} (hb : b ≠ zero)
    (hpair : ¬(a = min ∧ b = negOne)) :
    (a.divMod b).DividesSigned a b := by
  obtain ⟨hquotient, hremainder⟩ := a.toInt_divMod hb
  rw [bmod_of_inRange (inRange_tdiv hpair)] at hquotient
  rw [bmod_of_inRange (a.inRange_tmod hb)] at hremainder
  rw [DivMod.DividesSigned, hquotient, hremainder]
  exact isTruncatedDivision_tdiv_tmod a.toInt (toInt_ne_zero hb)

/-- The unsigned division never refuses the magnitude of a divisor that is not zero, so
every entry puts the signs back on one pair of magnitudes. -/
theorem answersWrapped (a : Int128) {b : Int128} (hb : b ≠ zero) :
    a.AnswersWrapped b (a.divMod b) := by
  have hmagnitude := unsignedAbs_ne_zero hb
  have hpassed (strategy : Strategy) :
      ((UInt128.divisionCall id a.unsignedAbs b.unsignedAbs).run strategy.engine).map
        (a.restoreSigns b) = some (a.divMod b) := by
    have hexact := strategy.exact_engine
    have hagrees := (hexact.agrees Engine.exact_portable).divMod a.unsignedAbs _ hmagnitude
    rw [UInt128.divisionCall, UInt128.isZero_eq_false hmagnitude]
    exact congrArg (fun magnitudes => some (a.restoreSigns b magnitudes)) hagrees
  have hdivMod : a.divMod? b = some (a.divMod b) := hpassed .portable
  have hdiv : a.div b = .ok (a.divMod b).quotient := by rw [div, hdivMod]
  have hrem : a.rem b = .ok (a.divMod b).remainder := by rw [rem, hdivMod]
  exact
    { passed := hpassed
      divMod := rfl
      divMod? := hdivMod
      divModOrError := by rw [divModOrError, hdivMod]
      div := hdiv
      rem := hrem
      divAssign := congrArg (orFault a) hdiv
      remAssign := congrArg (orFault a) hrem }

theorem divMod_min_negOne : min.divMod negOne = ⟨min, zero⟩ := by
  obtain ⟨hquotient, hremainder⟩ := min.toInt_divMod (show negOne ≠ zero by decide)
  have hpair : min.divMod negOne = ⟨(min.divMod negOne).quotient, (min.divMod negOne).remainder⟩ :=
    rfl
  rw [hpair, toInt_inj.mp (hquotient.trans (by decide : _ = min.toInt)),
    toInt_inj.mp (hremainder.trans (by decide : _ = zero.toInt))]

theorem refuses_zero (a : Int128) : a.Refuses zero := by
  have hdivMod : a.divMod? zero = none := rfl
  have hpair : ¬a.quotientOverflows zero = true := fun hpair =>
    absurd ((a.quotientOverflows_iff zero).mp hpair).2 (by decide)
  exact
    { divMod? := hdivMod
      divModOrError := rfl
      div? := by rw [div?, if_neg hpair, hdivMod]; rfl
      rem? := by rw [rem?, if_neg hpair, hdivMod]; rfl
      div := rfl
      rem := rfl
      divAssign := rfl
      remAssign := rfl
      div_message := rfl
      rem_message := rfl }

theorem div?_eq_none_iff_rem?_eq_none (a b : Int128) : a.div? b = none ↔ a.rem? b = none := by
  rw [div?, rem?]
  split
  · exact Iff.rfl
  · rw [Option.map_eq_none_iff, Option.map_eq_none_iff]

/-- A divisor that is not zero has one truncated division, and all entries answer with
it. The least value divided by minus one wraps at every entry but the two checked ones,
which refuse it, and divisor zero is refused by all. -/
theorem truncated_division_at_every_entry (a b : Int128) :
    (b ≠ zero → ¬(a = min ∧ b = negOne) → ∃ result : DivMod Int128,
      (∀ other : DivMod Int128, other.DividesSigned a b ↔ other = result) ∧
        a.AnswersWrapped b result ∧ a.div? b = some result.quotient ∧
          a.rem? b = some result.remainder) ∧
      (a = min → b = negOne →
        a.AnswersWrapped b ⟨min, zero⟩ ∧ a.div? b = none ∧ a.rem? b = none) ∧
      (b = zero → a.Refuses b) ∧
      (a.div? b = none ↔ a.rem? b = none) := by
  refine ⟨?_, ?_, ?_, a.div?_eq_none_iff_rem?_eq_none b⟩
  · intro hb hpair
    have hdivides := dividesSigned_divMod hb hpair
    have hanswers := a.answersWrapped hb
    have hchecked : ¬a.quotientOverflows b = true := mt (a.quotientOverflows_iff b).mp hpair
    refine ⟨a.divMod b, ?_, hanswers, ?_, ?_⟩
    · intro other
      exact ⟨fun hother => hother.unique hdivides, fun hother => hother ▸ hdivides⟩
    · rw [div?, if_neg hchecked, hanswers.divMod?]
      rfl
    · rw [rem?, if_neg hchecked, hanswers.divMod?]
      rfl
  · rintro rfl rfl
    have hanswers := min.answersWrapped (show negOne ≠ zero by decide)
    rw [divMod_min_negOne] at hanswers
    exact ⟨hanswers, rfl, rfl⟩
  · rintro rfl
    exact a.refuses_zero

end Int128

end TwoLimb
