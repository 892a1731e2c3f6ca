/-
# Powers of values

A round of square and multiply halves the exponent and squares the base. What the lowest bit
of the exponent calls for is collected, and the square raised to half of the exponent is the
rest of the power. This is an equation of integers, so the wrapping form keeps it modulo
`2^128`.

The refusing form stops at the first product that does not fit. Such a product is never a
detour. A collected product is a factor of the power. A square is computed only if a bit of
the exponent is left above the lowest one, and then the power has the square as a factor. So
the power is at least as large as either of them, provided that no other factor is zero. This
is the invariant of the loop: what is collected can be zero only if the base is.
-/

import TwoLimb.Proofs.UInt128.Overflow
import TwoLimb.UInt128.Power

namespace TwoLimb.UInt128

/-- What is collected of a power after a round: the base goes into it if the lowest bit of
the exponent is set. -/
def collect (exponent base power : Nat) : Nat :=
  if exponent % 2 = 1 then power * base else power

/-! ### Rounds on integers -/

/-- What a round does not collect is in the square, raised to half of the exponent. -/
theorem collect_mul_pow (exponent base power : Nat) :
    collect exponent base power * (base * base) ^ (exponent / 2) = power * base ^ exponent := by
  have hhalves := Nat.div_add_mod exponent 2
  have hsquares : (base * base) ^ (exponent / 2) = base ^ (2 * (exponent / 2)) := by
    rw [Nat.pow_mul, Nat.pow_two]
  rw [hsquares, collect]
  split
  · rename_i hodd
    rw [hodd] at hhalves
    rw [Nat.mul_assoc, ← Nat.pow_add_one', hhalves]
  · have heven : 2 * (exponent / 2) = exponent := by omega
    rw [heven]

theorem collect_ne_zero (exponent : Nat) {base power : Nat} (hbase : base ≠ 0)
    (hpower : power ≠ 0) : collect exponent base power ≠ 0 := by
  rw [collect]
  split
  · exact Nat.mul_ne_zero hpower hbase
  · exact hpower

/-- A round keeps the invariant of the refusing loop: nothing but a base of zero makes zero
of what is collected. -/
theorem collect_ne_zero_of_square (exponent : Nat) {base power : Nat}
    (hpower : base ≠ 0 → power ≠ 0) (hsquare : base * base ≠ 0) :
    collect exponent base power ≠ 0 := by
  have hbase : base ≠ 0 := Nat.ne_zero_of_mul_ne_zero_left hsquare
  exact collect_ne_zero exponent hbase (hpower hbase)

/-- What is collected divides the power, so it is no larger. -/
theorem collect_le_pow (exponent power : Nat) {base : Nat} (hbase : base ≠ 0) :
    collect exponent base power ≤ power * base ^ exponent := by
  rw [← collect_mul_pow]
  exact Nat.le_mul_of_pos_right _ (Nat.pow_pos (Nat.mul_pos (by omega) (by omega)))

/-- A square that serves a bit of the exponent is no larger than the power. -/
theorem square_le_pow {exponent base power : Nat} (hbase : base ≠ 0) (hpower : power ≠ 0)
    (hbits : exponent / 2 ≠ 0) : base * base ≤ power * base ^ exponent := by
  have hcollect := collect_ne_zero exponent hbase hpower
  calc
    base * base ≤ (base * base) ^ (exponent / 2) := Nat.le_self_pow hbits _
    _ ≤ collect exponent base power * (base * base) ^ (exponent / 2) :=
      Nat.le_mul_of_pos_left _ (Nat.pos_of_ne_zero hcollect)
    _ = power * base ^ exponent := collect_mul_pow exponent base power

/-! ### The wrapping form -/

theorem toNat_collect (exponent : Nat) (base power : UInt128) :
    (if exponent % 2 = 1 then power * base else power).toNat =
      collect exponent base.toNat power.toNat % 2 ^ 128 := by
  rw [collect]
  split
  · exact toNat_mul power base
  · exact (Nat.mod_eq_of_lt power.toNat_lt).symm

/-- The square that is not computed in the last round would change nothing. -/
theorem powLoop_round {exponent : Nat} (hexponent : exponent ≠ 0) (base power : UInt128) :
    powLoop exponent base power =
      powLoop (exponent / 2) (base * base)
        (if exponent % 2 = 1 then power * base else power) := by
  rw [powLoop, if_neg hexponent]
  by_cases hlast : exponent / 2 = 0
  · rw [if_pos hlast, hlast, powLoop, if_pos rfl]
  · rw [if_neg hlast]

/-- Every round keeps the product of what is collected and what is owed, modulo `2^128`. -/
theorem toNat_powLoop (exponent : Nat) (base power : UInt128) :
    (powLoop exponent base power).toNat =
      power.toNat * base.toNat ^ exponent % 2 ^ 128 := by
  induction exponent using Nat.strongRecOn generalizing base power with
  | ind exponent ih =>
      by_cases hzero : exponent = 0
      · rw [powLoop, if_pos hzero, hzero, Nat.pow_zero, Nat.mul_one,
          Nat.mod_eq_of_lt power.toNat_lt]
      · rw [powLoop_round hzero, ih (exponent / 2) (by omega), toNat_collect, toNat_mul,
          Nat.mod_mul_mod, Nat.mul_mod, ← Nat.pow_mod, ← Nat.mul_mod, collect_mul_pow]

/-! ### The refusing form -/

theorem collect?_eq (exponent : Nat) (base power : UInt128) :
    (if exponent % 2 = 1 then power.mul? base else some power) =
      if collect exponent base.toNat power.toNat < 2 ^ 128 then
        some (ofNat (collect exponent base.toNat power.toNat))
      else none := by
  rw [collect]
  split
  · exact mul?_eq power base
  · rw [if_pos power.toNat_lt, ofNat_toNat]

/-- Only a product with a base other than zero can be refused. -/
theorem base_ne_zero_of_refused {exponent : Nat} {base power : UInt128}
    (hrefused : ¬collect exponent base.toNat power.toNat < 2 ^ 128) : base.toNat ≠ 0 := by
  intro hzero
  apply hrefused
  rw [collect, hzero]
  split
  · exact Nat.two_pow_pos 128
  · exact power.toNat_lt

/-- What a round does, said of integers: it stops at a product that does not fit, and it
squares only for the sake of a bit that is left. -/
theorem powLoop?_round {exponent : Nat} (hexponent : exponent ≠ 0) (base power : UInt128) :
    powLoop? exponent base power =
      if collect exponent base.toNat power.toNat < 2 ^ 128 then
        if exponent / 2 = 0 then some (ofNat (collect exponent base.toNat power.toNat))
        else if base.toNat * base.toNat < 2 ^ 128 then
          powLoop? (exponent / 2) (ofNat (base.toNat * base.toNat))
            (ofNat (collect exponent base.toNat power.toNat))
        else none
      else none := by
  rw [powLoop?, if_neg hexponent, collect?_eq, mul?_eq]
  by_cases hcollect : collect exponent base.toNat power.toNat < 2 ^ 128
  · rw [if_pos hcollect, if_pos hcollect]
    by_cases hsquare : base.toNat * base.toNat < 2 ^ 128
    · rw [if_pos hsquare, if_pos hsquare]
    · rw [if_neg hsquare, if_neg hsquare]
  · rw [if_neg hcollect, if_neg hcollect]

/-- A loop that has collected zero only if its base is zero refuses exactly the powers that
do not fit. -/
theorem powLoop?_eq {exponent : Nat} {base power : UInt128}
    (hpower : base.toNat ≠ 0 → power.toNat ≠ 0) :
    powLoop? exponent base power =
      if power.toNat * base.toNat ^ exponent < 2 ^ 128 then
        some (ofNat (power.toNat * base.toNat ^ exponent))
      else none := by
  induction exponent using Nat.strongRecOn generalizing base power with
  | ind exponent ih =>
      by_cases hzero : exponent = 0
      · rw [powLoop?, if_pos hzero, hzero, Nat.pow_zero, Nat.mul_one, if_pos power.toNat_lt,
          ofNat_toNat]
      rw [powLoop?_round hzero]
      have hround := collect_mul_pow exponent base.toNat power.toNat
      by_cases hcollect : collect exponent base.toNat power.toNat < 2 ^ 128
      · rw [if_pos hcollect]
        by_cases hlast : exponent / 2 = 0
        · rw [hlast, Nat.pow_zero, Nat.mul_one] at hround
          rw [if_pos hlast, ← hround, if_pos hcollect]
        rw [if_neg hlast]
        by_cases hsquare : base.toNat * base.toNat < 2 ^ 128
        · have hbase : (ofNat (base.toNat * base.toNat)).toNat = base.toNat * base.toNat :=
            (toNat_ofNat _).trans (Nat.mod_eq_of_lt hsquare)
          have hvalue : (ofNat (collect exponent base.toNat power.toNat)).toNat =
              collect exponent base.toNat power.toNat :=
            (toNat_ofNat _).trans (Nat.mod_eq_of_lt hcollect)
          have hkept := collect_ne_zero_of_square exponent hpower
          rw [← hbase, ← hvalue] at hkept
          rw [if_pos hsquare, ih (exponent / 2) (by omega) hkept, hbase, hvalue, hround]
        · have hne : base.toNat ≠ 0 := by
            intro hzero
            rw [hzero] at hsquare
            exact hsquare (Nat.two_pow_pos 128)
          have hlarge := square_le_pow hne (hpower hne) hlast
          rw [if_neg hsquare, if_neg (by omega)]
      · have hne := base_ne_zero_of_refused hcollect
        have hlarge := collect_le_pow exponent power.toNat hne
        rw [if_neg hcollect, if_neg (by omega)]

/-! ### Both forms -/

theorem toNat_pow (a : UInt128) (exponent : UInt32) :
    (a.pow exponent).toNat = a.toNat ^ exponent.toNat % 2 ^ 128 := by
  rw [pow, toNat_powLoop, toNat_one, Nat.one_mul]

/-- The power with the verdict of the refusing form as its flag. -/
theorem truncates_pow (a : UInt128) (exponent : UInt32) :
    Truncates (a.pow exponent, decide (2 ^ 128 ≤ a.toNat ^ exponent.toNat))
      (a.toNat ^ exponent.toNat) where
  value := toNat_pow a exponent
  flag := rfl

theorem pow?_eq (a : UInt128) (exponent : UInt32) :
    a.pow? exponent =
      unflagged (a.pow exponent, decide (2 ^ 128 ≤ a.toNat ^ exponent.toNat)) := by
  have hone : a.toNat ≠ 0 → one.toNat ≠ 0 := fun _ => by decide
  rw [(truncates_pow a exponent).unflagged_eq, pow?, powLoop?_eq hone, toNat_one, Nat.one_mul]

/-- The wrapping form has the power of the integers modulo `2^128`. The refusing form has the
power itself exactly when it fits, whatever is squared on the way to it. The power with
exponent zero is one, that of zero as well. -/
theorem powers_are_integer_powers (a : UInt128) (exponent : UInt32) :
    (a.pow exponent).toNat = a.toNat ^ exponent.toNat % 2 ^ 128 ∧
      (∀ c : UInt128, a.pow? exponent = some c ↔ c.toNat = a.toNat ^ exponent.toNat) ∧
      (a.pow? exponent = none ↔ 2 ^ 128 ≤ a.toNat ^ exponent.toNat) ∧
      a.pow 0 = one ∧ a.pow? 0 = some one := by
  have hreduces := (truncates_pow a exponent).reduces
  refine ⟨toNat_pow a exponent, ?_, ?_, ?_, ?_⟩
  · intro c
    rw [pow?_eq, hreduces.unflagged_eq_some_iff]
    exact Int.ofNat_inj
  · rw [pow?_eq, hreduces.unflagged_eq_none_iff, ← hreduces.flag, decide_eq_true_iff]
  · rw [pow, powLoop]
    exact if_pos rfl
  · rw [pow?, powLoop?]
    exact if_pos rfl

end TwoLimb.UInt128
