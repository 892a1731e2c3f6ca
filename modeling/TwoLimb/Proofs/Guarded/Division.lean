/-
# Guarded divisions and common divisors

The entries of the division ask the engine only for divisors that are not zero, so no more
than their documented fault stops any of them. The trace of a division counts its rounds
from the same difference of leading zeros that the division shifts by.

The greatest common divisor shifts a value by its own trailing zeros. These are fewer than
128 as long as the value is not zero, and both values of a round stay so: one is odd, and
the other is the difference that was tested for zero.
-/

import TwoLimb.Proofs.Guarded.Unsigned
import TwoLimb.UInt128.Divisor

namespace TwoLimb

/-- Whatever is reported is made of the one outcome of the division. -/
theorem UInt128.divide_eq_report {α : Type} (report : Option (DivMod UInt128) → α)
    (a b : UInt128) : divide report a b = report (a.divMod? b) := by
  unfold divMod? divide divisionCall
  split <;> rfl

namespace Guarded

/-! ### Division -/

section Division

variable (ops : GuardedOps) {α : Type}

/-- The division that reports what it finds. -/
def divide (report : Option (DivMod UInt128) → α) (a b : UInt128) : Guarded α :=
  if b.isZero then .ok (report none)
  else do
    let result ← divMod ops a b
    .ok (report (some result))

/-- A division that may report a fault. -/
def divideOrFault (report : Option (DivMod UInt128) → Except Fault α) (a b : UInt128) :
    Guarded α := do
  let outcome ← divide ops report a b
  documented outcome

/-- The way a division takes; that of two limbs is told with its number of rounds. -/
def divisionPath (a b : UInt128) : Guarded DivisionPath :=
  if b.isZero then .ok .zeroDivisor
  else if b.high = 0 then .ok (.oneLimb b.low)
  else if b.isGreaterThan a then .ok .divisorExceeds
  else do
    let shift ← alignment a b
    let rounds ← sum 32 shift 1
    .ok (.twoLimb rounds)

theorem divisionPath_eq (a b : UInt128) : divisionPath a b = .ok (a.divisionPath b) := by
  unfold divisionPath UInt128.divisionPath
  split
  · rfl
  · split
    · rfl
    · rename_i hhigh
      split
      · rfl
      · rename_i hexceeds
        rw [UInt128.isGreaterThan_iff] at hexceeds
        have hle : b.toNat ≤ a.toNat := Nat.le_of_not_lt hexceeds
        have halignment := Engine.Limbwise.alignment_lt hhigh hle
        rw [alignment_eq (UInt128.toNat_ne_zero_of_high hhigh) hle, ok_bind,
          sum_eq (by omega), ok_bind]
        rfl

variable {ops} (hops : ops.Sound)

include hops

theorem divide_eq (report : Option (DivMod UInt128) → α) (a b : UInt128) :
    divide ops report a b = .ok (UInt128.divide report a b) := by
  unfold divide UInt128.divide UInt128.divisionCall
  split
  · rfl
  · rename_i hzero
    have hb : b ≠ .zero := by
      rintro rfl
      exact hzero rfl
    rw [divMod_eq hops a hb, ok_bind]
    rfl

theorem divideOrFault_eq (report : Option (DivMod UInt128) → Except Fault α) (a b : UInt128) :
    divideOrFault ops report a b = documented (UInt128.divide report a b) := by
  rw [divideOrFault, divide_eq hops, ok_bind]

end Division

/-! ### Common divisors -/

/-- A value without its factors of two. The shift masks its amount, which would hide an
amount of 128, so here the amount is checked before. -/
def oddPart (a : UInt128) : Guarded UInt128 := do
  let places ← trailingZeros a
  require (places < UInt128.bits) .shiftWidth
  shr a places

theorem oddPart_eq {a : UInt128} (ha : a.toNat ≠ 0) : oddPart a = .ok a.oddPart := by
  have hplaces : a.trailingZeros < UInt128.bits := UInt128.trailingZeros_lt ha
  rw [oddPart, trailingZeros_eq, ok_bind, require_eq hplaces, ok_bind, shr_eq a hplaces]
  rfl

/-- A round leaves the lesser of two values that are not zero, and what the other one has
more, which is less than both had together. -/
theorem gcdRound_lt {a b : UInt128} (ha : a.toNat ≠ 0) (hb : b.toNat ≠ 0) :
    (a.minimum b.oddPart).toNat ≠ 0 ∧
      (a.minimum b.oddPart).toNat + (a.maximum b.oddPart - a.minimum b.oddPart).toNat <
        a.toNat + b.toNat := by
  have hodd := UInt128.oddPart_pos hb
  have hle := UInt128.oddPart_le hb
  have hparts := UInt128.toNat_maximum_sub_minimum a b.oddPart
  have hlesser : (a.minimum b.oddPart).toNat ≠ 0 := by
    unfold UInt128.minimum
    split <;> omega
  omega

/-- Rounds on two values until the subtraction leaves nothing. With a value of zero the
loop would not come to an end, and here it stops. -/
def gcdLoop (a b : UInt128) : Guarded UInt128 :=
  if hoperands : a.toNat ≠ 0 ∧ b.toNat ≠ 0 then
    match hodd : oddPart b with
    | .error stop => .error stop
    | .ok odd =>
        let lesser := a.minimum odd
        let rest := a.maximum odd - lesser
        have hlt : lesser.toNat + rest.toNat < a.toNat + b.toNat := by
          rw [oddPart_eq hoperands.2] at hodd
          cases hodd
          exact (gcdRound_lt hoperands.1 hoperands.2).2
        if rest.isZero then .ok lesser else gcdLoop lesser rest
  else .error .assertion
termination_by a.toNat + b.toNat

/-- A round on two values that are not zero. -/
theorem gcdLoop_round {a b : UInt128} (ha : a.toNat ≠ 0) (hb : b.toNat ≠ 0) :
    gcdLoop a b =
      let lesser := a.minimum b.oddPart
      let rest := a.maximum b.oddPart - lesser
      if rest.isZero then .ok lesser else gcdLoop lesser rest := by
  rw [gcdLoop, dif_pos ⟨ha, hb⟩]
  split
  · rename_i stop hodd
    rw [oddPart_eq hb] at hodd
    nomatch hodd
  · rename_i odd hodd
    rw [oddPart_eq hb] at hodd
    cases hodd
    rfl

theorem gcdLoop_eq (a b : UInt128) (ha : a.toNat ≠ 0) (hb : b.toNat ≠ 0) :
    gcdLoop a b = .ok (UInt128.gcdLoop a b ha hb) := by
  fun_induction UInt128.gcdLoop a b ha hb with
  | case1 a b ha hb lesser rest hrest => exact (gcdLoop_round ha hb).trans (if_pos hrest)
  | case2 a b ha hb lesser rest hrest ih =>
      exact (gcdLoop_round ha hb).trans ((if_neg hrest).trans ih)

/-- The greatest common divisor. The factors of two that both values have are counted once
more for the last shift. -/
def gcd (a b : UInt128) : Guarded UInt128 :=
  if a.isZero then .ok b
  else if b.isZero then .ok a
  else do
    let placesA ← trailingZeros a
    let placesB ← trailingZeros b
    let odd ← oddPart a
    let divisor ← gcdLoop odd b
    let places := Nat.min placesA placesB
    require (places < UInt128.bits) .shiftWidth
    shl divisor places

theorem gcd_eq (a b : UInt128) : gcd a b = .ok (a.gcd b) := by
  unfold gcd UInt128.gcd
  by_cases haZero : a.isZero = true
  · rw [if_pos haZero, dif_pos haZero]
  · rw [if_neg haZero, dif_neg haZero]
    by_cases hbZero : b.isZero = true
    · rw [if_pos hbZero, dif_pos hbZero]
    · rw [if_neg hbZero, dif_neg hbZero]
      have ha := UInt128.toNat_ne_zero_of_not_isZero haZero
      have hb := UInt128.toNat_ne_zero_of_not_isZero hbZero
      have hplaces : Nat.min a.trailingZeros b.trailingZeros < UInt128.bits :=
        Nat.lt_of_le_of_lt (Nat.min_le_left _ _) (UInt128.trailingZeros_lt ha)
      rw [trailingZeros_eq, ok_bind, trailingZeros_eq, ok_bind, oddPart_eq ha, ok_bind,
        gcdLoop_eq _ b (Nat.ne_of_gt (UInt128.oddPart_pos ha)) hb, ok_bind]
      simp only
      rw [require_eq hplaces, ok_bind, shl_eq _ hplaces]

section Multiples

variable (ops : GuardedOps)

/-- The least common multiple, if it fits. -/
def lcm? (a b : UInt128) : Guarded (Option UInt128) :=
  if a.isZero || b.isZero then .ok (some .zero)
  else do
    let divisor ← gcd a b
    let reduced? ← divide ops (Option.map DivMod.quotient) a divisor
    match reduced? with
    | some reduced => mul? ops reduced b
    | none => .ok none

/-- The least common multiple modulo `2^128`. -/
def lcm (a b : UInt128) : Guarded UInt128 :=
  if a.isZero || b.isZero then .ok .zero
  else do
    let divisor ← gcd a b
    let reduced? ← divide ops (Option.map DivMod.quotient) a divisor
    match reduced? with
    | some reduced => mul ops reduced b
    | none => .ok .zero

variable {ops} (hops : ops.Sound)

include hops

theorem lcm?_eq (a b : UInt128) : lcm? ops a b = .ok (a.lcm? b) := by
  unfold lcm? UInt128.lcm? UInt128.div?
  rw [gcd_eq, ok_bind, divide_eq hops, ok_bind]
  refine ite_ok rfl ?_
  cases UInt128.divide (Option.map DivMod.quotient) a (a.gcd b) with
  | none => rfl
  | some reduced => exact mul?_eq hops reduced b

theorem lcm_eq (a b : UInt128) : lcm ops a b = .ok (a.lcm b) := by
  unfold lcm UInt128.lcm UInt128.div?
  rw [gcd_eq, ok_bind, divide_eq hops, ok_bind]
  refine ite_ok rfl ?_
  cases UInt128.divide (Option.map DivMod.quotient) a (a.gcd b) with
  | none => rfl
  | some reduced => exact mul_eq hops reduced b

end Multiples

end Guarded

end TwoLimb
