/-
# Common divisors and multiples

The greatest common divisor by halving and subtraction. Common factors of two are
counted once and restored at the end; after that one operand stays odd, and each
round strips the factors of two from the other, subtracts the smaller number from
the larger, and goes on until nothing is left. Neither operand is zero when a round
starts, so the sum of the operands falls with every round.
-/

import TwoLimb.UInt128.Division
import TwoLimb.UInt128.Shift

namespace TwoLimb.UInt128

/-- The value without its factors of two. -/
def oddPart (a : UInt128) : UInt128 := a.shr a.trailingZeros

/-- Stripping factors of two leaves a value that is not zero. -/
theorem oddPart_pos {a : UInt128} (ha : a.toNat ≠ 0) : 0 < a.oddPart.toNat := by
  rw [oddPart, toNat_shr a (trailingZeros_lt ha)]
  exact Nat.div_pos (Nat.le_of_dvd (Nat.pos_of_ne_zero ha) (two_pow_trailingZeros_dvd a))
    (Nat.two_pow_pos _)

/-- Stripping factors of two never makes a value larger. -/
theorem oddPart_le {a : UInt128} (ha : a.toNat ≠ 0) : a.oddPart.toNat ≤ a.toNat := by
  rw [oddPart, toNat_shr a (trailingZeros_lt ha)]
  exact Nat.div_le_self _ _

/-- The larger of two values less the smaller. -/
theorem toNat_maximum_sub_minimum (a b : UInt128) :
    (a.maximum b - a.minimum b).toNat + (a.minimum b).toNat = (a.maximum b).toNat ∧
      (a.maximum b).toNat + (a.minimum b).toNat = a.toNat + b.toNat := by
  unfold maximum minimum
  have hab := isLessThan_iff a b
  have hba := isLessThan_iff b a
  by_cases hlt : a.toNat < b.toNat
  · rw [if_pos (hab.mpr hlt), if_neg (by rw [hba]; omega),
      toNat_sub_of_le (Nat.le_of_lt hlt)]
    omega
  · rw [if_neg (by rw [hab]; exact hlt)]
    split
    · rw [toNat_sub_of_le (by omega)]
      omega
    · have heq : a.toNat = b.toNat := by
        rename_i hnot
        rw [hba] at hnot
        omega
      rw [toNat_sub_of_le (Nat.le_refl _)]
      omega

/-- Rounds on two values that are not zero, the first of them odd, until the
subtraction leaves nothing; the value that is left is the odd divisor. -/
def gcdLoop (a b : UInt128) (ha : a.toNat ≠ 0) (hb : b.toNat ≠ 0) : UInt128 :=
  let lesser := a.minimum b.oddPart
  let rest := a.maximum b.oddPart - lesser
  if hrest : rest.isZero = true then lesser
  else
    gcdLoop lesser rest
      (by
        have hodd := oddPart_pos hb
        unfold lesser minimum
        split <;> omega)
      (fun hzero => hrest ((isZero_iff rest).mpr hzero))
termination_by a.toNat + b.toNat
decreasing_by
  have hodd := oddPart_pos hb
  have hle := oddPart_le hb
  have hparts := toNat_maximum_sub_minimum a b.oddPart
  have hlesser : 0 < (a.minimum b.oddPart).toNat := by
    unfold minimum
    split <;> omega
  change (a.minimum b.oddPart).toNat +
    (a.maximum b.oddPart - a.minimum b.oddPart).toNat < _
  omega

/-- The greatest common divisor; with zero it is the other operand. -/
def gcd (a b : UInt128) : UInt128 :=
  if ha : a.isZero = true then b
  else if hb : b.isZero = true then a
  else
    have ha : a.toNat ≠ 0 := fun hzero => ha ((isZero_iff a).mpr hzero)
    have hb : b.toNat ≠ 0 := fun hzero => hb ((isZero_iff b).mpr hzero)
    (gcdLoop a.oddPart b (Nat.ne_of_gt (oddPart_pos ha)) hb).shl
      (Nat.min a.trailingZeros b.trailingZeros)

/-- The least common multiple, if it fits; zero when an operand is zero. -/
def lcm? (a b : UInt128) : Option UInt128 :=
  if a.isZero || b.isZero then some zero
  else
    match a.div? (a.gcd b) with
    | some reduced => reduced.mul? b
    | none => none

/-- The least common multiple modulo `2^128`; zero when an operand is zero. -/
def lcm (a b : UInt128) : UInt128 :=
  if a.isZero || b.isZero then zero
  else
    match a.div? (a.gcd b) with
    | some reduced => reduced * b
    | none => zero

end TwoLimb.UInt128
