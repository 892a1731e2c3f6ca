/-
# Rounding to nearest

A natural number is divided by a power of two and rounded to the nearest integer.
The one case with two nearest integers, a rest of exactly one half, goes to the even
of the two. All rounding of floats in this library is this one function.
-/

import TwoLimb.PowerOfTwo

namespace TwoLimb

/-- The number of binary digits of `n`, none for zero. -/
def bitLength (n : Nat) : Nat := if n = 0 then 0 else n.log2 + 1

/-- The integer nearest to `n / 2^places`, the even one of two. -/
def roundHalfEven (n places : Nat) : Nat :=
  let quotient := n / 2 ^ places
  let rest := n % 2 ^ places
  if 2 ^ places < 2 * rest ∨ 2 ^ places = 2 * rest ∧ quotient % 2 = 1 then quotient + 1
  else quotient

/-- Rounding at no place changes nothing. -/
@[simp]
theorem roundHalfEven_zero (n : Nat) : roundHalfEven n 0 = n := by
  simp [roundHalfEven, Nat.mod_one]

/-- A rounded quotient is at most half a unit away. -/
theorem roundHalfEven_error (n places : Nat) :
    2 * n ≤ 2 * (roundHalfEven n places * 2 ^ places) + 2 ^ places ∧
      2 * (roundHalfEven n places * 2 ^ places) ≤ 2 * n + 2 ^ places := by
  have hsplit := Nat.div_add_mod n (2 ^ places)
  have hrest := Nat.mod_lt n (Nat.two_pow_pos places)
  rw [Nat.mul_comm] at hsplit
  unfold roundHalfEven
  simp only
  split
  · rw [Nat.add_mul, Nat.one_mul]
    omega
  · omega

end TwoLimb
