/-
# Powers of two

Widths, places and moduli are powers of two here, so powers stand in most
statements. They are the powers of the core library, which evaluate by themselves,
and they stay so where an algebra library with powers of its own is loaded beside
this one. The lemmas say how bits above and below a place fit together.
-/

namespace TwoLimb

-- One power for `Nat` and one for `Int`, both where the exponent is a variable and
-- where it is a numeral whose type is still open.
attribute [scoped instance (high)] instPowNat

attribute [default_instance high + 1] instPowNat

/-- Bits that lie above and bits that lie below a position add without a carry. -/
theorem mul_two_pow_or {a b i : Nat} (hb : b < 2 ^ i) : a * 2 ^ i ||| b = a * 2 ^ i + b := by
  rw [← Nat.shiftLeft_eq, Nat.shiftLeft_add_eq_or_of_lt hb]

/-- What a word of `width` bits keeps of a number that moves up by `amount` is its
remainder at the complementary power. -/
theorem mul_two_pow_mod_two_pow (x : Nat) {amount width : Nat} (hamount : amount ≤ width) :
    x * 2 ^ amount % 2 ^ width = x % 2 ^ (width - amount) * 2 ^ amount := by
  have hsplit : 2 ^ width = 2 ^ (width - amount) * 2 ^ amount := by
    rw [← Nat.pow_add, Nat.sub_add_cancel hamount]
  rw [hsplit, Nat.mul_mod_mul_right]

end TwoLimb
