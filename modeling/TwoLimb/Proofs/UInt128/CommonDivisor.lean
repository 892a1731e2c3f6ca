/-
# The greatest common divisor of two values

Every round leaves the divisors of its two operands as they are, once the first operand is
odd: factors of two that are stripped from the second one are no common factors, and a
difference has the divisors that its terms have in common. So the rounds end with the odd
part of the divisor, and the last shift restores the common factors of two. It loses no
bits, because the divisor of two values is not larger than either of them.

That there is a last round is a statement of its own. `LoopsTo` describes the rounds without
a reason why there should be an end to them. Two odd operands differ by an even number, so
their product, with the second operand stripped of its factors of two, falls to half or less
in every round.
-/

import TwoLimb.Proofs.UInt128.Arithmetic
import TwoLimb.Proofs.UInt128.Bits
import TwoLimb.UInt128.Divisor

namespace TwoLimb.UInt128

/-- What a round keeps as its first operand, the smaller one of two odd numbers. -/
def lesser (a b : UInt128) : UInt128 := a.minimum b.oddPart

/-- What a round leaves of the larger one of its two odd numbers. -/
def rest (a b : UInt128) : UInt128 := a.maximum b.oddPart - lesser a b

/-- From two operands the loop comes to an end with a value after some number of rounds. -/
inductive LoopsTo : UInt128 → UInt128 → Nat → UInt128 → Prop
  /-- Nothing is left. -/
  | last {a b : UInt128} (hrest : (rest a b).isZero = true) : LoopsTo a b 1 (lesser a b)
  /-- The loop goes on with what is left. -/
  | next {a b divisor : UInt128} {rounds : Nat} (hrest : ¬(rest a b).isZero = true)
      (hloops : LoopsTo (lesser a b) (rest a b) rounds divisor) :
      LoopsTo a b (rounds + 1) divisor

variable {a b : UInt128}

/-! ### Factors of two -/

/-- A value is its odd part times the power of two that its trailing zeros count. -/
theorem oddPart_mul_two_pow (ha : a.toNat ≠ 0) :
    a.oddPart.toNat * 2 ^ a.trailingZeros = a.toNat := by
  rw [oddPart, toNat_shr a (trailingZeros_lt ha)]
  exact Nat.div_mul_cancel (two_pow_trailingZeros_dvd a)

theorem oddPart_mod_two (ha : a.toNat ≠ 0) : a.oddPart.toNat % 2 = 1 := by
  apply Nat.mod_two_ne_zero.mp
  intro heven
  apply not_two_pow_trailingZeros_succ_dvd ha
  rw [← oddPart_mul_two_pow ha, Nat.pow_succ']
  exact Nat.mul_dvd_mul (Nat.dvd_of_mod_eq_zero heven) (Nat.dvd_refl _)

/-- An odd number has no factor in common with a power of two. -/
theorem coprime_two_pow {n : Nat} (hodd : n % 2 = 1) (places : Nat) :
    Nat.Coprime n (2 ^ places) := by
  apply Nat.Coprime.pow_right
  rw [Nat.coprime_iff_gcd_eq_one, Nat.gcd_comm, Nat.gcd_rec, hodd, Nat.gcd_one_left]

/-- Half of an even value is as much as its odd part can be. -/
theorem oddPart_mul_two_le (ha : a.toNat ≠ 0) (heven : a.toNat % 2 = 0) :
    a.oddPart.toNat * 2 ≤ a.toNat := by
  have hvalue := oddPart_mul_two_pow ha
  cases hplaces : a.trailingZeros with
  | zero =>
      rw [hplaces, Nat.pow_zero, Nat.mul_one] at hvalue
      have hodd := oddPart_mod_two ha
      rw [hvalue, heven] at hodd
      exact absurd hodd Nat.zero_ne_one
  | succ places =>
      rw [hplaces] at hvalue
      calc
        a.oddPart.toNat * 2 ≤ a.oddPart.toNat * 2 ^ (places + 1) :=
          Nat.mul_le_mul_left _ (Nat.le_self_pow (Nat.succ_ne_zero places) 2)
        _ = a.toNat := hvalue

/-- Factors of two are no common factors of an odd number and a value. -/
theorem gcd_oddPart {n : Nat} (hodd : n % 2 = 1) (ha : a.toNat ≠ 0) :
    Nat.gcd n a.oddPart.toNat = Nat.gcd n a.toNat :=
  calc
    Nat.gcd n a.oddPart.toNat = Nat.gcd n (a.oddPart.toNat * 2 ^ a.trailingZeros) :=
      ((coprime_two_pow hodd _).symm.gcd_mul_right_cancel_right _).symm
    _ = Nat.gcd n a.toNat := by rw [oddPart_mul_two_pow ha]

theorem gcd_mul_two_pow_of_le {m n i j : Nat} (hodd : m % 2 = 1) (hle : i ≤ j) :
    Nat.gcd (m * 2 ^ i) (n * 2 ^ j) = Nat.gcd m n * 2 ^ i := by
  obtain ⟨more, rfl⟩ := Nat.exists_eq_add_of_le' hle
  rw [Nat.pow_add, ← Nat.mul_assoc, Nat.gcd_mul_right,
    (coprime_two_pow hodd more).symm.gcd_mul_right_cancel_right]

/-- Two odd numbers times powers of two have the smaller power in common. -/
theorem gcd_mul_two_pow {m n : Nat} (hm : m % 2 = 1) (hn : n % 2 = 1) (i j : Nat) :
    Nat.gcd (m * 2 ^ i) (n * 2 ^ j) = Nat.gcd m n * 2 ^ Nat.min i j := by
  rcases Nat.le_total i j with hle | hle
  · rw [gcd_mul_two_pow_of_le hm hle]
    exact congrArg (fun places => Nat.gcd m n * 2 ^ places) (Nat.min_eq_left hle).symm
  · rw [Nat.gcd_comm, gcd_mul_two_pow_of_le hn hle, Nat.gcd_comm]
    exact congrArg (fun places => Nat.gcd m n * 2 ^ places) (Nat.min_eq_right hle).symm

/-! ### One round -/

/-- A round takes the smaller number from the larger one, whichever that is. -/
theorem round_cases (a b : UInt128) :
    (a.toNat ≤ b.oddPart.toNat ∧ (lesser a b).toNat = a.toNat ∧
        (rest a b).toNat = b.oddPart.toNat - a.toNat) ∨
      (b.oddPart.toNat ≤ a.toNat ∧ (lesser a b).toNat = b.oddPart.toNat ∧
        (rest a b).toNat = a.toNat - b.oddPart.toNat) := by
  have hparts := toNat_maximum_sub_minimum a b.oddPart
  have hrest : rest a b = a.maximum b.oddPart - a.minimum b.oddPart := rfl
  rw [← hrest] at hparts
  by_cases hless : b.oddPart.isLessThan a = true
  · have hlesser : a.minimum b.oddPart = b.oddPart := if_pos hless
    have hlt := (isLessThan_iff _ _).mp hless
    rw [hlesser] at hparts
    rw [lesser, hlesser]
    omega
  · have hlesser : a.minimum b.oddPart = a := if_neg hless
    have hle := Nat.le_of_not_lt (mt (isLessThan_iff _ _).mpr hless)
    rw [hlesser] at hparts
    rw [lesser, hlesser]
    omega

section Round

variable (ha : a.toNat % 2 = 1) (hb : b.toNat ≠ 0)

include ha hb

theorem lesser_mod_two : (lesser a b).toNat % 2 = 1 := by
  rcases round_cases a b with ⟨_, hlesser, _⟩ | ⟨_, hlesser, _⟩
  · rwa [hlesser]
  · rw [hlesser]
    exact oddPart_mod_two hb

/-- Two odd numbers differ by an even one. -/
theorem rest_mod_two : (rest a b).toNat % 2 = 0 := by
  have hodd := oddPart_mod_two hb
  rcases round_cases a b with ⟨_, _, hrest⟩ | ⟨_, _, hrest⟩ <;> omega

/-- A round keeps the divisors that its operands have in common. -/
theorem gcd_round :
    Nat.gcd (lesser a b).toNat (rest a b).toNat = Nat.gcd a.toNat b.toNat := by
  rcases round_cases a b with ⟨hle, hlesser, hrest⟩ | ⟨hle, hlesser, hrest⟩
  · rw [hlesser, hrest, Nat.gcd_sub_self_right hle, gcd_oddPart ha hb]
  · rw [hlesser, hrest, Nat.gcd_sub_self_right hle, Nat.gcd_comm, gcd_oddPart ha hb]

/-- A round that leaves something halves the product of the odd numbers. -/
theorem round_product (hrest : (rest a b).toNat ≠ 0) :
    (lesser a b).toNat * (rest a b).oddPart.toNat * 2 ≤ a.toNat * b.oddPart.toNat := by
  have hhalf := oddPart_mul_two_le hrest (rest_mod_two ha hb)
  have hproduct : (lesser a b).toNat * (rest a b).toNat ≤ a.toNat * b.oddPart.toNat := by
    rcases round_cases a b with ⟨_, hlesser, hleft⟩ | ⟨_, hlesser, hleft⟩
    · rw [hlesser, hleft]
      exact Nat.mul_le_mul_left _ (Nat.sub_le _ _)
    · rw [hlesser, hleft, Nat.mul_comm]
      exact Nat.mul_le_mul_right _ (Nat.sub_le _ _)
  calc
    (lesser a b).toNat * (rest a b).oddPart.toNat * 2
        = (lesser a b).toNat * ((rest a b).oddPart.toNat * 2) := Nat.mul_assoc _ _ _
    _ ≤ (lesser a b).toNat * (rest a b).toNat := Nat.mul_le_mul_left _ hhalf
    _ ≤ a.toNat * b.oddPart.toNat := hproduct

end Round

/-! ### The loop -/

/-- There are no more rounds than the product of the odd numbers has bits. -/
theorem exists_loopsTo {a b : UInt128} {bits : Nat} (ha : a.toNat % 2 = 1) (hb : b.toNat ≠ 0)
    (hbits : a.toNat * b.oddPart.toNat < 2 ^ bits) :
    ∃ rounds, rounds ≤ bits ∧ ∃ divisor, LoopsTo a b rounds divisor := by
  have haPos : 0 < a.toNat := by omega
  induction bits generalizing a b with
  | zero =>
      have hpos : 0 < a.toNat * b.oddPart.toNat := Nat.mul_pos haPos (oddPart_pos hb)
      exact absurd (Nat.lt_one_iff.mp hbits) (Nat.ne_of_gt hpos)
  | succ bits ih =>
      by_cases hrest : (rest a b).isZero = true
      · exact ⟨1, Nat.succ_le_succ (Nat.zero_le bits), lesser a b, .last hrest⟩
      · have hleft := toNat_ne_zero_of_not_isZero hrest
        have hodd := lesser_mod_two ha hb
        have hhalf : (lesser a b).toNat * (rest a b).oddPart.toNat < 2 ^ bits := by
          have htwice := round_product ha hb hleft
          rw [Nat.pow_succ] at hbits
          exact Nat.lt_of_mul_lt_mul_right (Nat.lt_of_le_of_lt htwice hbits)
        obtain ⟨rounds, hrounds, divisor, hloops⟩ := ih hodd hleft hhalf (by omega)
        exact ⟨rounds + 1, Nat.succ_le_succ hrounds, divisor, .next hrest hloops⟩

namespace LoopsTo

variable {rounds : Nat} {divisor : UInt128}

/-- What the loop comes to an end with is the divisor of what it started from. -/
theorem toNat_eq (hloops : LoopsTo a b rounds divisor) (ha : a.toNat % 2 = 1)
    (hb : b.toNat ≠ 0) : divisor.toNat = Nat.gcd a.toNat b.toNat := by
  induction hloops with
  | last hrest => rw [← gcd_round ha hb, (isZero_iff _).mp hrest, Nat.gcd_zero_right]
  | next hrest _ ih =>
      rw [ih (lesser_mod_two ha hb) (toNat_ne_zero_of_not_isZero hrest), gcd_round ha hb]

/-- The rounds are those of the loop that computes the divisor. -/
theorem eq_gcdLoop (hloops : LoopsTo a b rounds divisor) (ha : a.toNat ≠ 0)
    (hb : b.toNat ≠ 0) : gcdLoop a b ha hb = divisor := by
  induction hloops with
  | last hrest =>
      rw [gcdLoop]
      exact dif_pos hrest
  | next hrest _ ih =>
      rw [gcdLoop]
      exact (dif_neg hrest).trans (ih _ _)

end LoopsTo

/-! ### The divisor -/

theorem gcd_zero_left (b : UInt128) : zero.gcd b = b := rfl

theorem gcd_zero_right (a : UInt128) : a.gcd zero = a := by
  rw [gcd]
  split
  · rename_i hzero
    exact ext_toNat ((isZero_iff a).mp hzero).symm
  · rfl

/-- Two values that are not zero leave the loop after at most as many rounds as both have
bits together, and what is left is shifted back. -/
theorem gcd_loops (ha : a.toNat ≠ 0) (hb : b.toNat ≠ 0) :
    ∃ rounds, rounds ≤ 256 ∧ ∃ divisor, LoopsTo a.oddPart b rounds divisor ∧
      a.gcd b = divisor.shl (Nat.min a.trailingZeros b.trailingZeros) := by
  have hodd := oddPart_mod_two ha
  have hbits : a.oddPart.toNat * b.oddPart.toNat < 2 ^ 256 := by
    have hproduct := Nat.mul_lt_mul'' a.oddPart.toNat_lt b.oddPart.toNat_lt
    rwa [← Nat.pow_add] at hproduct
  obtain ⟨rounds, hrounds, divisor, hloops⟩ := exists_loopsTo hodd hb hbits
  refine ⟨rounds, hrounds, divisor, hloops, ?_⟩
  rw [gcd, dif_neg (mt (isZero_iff a).mp ha), dif_neg (mt (isZero_iff b).mp hb)]
  exact congrArg (fun left => shl left _)
    (hloops.eq_gcdLoop (Nat.ne_of_gt (oddPart_pos ha)) hb)

/-- The divisor is that of the integers. -/
theorem toNat_gcd (a b : UInt128) : (a.gcd b).toNat = Nat.gcd a.toNat b.toNat := by
  by_cases ha : a.toNat = 0
  · rw [ext_toNat (b := zero) ha, gcd_zero_left, toNat_zero, Nat.gcd_zero_left]
  by_cases hb : b.toNat = 0
  · rw [ext_toNat (b := zero) hb, gcd_zero_right, toNat_zero, Nat.gcd_zero_right]
  obtain ⟨_, _, divisor, hloops, hgcd⟩ := gcd_loops ha hb
  have hodd := oddPart_mod_two ha
  have hplaces : Nat.min a.trailingZeros b.trailingZeros < 128 :=
    Nat.lt_of_le_of_lt (Nat.min_le_left _ _) (trailingZeros_lt ha)
  have hshifted : divisor.toNat * 2 ^ Nat.min a.trailingZeros b.trailingZeros =
      Nat.gcd a.toNat b.toNat := by
    rw [hloops.toNat_eq hodd hb, ← gcd_oddPart hodd hb,
      ← gcd_mul_two_pow hodd (oddPart_mod_two hb), oddPart_mul_two_pow ha, oddPart_mul_two_pow hb]
  have hfits : Nat.gcd a.toNat b.toNat < 2 ^ 128 :=
    Nat.lt_of_le_of_lt (Nat.gcd_le_left _ (Nat.pos_of_ne_zero ha)) a.toNat_lt
  rw [hgcd, toNat_shl divisor hplaces, hshifted, Nat.mod_eq_of_lt hfits]

theorem gcd_comm (a b : UInt128) : a.gcd b = b.gcd a := by
  apply ext_toNat
  rw [toNat_gcd, toNat_gcd, Nat.gcd_comm]

/-- A factor that both values share is a factor of their divisor. -/
theorem toNat_gcd_mul_left {k : UInt128} (ha : k.toNat * a.toNat < 2 ^ 128)
    (hb : k.toNat * b.toNat < 2 ^ 128) :
    ((k * a).gcd (k * b)).toNat = k.toNat * (a.gcd b).toNat := by
  rw [toNat_gcd, toNat_mul, toNat_mul, Nat.mod_eq_of_lt ha, Nat.mod_eq_of_lt hb,
    Nat.gcd_mul_left, toNat_gcd]

/-- The loop comes to an end, and the greatest common divisor of two values is that of the
integers. So the order of the values does not matter, zero adds no divisors, and a common
factor can be taken out wherever the products fit. -/
theorem gcd_is_integer_gcd (a b : UInt128) :
    (a.toNat ≠ 0 → b.toNat ≠ 0 →
      ∃ rounds, rounds ≤ 256 ∧ ∃ divisor, LoopsTo a.oddPart b rounds divisor ∧
        a.gcd b = divisor.shl (Nat.min a.trailingZeros b.trailingZeros)) ∧
      (a.gcd b).toNat = Nat.gcd a.toNat b.toNat ∧
      a.gcd zero = a ∧ zero.gcd a = a ∧
      a.gcd b = b.gcd a ∧
      ∀ k : UInt128, k.toNat * a.toNat < 2 ^ 128 → k.toNat * b.toNat < 2 ^ 128 →
        ((k * a).gcd (k * b)).toNat = k.toNat * (a.gcd b).toNat := by
  refine ⟨gcd_loops, toNat_gcd a b, gcd_zero_right a, gcd_zero_left a, gcd_comm a b, ?_⟩
  intro k ha hb
  exact toNat_gcd_mul_left ha hb

end TwoLimb.UInt128
