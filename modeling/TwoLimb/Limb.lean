/-
# Limbs

A limb is one 64-bit machine word, the digit of every wider number in this
library. This module fixes what a limb is worth, how it is shifted by a natural
amount, and the three counts that a limb answers about its own bits. Everything
is stated against `UInt64.toNat`, the single meaning of a limb.
-/

import TwoLimb.PowerOfTwo

namespace TwoLimb

/-- A limb is a 64-bit word. -/
abbrev Limb := UInt64

namespace Limb

/-- The number of bits in a limb. -/
def bits : Nat := 64

/-- The number of limbs in a 128-bit value. -/
def count : Nat := 2

/-- The limb whose bits are all set. -/
def max : Limb := 0xffffffffffffffff

/-- Only the topmost bit, the sign of a limb read as two's complement. -/
def signBit : Limb := 0x8000000000000000

/-- One when the flag is set and zero otherwise. -/
def ofFlag (flag : Bool) : Limb := if flag then 1 else 0

/-- Shift towards the high end; meaningful for amounts below 64. -/
def shl (x : Limb) (amount : Nat) : Limb := x <<< UInt64.ofNat amount

/-- Shift towards the low end; meaningful for amounts below 64. -/
def shr (x : Limb) (amount : Nat) : Limb := x >>> UInt64.ofNat amount

/-- The number of zero bits above the topmost set bit, 64 for the zero limb. -/
def leadingZeros (x : Limb) : Nat :=
  if x = 0 then bits else bits - 1 - x.toNat.log2

/-- The number of even halvings of `n`, at most `room`. -/
def evenHalvings : (room : Nat) → (n : Nat) → Nat
  | 0, _ => 0
  | room + 1, n => if n % 2 = 1 then 0 else evenHalvings room (n / 2) + 1

/-- The number of zero bits below the lowest set bit, 64 for the zero limb. -/
def trailingZeros (x : Limb) : Nat := evenHalvings bits x.toNat

def onesCount (x : Limb) : Nat :=
  (List.range bits).countP fun i => x.toNat.testBit i

/-- Byte `index` of a limb, counted from the least significant one. -/
def byte (x : Limb) (index : Nat) : UInt8 := (shr x (8 * index)).toUInt8

/-- The sum and whether it left the limb. -/
def overflowingAdd (a b : Limb) : Limb × Bool :=
  let sum := a + b
  (sum, sum < a)

/-- The difference and whether it went below zero. -/
def overflowingSub (a b : Limb) : Limb × Bool := (a - b, a < b)

/-- The truncated product and whether it left the limb. -/
def overflowingMul (a b : Limb) : Limb × Bool :=
  (a * b, 2 ^ 64 ≤ a.toNat * b.toNat)

@[simp]
theorem toNat_ofFlag (flag : Bool) : (ofFlag flag).toNat = flag.toNat := by
  cases flag <;> rfl

theorem toNat_ne_zero {x : Limb} (hx : x ≠ 0) : x.toNat ≠ 0 := fun hzero =>
  hx (UInt64.toNat_inj.mp hzero)

/-- A shift towards the high end multiplies and drops what leaves the limb. -/
theorem toNat_shl (x : Limb) {amount : Nat} (hamount : amount < 64) :
    (shl x amount).toNat = x.toNat * 2 ^ amount % 2 ^ 64 := by
  have hword : amount % 2 ^ 64 % 64 = amount := by omega
  rw [shl, UInt64.toNat_shiftLeft, UInt64.toNat_ofNat', hword, Nat.shiftLeft_eq]

/-- A shift towards the low end divides and rounds down. -/
theorem toNat_shr (x : Limb) {amount : Nat} (hamount : amount < 64) :
    (shr x amount).toNat = x.toNat / 2 ^ amount := by
  have hword : amount % 2 ^ 64 % 64 = amount := by omega
  rw [shr, UInt64.toNat_shiftRight, UInt64.toNat_ofNat', hword, Nat.shiftRight_eq_div_pow]

/-- The sign bit of a limb is set exactly in the upper half of the limbs. -/
theorem and_signBit_ne_zero_iff (x : Limb) : x &&& signBit ≠ 0 ↔ 2 ^ 63 ≤ x.toNat := by
  have hx := x.toNat_lt
  have hsign : signBit.toNat = 2 ^ 63 := rfl
  have hbit : x.toNat.testBit 63 = decide (2 ^ 63 ≤ x.toNat) := by
    rw [Nat.testBit_eq_decide_div_mod_eq]
    apply decide_eq_decide.mpr
    omega
  have hmask (i : Nat) :
      (x.toNat &&& 2 ^ 63).testBit i = (x.toNat.testBit i && decide (63 = i)) := by
    rw [Nat.testBit_and, Nat.testBit_two_pow]
  rw [ne_eq, ← UInt64.toNat_inj, UInt64.toNat_and, hsign, UInt64.toNat_zero]
  constructor
  · intro hne
    apply Decidable.byContradiction
    intro hlt
    apply hne
    apply Nat.eq_of_testBit_eq
    intro i
    rw [hmask, Nat.zero_testBit]
    by_cases hi : 63 = i
    · subst hi
      rw [hbit, decide_eq_false hlt]
      rfl
    · simp [hi]
  · intro hle hzero
    have htop := hmask 63
    rw [hzero, hbit, decide_eq_true hle, Nat.zero_testBit] at htop
    simp at htop

/-- As many halvings as are counted are even: the power of two divides. -/
theorem two_pow_evenHalvings_dvd (room n : Nat) : 2 ^ evenHalvings room n ∣ n := by
  induction room generalizing n with
  | zero => exact Nat.one_dvd n
  | succ room ih =>
      unfold evenHalvings
      split
      · exact Nat.one_dvd n
      · obtain ⟨m, hm⟩ := ih (n / 2)
        refine ⟨m, ?_⟩
        rw [Nat.pow_succ, Nat.mul_right_comm, ← hm]
        omega

/-- A number that is not zero and fits the room is odd before the room is used up. -/
theorem evenHalvings_lt {room n : Nat} (hn : n ≠ 0) (hfits : n < 2 ^ room) :
    evenHalvings room n < room := by
  induction room generalizing n with
  | zero => exact absurd (Nat.lt_one_iff.mp hfits) hn
  | succ room ih =>
      unfold evenHalvings
      split
      · exact Nat.succ_pos room
      · have hhalf : n / 2 < 2 ^ room := by
          rw [Nat.pow_succ] at hfits
          omega
        exact Nat.succ_lt_succ (ih (by omega) hhalf)

/-- The power of two counted by the trailing zeros divides the limb. -/
theorem two_pow_trailingZeros_dvd (x : Limb) : 2 ^ x.trailingZeros ∣ x.toNat :=
  two_pow_evenHalvings_dvd bits x.toNat

/-- A limb that is not zero has fewer than 64 trailing zeros. -/
theorem trailingZeros_lt {x : Limb} (hx : x ≠ 0) : x.trailingZeros < 64 :=
  evenHalvings_lt (toNat_ne_zero hx) x.toNat_lt

/-- The sum in exact terms: the flag is worth `2^64`. -/
theorem overflowingAdd_eq (a b : Limb) :
    (overflowingAdd a b).1.toNat + (overflowingAdd a b).2.toNat * 2 ^ 64 =
      a.toNat + b.toNat := by
  have ha := a.toNat_lt
  have hb := b.toNat_lt
  simp only [overflowingAdd, UInt64.lt_iff_toNat_lt, UInt64.toNat_add]
  by_cases hcarry : a.toNat + b.toNat < 2 ^ 64
  · simp only [Nat.mod_eq_of_lt hcarry]
    rw [decide_eq_false (by omega)]
    simp
  · rw [decide_eq_true (by omega)]
    simp only [Bool.toNat_true]
    omega

/-- The difference in exact terms: the flag is worth `2^64`. -/
theorem overflowingSub_eq (a b : Limb) :
    (overflowingSub a b).1.toNat + b.toNat =
      a.toNat + (overflowingSub a b).2.toNat * 2 ^ 64 := by
  have ha := a.toNat_lt
  have hb := b.toNat_lt
  simp only [overflowingSub, UInt64.lt_iff_toNat_lt, UInt64.toNat_sub]
  by_cases hborrow : a.toNat < b.toNat
  · rw [decide_eq_true hborrow]
    simp only [Bool.toNat_true]
    omega
  · rw [decide_eq_false hborrow]
    simp only [Bool.toNat_false]
    omega

end Limb

end TwoLimb
