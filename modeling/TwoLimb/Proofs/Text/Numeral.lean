/-
# Written numerals are positional

The digits that are written for a value other than zero are its digits in positional
notation, most significant first, whichever loop makes them: the loop that cuts off
groups of bits, the loop that divides a limb by ten, or the division into chunks of
nineteen decimal digits. The zeros that fill up an inner chunk are digits of the value
like all others.
-/

import Mathlib.Data.Nat.Digits.Lemmas
import TwoLimb.Proofs.UInt128.Arithmetic
import TwoLimb.Text.Numeral

namespace TwoLimb.Text

theorem Radix.one_lt_value (radix : Radix) : 1 < radix.value := by
  cases radix <;> decide

theorem Radix.value_le_sixteen (radix : Radix) : radix.value ≤ 16 := by
  cases radix <;> decide

/-- The positional digits of a number as ASCII bytes, most significant first; none for
zero. -/
def numeral (uppercase : Bool) (base n : Nat) : List UInt8 :=
  (base.digits n).reverse.map (digitByte uppercase)

variable {uppercase : Bool}

theorem numeral_zero (base : Nat) : numeral uppercase base 0 = [] := by
  rw [numeral, Nat.digits_zero]
  rfl

/-- The last digit of a numeral, and the numeral before it. -/
theorem numeral_of_ne_zero {base n : Nat} (hbase : 1 < base) (hn : n ≠ 0) :
    numeral uppercase base n =
      numeral uppercase base (n / base) ++ [digitByte uppercase (n % base)] := by
  rw [numeral, Nat.digits_eq_cons_digits_div hbase hn, List.reverse_cons, List.map_append]
  rfl

/-- Two numerals with zeros between them are the numeral of one number. -/
theorem numeral_append_zeros {base low high count : Nat} (hbase : 1 < base)
    (hhigh : 0 < high) (hlength : (numeral uppercase base low).length ≤ count) :
    numeral uppercase base high
        ++ (List.replicate (count - (numeral uppercase base low).length) zeroDigit
          ++ numeral uppercase base low) =
      numeral uppercase base (low + base ^ count * high) := by
  have hdigits : (numeral uppercase base low).length = (base.digits low).length := by
    rw [numeral, List.length_map, List.length_reverse]
  have hzero : digitByte uppercase 0 = zeroDigit := rfl
  rw [hdigits] at hlength ⊢
  have happend := Nat.digits_append_zeroes_append_digits
    (k := count - (base.digits low).length) (n := low) hbase hhigh
  rw [Nat.add_sub_cancel' hlength] at happend
  rw [numeral, numeral, numeral, ← happend, List.reverse_append, List.reverse_append,
    List.map_append, List.map_append, List.reverse_replicate, List.map_replicate, hzero]

/-- The lowest digit in the radix `2^places`. -/
theorem lowestDigit_eq {places : Nat} (hplaces : places < 64) (a : UInt128) :
    lowestDigit places a = a.toNat % 2 ^ places := by
  have hmask : (Limb.shl 1 places - 1).toNat = 2 ^ places - 1 := by
    have hpower := Limb.toNat_shl 1 hplaces
    rw [UInt64.toNat_one, Nat.one_mul,
      Nat.mod_eq_of_lt (Nat.pow_lt_pow_right (by decide) hplaces)] at hpower
    rw [UInt64.toNat_sub_of_le]
    · rw [hpower]
      rfl
    · rw [UInt64.le_iff_toNat_le, hpower]
      exact Nat.one_le_two_pow
  have hdvd : 2 ^ places ∣ a.high.toNat * 2 ^ 64 :=
    Dvd.dvd.mul_left (Nat.pow_dvd_pow 2 (Nat.le_of_lt hplaces)) _
  rw [lowestDigit, UInt64.toNat_and, hmask, Nat.and_two_pow_sub_one_eq_mod, UInt128.toNat,
    Nat.add_mod, Nat.mod_eq_zero_of_dvd hdvd, Nat.zero_add, Nat.mod_mod]

/-- Cutting off groups of bits writes the numeral in a power of two. -/
theorem bitDigits_eq {places : Nat} (hplaces : 0 < places ∧ places < 64) (rest : UInt128)
    (tail : List UInt8) :
    bitDigits uppercase places hplaces rest tail =
      numeral uppercase (2 ^ places) rest.toNat ++ tail := by
  fun_induction bitDigits uppercase places hplaces rest tail with
  | case1 rest tail hrest =>
      rw [(UInt128.isZero_iff rest).mp hrest, numeral_zero, List.nil_append]
  | case2 rest tail hrest _ ih =>
      have hpos := UInt128.toNat_ne_zero_of_not_isZero hrest
      rw [ih, numeral_of_ne_zero (Nat.one_lt_two_pow (by omega)) hpos,
        UInt128.toNat_shr rest (by omega), lowestDigit_eq hplaces.2, List.append_assoc]
      rfl

/-- Dividing a limb by ten writes its decimal numeral. -/
theorem limbDigits_eq (x : Limb) (tail : List UInt8) :
    limbDigits x tail = numeral false 10 x.toNat ++ tail := by
  fun_induction limbDigits x tail with
  | case1 tail => rw [UInt64.toNat_zero, numeral_zero, List.nil_append]
  | case2 x tail hx ih =>
      rw [ih, numeral_of_ne_zero (by decide) (Limb.toNat_ne_zero hx), UInt64.toNat_div,
        UInt64.toNat_mod, List.append_assoc]
      rfl

/-- A chunk is no longer than nineteen digits. -/
theorem length_numeral_chunk {n : Nat} (hlt : n < chunkSize.toNat) :
    (numeral false 10 n).length ≤ chunkDigits := by
  rw [numeral, List.length_map, List.length_reverse]
  exact (Nat.digits_length_le_iff (by decide) n).mpr hlt

/-- A chunk that is filled up continues the numeral before it. -/
theorem numeral_append_paddedChunk {high : Nat} (hhigh : 0 < high) {x : Limb}
    (hx : x < chunkSize) (tail : List UInt8) :
    numeral false 10 high ++ paddedChunk x tail =
      numeral false 10 (x.toNat + chunkSize.toNat * high) ++ tail := by
  have hlength := length_numeral_chunk (UInt64.lt_iff_toNat_lt.mp hx)
  have hdigits : limbDigits x [] = numeral false 10 x.toNat := by
    rw [limbDigits_eq, List.append_nil]
  have hsize : chunkSize.toNat = 10 ^ chunkDigits := rfl
  rw [hsize, ← numeral_append_zeros (by decide) hhigh hlength]
  simp only [paddedChunk, hdigits, List.append_assoc]

/-- The division into chunks writes the decimal numeral. -/
theorem decimalDigits_eq {chunks : Nat} {rest : UInt128} (tail : List UInt8)
    (hrest : rest.toNat < chunkSize.toNat ^ chunks) :
    decimalDigits chunks rest tail = numeral false 10 rest.toNat ++ tail := by
  induction chunks generalizing rest tail with
  | zero =>
      have hzero : rest.toNat = 0 := by
        rw [Nat.pow_zero] at hrest
        exact Nat.lt_one_iff.mp hrest
      rw [hzero, numeral_zero]
      rfl
  | succ chunks ih =>
      have hchunk : UInt128.ofLimb chunkSize ≠ .zero := by decide
      obtain ⟨hvalue, hlt⟩ := UInt128.divides_divMod rest hchunk
      rw [UInt128.toNat_ofLimb] at hvalue hlt
      rw [decimalDigits]
      set result := rest.divMod (.ofLimb chunkSize)
      have hlow : result.remainder.low.toNat = result.remainder.toNat := by
        have hbound := hlt.trans (UInt64.toNat_lt chunkSize)
        unfold UInt128.toNat at hbound ⊢
        omega
      by_cases hzero : result.quotient.isZero = true
      · rw [if_pos hzero, limbDigits_eq, hlow, hvalue,
          (UInt128.isZero_iff result.quotient).mp hzero, Nat.zero_mul, Nat.zero_add]
      · have hpos : 0 < result.quotient.toNat :=
          Nat.pos_of_ne_zero (UInt128.toNat_ne_zero_of_not_isZero hzero)
        have hquotient : result.quotient.toNat < chunkSize.toNat ^ chunks := by
          rw [Nat.pow_succ, hvalue] at hrest
          exact Nat.lt_of_mul_lt_mul_right (Nat.lt_of_le_of_lt (Nat.le_add_right _ _) hrest)
        rw [if_neg hzero, ih _ hquotient,
          numeral_append_paddedChunk hpos (UInt64.lt_iff_toNat_lt.mpr (hlow ▸ hlt)), hlow,
          hvalue, Nat.add_comm, Nat.mul_comm]

/-- Digits up to nine are the same in either case. -/
theorem numeral_of_le_ten {base : Nat} (hbase : 1 < base) (hten : base ≤ 10) (n : Nat) :
    numeral uppercase base n = numeral false base n := by
  refine List.map_congr_left fun digit hdigit => ?_
  have hlt : digit < base := Nat.digits_lt_base hbase (List.mem_reverse.mp hdigit)
  rw [digitByte, digitByte, if_pos (by omega), if_pos (by omega)]

/-- The digits of a value other than zero are its numeral. -/
theorem digits_eq (radix : Radix) {a : UInt128} (ha : a ≠ .zero) :
    digits a radix uppercase = numeral uppercase radix.value a.toNat := by
  have hzero : ¬a.isZero = true := Bool.eq_false_iff.mp (UInt128.isZero_eq_false ha)
  unfold digits
  rw [if_neg hzero]
  cases radix with
  | decimal =>
      rw [Radix.value, numeral_of_le_ten (by decide) (by decide), ← List.append_nil (numeral false 10 a.toNat)]
      exact decimalDigits_eq [] (a.toNat_lt.trans (by decide))
  | binary | octal | hexadecimal =>
      simp only [bitDigits_eq, List.append_nil]
      rfl

end TwoLimb.Text
