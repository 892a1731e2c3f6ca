/-
# Guarded numerals

Digits are written into a buffer of 128 bytes from its end, each below the one before, and
the index of the last one written moves down with them. It never passes the start of the
buffer: before each digit there is room for all that the rest of the value needs, which is
one place less for each digit that is cut off, and nineteen less for each chunk.
-/

import TwoLimb.Proofs.Guarded.Unsigned
import TwoLimb.Proofs.Text.Numeral

namespace TwoLimb.Guarded

open Text

/-- A buffer of digits, and the index from which on it is filled. -/
structure DigitBuffer where
  bytes : List UInt8
  start : Nat

/-- The number of digits that a buffer has room for. -/
def capacity : Nat := 128

/-- The buffer that holds the given digits at its end, and zeros before them. -/
def DigitBuffer.holding (digits : List UInt8) : DigitBuffer where
  bytes := List.replicate (capacity - digits.length) zeroDigit ++ digits
  start := capacity - digits.length

/-- The buffer before the first digit. -/
def DigitBuffer.empty : DigitBuffer := holding []

/-- The sixteen digits in the given case. -/
def alphabet (uppercase : Bool) : List UInt8 :=
  (if uppercase then "0123456789ABCDEF" else "0123456789abcdef").toList.map
    fun c => UInt8.ofNat c.toNat

theorem fetch_alphabet (uppercase : Bool) {digit : Nat} (hdigit : digit < 16) :
    fetch (alphabet uppercase) digit = .ok (digitByte uppercase digit) := by
  have hall : ∀ (uppercase : Bool) (digit : Fin 16),
      (alphabet uppercase)[digit.val]? = some (digitByte uppercase digit.val) := by
    decide
  exact fetch_eq (hall uppercase ⟨digit, hdigit⟩)

/-- The digits of a value in the radix `2^places`, written from the index `start` down. At
index zero there is no room for another one. -/
def bitLoop (uppercase : Bool) (mask : Limb) (places : Nat) :
    (start : Nat) → (bytes : List UInt8) → (rest : UInt128) → Guarded DigitBuffer
  | 0, bytes, rest => if rest.isZero then .ok ⟨bytes, 0⟩ else .error .overflow
  | start + 1, bytes, rest =>
      if rest.isZero then .ok ⟨bytes, start + 1⟩
      else do
        let digit ← fetch (alphabet uppercase) (rest.low &&& mask).toNat
        let bytes ← store bytes start digit
        let rest ← shiftBy rest .right (.word (.ofNat places))
        bitLoop uppercase mask places start bytes rest

/-- The decimal digits of a limb, written from the index `start` down. -/
def limbLoop (uppercase : Bool) :
    (start : Nat) → (bytes : List UInt8) → (rest : Limb) → Guarded DigitBuffer
  | 0, bytes, rest => if rest = 0 then .ok ⟨bytes, 0⟩ else .error .overflow
  | start + 1, bytes, rest =>
      if rest = 0 then .ok ⟨bytes, start + 1⟩
      else do
        let lowest ← limbRemainder rest 10
        let digit ← fetch (alphabet uppercase) lowest.toNat
        let bytes ← store bytes start digit
        let rest ← limbQuotient rest 10
        limbLoop uppercase start bytes rest

/-- The decimal digits of a value chunk by chunk. After a chunk that is not the first, the
index moves down by the digits of a full one. -/
def chunkLoop (ops : GuardedOps) (uppercase : Bool) (buffer : DigitBuffer) (rest : UInt128) :
    Guarded DigitBuffer := do
  let result ← divMod ops rest (.ofLimb chunkSize)
  let filled ← limbLoop uppercase buffer.start buffer.bytes result.remainder.low
  if result.quotient.isZero then .ok filled
  else if chunkDigits ≤ buffer.start then
    chunkLoop ops uppercase ⟨filled.bytes, buffer.start - chunkDigits⟩ result.quotient
  else .error .overflow
termination_by buffer.start
decreasing_by
  have hpositive : 0 < chunkDigits := by decide
  omega

def bitDigits (uppercase : Bool) (places : Nat) (a : UInt128) : Guarded DigitBuffer := do
  let mask ← lowMask places
  bitLoop uppercase mask places DigitBuffer.empty.start DigitBuffer.empty.bytes a

/-- The digits of a value; zero has the one digit zero. -/
def digits (ops : GuardedOps) (a : UInt128) (radix : Radix) (uppercase : Bool) :
    Guarded (List UInt8) := do
  let filled ←
    (if a.isZero then do
      let start ← difference DigitBuffer.empty.start 1
      .ok ⟨DigitBuffer.empty.bytes, start⟩
    else
      match radix with
      | .binary => bitDigits uppercase 1 a
      | .octal => bitDigits uppercase 3 a
      | .hexadecimal => bitDigits uppercase 4 a
      | .decimal => chunkLoop ops uppercase .empty a)
  sliceFrom filled.bytes filled.start

/-! ### Room in the buffer -/

/-- A digit is stored right before those that the buffer holds. -/
theorem store_holding {start : Nat} {tail : List UInt8}
    (hstart : capacity - tail.length = start + 1) (digit : UInt8) :
    store (DigitBuffer.holding tail).bytes start digit =
      .ok (DigitBuffer.holding (digit :: tail)).bytes := by
  have hrest : capacity - (digit :: tail).length = start := by
    rw [List.length_cons]
    omega
  have hzeros : (List.replicate start zeroDigit).length = start := List.length_replicate
  simp only [DigitBuffer.holding, hstart, hrest]
  rw [List.replicate_succ', List.append_assoc, store_eq, List.set_append_right _ _ (by omega),
    hzeros, Nat.sub_self]
  · rfl
  · rw [List.length_append, hzeros]
    exact Nat.lt_add_of_pos_right (by simp)

/-- What the buffer holds is the slice from its index on. -/
theorem sliceFrom_holding (digits : List UInt8) :
    sliceFrom (DigitBuffer.holding digits).bytes (DigitBuffer.holding digits).start =
      .ok digits := by
  have hzeros : (List.replicate (capacity - digits.length) zeroDigit).length =
      capacity - digits.length := List.length_replicate
  have hstart : capacity - digits.length ≤
      (List.replicate (capacity - digits.length) zeroDigit ++ digits).length := by
    rw [List.length_append, hzeros]
    exact Nat.le_add_right _ _
  rw [DigitBuffer.holding, sliceFrom_eq hstart, List.drop_append_of_le_length hzeros.ge,
    List.drop_eq_nil_of_le hzeros.le, List.nil_append]

/-- A value below a power of the radix that is not zero leaves room for a digit. -/
theorem exists_start_eq_succ {value base start : Nat} (hvalue : value ≠ 0)
    (hroom : value < base ^ start) : ∃ k, start = k + 1 := by
  cases start with
  | zero => exact absurd (Nat.lt_one_iff.mp hroom) hvalue
  | succ k => exact ⟨k, rfl⟩

/-- Cutting off a digit makes up for the place that it takes. -/
theorem div_lt_pow {value base start : Nat} (hroom : value < base ^ (start + 1)) :
    value / base < base ^ start := by
  rw [Nat.pow_succ, Nat.mul_comm] at hroom
  exact Nat.div_lt_of_lt_mul hroom

theorem bitLoop_zero (uppercase : Bool) (mask : Limb) (places start : Nat) (bytes : List UInt8)
    {rest : UInt128} (hrest : rest.isZero = true) :
    bitLoop uppercase mask places start bytes rest = .ok ⟨bytes, start⟩ := by
  cases start <;> exact if_pos hrest

theorem bitLoop_eq {uppercase : Bool} {places : Nat} (hplaces : 0 < places ∧ places < 64)
    (hdigits : 2 ^ places ≤ 16) (rest : UInt128) (tail : List UInt8)
    (hroom : rest.toNat < (2 ^ places) ^ (capacity - tail.length)) :
    bitLoop uppercase (Limb.shl 1 places - 1) places (capacity - tail.length)
        (DigitBuffer.holding tail).bytes rest =
      .ok (.holding (Text.bitDigits uppercase places hplaces rest tail)) := by
  fun_induction Text.bitDigits uppercase places hplaces rest tail with
  | case1 rest tail hrest => exact bitLoop_zero _ _ _ _ _ hrest
  | case2 rest tail hrest _ ih =>
      have hpos := UInt128.toNat_ne_zero_of_not_isZero hrest
      obtain ⟨start, hstart⟩ := exists_start_eq_succ hpos hroom
      have hlowest : lowestDigit places rest < 16 := by
        rw [lowestDigit_eq hplaces.2]
        exact Nat.lt_of_lt_of_le (Nat.mod_lt _ (Nat.two_pow_pos places)) hdigits
      have hnext : capacity - (digitByte uppercase (lowestDigit places rest) :: tail).length =
          start := by
        rw [List.length_cons]
        omega
      rw [hstart] at hroom ⊢
      rw [hnext, UInt128.toNat_shr rest (by omega)] at ih
      rw [bitLoop, if_neg hrest, ← ih (div_lt_pow hroom), shiftBy_word_eq rest .right (by omega)]
      change (fetch (alphabet uppercase) (lowestDigit places rest) >>= _) = _
      rw [fetch_alphabet uppercase hlowest, ok_bind, store_holding hstart, ok_bind, ok_bind]
      rfl

theorem limbLoop_zero (uppercase : Bool) (start : Nat) (bytes : List UInt8) :
    limbLoop uppercase start bytes 0 = .ok ⟨bytes, start⟩ := by
  cases start <;> rfl

theorem limbLoop_eq (uppercase : Bool) (rest : Limb) (tail : List UInt8)
    (hroom : rest.toNat < 10 ^ (capacity - tail.length)) :
    limbLoop uppercase (capacity - tail.length) (DigitBuffer.holding tail).bytes rest =
      .ok (.holding (limbDigits rest tail)) := by
  fun_induction limbDigits rest tail with
  | case1 tail => exact limbLoop_zero _ _ _
  | case2 rest tail hrest ih =>
      obtain ⟨start, hstart⟩ := exists_start_eq_succ (Limb.toNat_ne_zero hrest) hroom
      have hlowest : (rest % 10).toNat < 10 := by
        rw [UInt64.toNat_mod]
        exact Nat.mod_lt _ (by decide)
      have hdigit : digitByte uppercase (rest % 10).toNat = digitByte false (rest % 10).toNat := by
        rw [digitByte, digitByte, if_pos hlowest, if_pos hlowest]
      have hnext : capacity - (digitByte false (rest % 10).toNat :: tail).length = start := by
        rw [List.length_cons]
        omega
      rw [hstart] at hroom ⊢
      rw [hnext, UInt64.toNat_div] at ih
      rw [limbLoop, if_neg hrest, limbRemainder_eq rest (by decide), ok_bind,
        fetch_alphabet uppercase (by omega), ok_bind, hdigit, store_holding hstart, ok_bind,
        limbQuotient_eq rest (by decide), ok_bind]
      exact ih (div_lt_pow hroom)

/-! ### Chunks -/

/-- The digits of a chunk in front of those that are there already. -/
theorem limbDigits_append (x : Limb) (tail : List UInt8) :
    limbDigits x tail = limbDigits x [] ++ tail := by
  rw [limbDigits_eq, limbDigits_eq, List.append_nil]

/-- A chunk that is filled up has nineteen digits. -/
theorem length_paddedChunk {x : Limb} (hx : x.toNat < chunkSize.toNat) (tail : List UInt8) :
    (paddedChunk x tail).length = chunkDigits + tail.length := by
  have hlength := length_numeral_chunk hx
  have hdigits : limbDigits x [] = numeral false 10 x.toNat := by
    rw [limbDigits_eq, List.append_nil]
  simp only [paddedChunk, hdigits, List.length_append, List.length_replicate]
  omega

/-- Moving the index to the start of a full chunk fills it up with the zeros of the buffer. -/
theorem holding_paddedChunk {x : Limb} (hx : x.toNat < chunkSize.toNat) {tail : List UInt8}
    (hroom : chunkDigits ≤ capacity - tail.length) :
    DigitBuffer.mk (DigitBuffer.holding (limbDigits x tail)).bytes
        (capacity - tail.length - chunkDigits) =
      .holding (paddedChunk x tail) := by
  have hlength := length_paddedChunk hx tail
  have hstart : capacity - tail.length - chunkDigits =
      capacity - (paddedChunk x tail).length := by omega
  have hzeros : capacity - (limbDigits x tail).length =
      capacity - (paddedChunk x tail).length + (chunkDigits - (limbDigits x []).length) := by
    have hdigits := congrArg List.length (limbDigits_append x tail)
    simp only [paddedChunk, List.length_append, List.length_replicate] at hlength hdigits ⊢
    omega
  rw [DigitBuffer.holding, DigitBuffer.holding, hzeros, hstart, List.replicate_add,
    limbDigits_append x tail]
  simp only [paddedChunk, List.append_assoc]

/-- A quotient that is not zero leaves room for its digits and for those of its chunk. -/
theorem room_for_chunk {rest quotient remainder start : Nat}
    (hvalue : rest = quotient * chunkSize.toNat + remainder) (hquotient : quotient ≠ 0)
    (hroom : rest < 10 ^ start) :
    chunkDigits ≤ start ∧ quotient < 10 ^ (start - chunkDigits) := by
  have hsize : chunkSize.toNat = 10 ^ chunkDigits := rfl
  rw [hsize] at hvalue
  have hchunk : 10 ^ chunkDigits < 10 ^ start :=
    calc 10 ^ chunkDigits
        ≤ quotient * 10 ^ chunkDigits := Nat.le_mul_of_pos_left _ (Nat.pos_of_ne_zero hquotient)
      _ ≤ rest := hvalue ▸ Nat.le_add_right _ _
      _ < 10 ^ start := hroom
  rw [Nat.pow_lt_pow_iff_right (by decide)] at hchunk
  have hle := Nat.le_of_lt hchunk
  refine ⟨hle, ?_⟩
  rw [hvalue, ← Nat.sub_add_cancel hle, Nat.pow_add] at hroom
  exact Nat.lt_of_mul_lt_mul_right (Nat.lt_of_le_of_lt (Nat.le_add_right _ _) hroom)

variable {ops : GuardedOps} (hops : ops.Sound)

include hops

theorem chunkLoop_eq (uppercase : Bool) {chunks : Nat} {rest : UInt128} (tail : List UInt8)
    (hrest : rest.toNat ≠ 0) (hchunks : rest.toNat < chunkSize.toNat ^ chunks)
    (hroom : rest.toNat < 10 ^ (capacity - tail.length)) :
    chunkLoop ops uppercase (.holding tail) rest =
      .ok (.holding (decimalDigits chunks rest tail)) := by
  induction chunks generalizing rest tail with
  | zero => exact absurd (Nat.lt_one_iff.mp hchunks) hrest
  | succ chunks ih =>
      have hchunk : UInt128.ofLimb chunkSize ≠ .zero := by decide
      obtain ⟨hvalue, hlt⟩ := UInt128.divides_divMod rest hchunk
      rw [UInt128.toNat_ofLimb] at hvalue hlt
      rw [chunkLoop, divMod_eq hops rest hchunk, ok_bind, decimalDigits]
      set result := rest.divMod (.ofLimb chunkSize)
      have hlow : result.remainder.low.toNat = result.remainder.toNat := by
        have hbound := hlt.trans (UInt64.toNat_lt chunkSize)
        unfold UInt128.toNat at hbound ⊢
        omega
      have hbelow : result.remainder.low.toNat < chunkSize.toNat := hlow ▸ hlt
      have hremainder : result.remainder.low.toNat < 10 ^ (capacity - tail.length) := by
        rw [hlow]
        exact Nat.lt_of_le_of_lt ((Nat.le_add_left _ _).trans_eq hvalue.symm) hroom
      have hlimb := limbLoop_eq uppercase result.remainder.low tail hremainder
      change (limbLoop uppercase (capacity - tail.length) _ _ >>= _) = _
      rw [hlimb, ok_bind]
      by_cases hzero : result.quotient.isZero = true
      · rw [if_pos hzero, if_pos hzero]
      · have hquotient := UInt128.toNat_ne_zero_of_not_isZero hzero
        obtain ⟨hplaces, hnext⟩ := room_for_chunk hvalue hquotient hroom
        have hfewer : result.quotient.toNat < chunkSize.toNat ^ chunks := by
          rw [Nat.pow_succ, hvalue] at hchunks
          exact Nat.lt_of_mul_lt_mul_right (Nat.lt_of_le_of_lt (Nat.le_add_right _ _) hchunks)
        rw [Nat.sub_sub, Nat.add_comm, ← length_paddedChunk hbelow] at hnext
        rw [if_neg hzero, if_neg hzero]
        change (if chunkDigits ≤ capacity - tail.length then
          chunkLoop ops uppercase ⟨_, capacity - tail.length - chunkDigits⟩ _ else _) = _
        rw [if_pos hplaces, holding_paddedChunk hbelow hplaces]
        exact ih _ hquotient hfewer hnext

omit hops in
theorem bitDigits_eq (uppercase : Bool) {places : Nat} (hplaces : 0 < places ∧ places < 64)
    (hdigits : 2 ^ places ≤ 16) (a : UInt128) :
    bitDigits uppercase places a = .ok (.holding (numeral uppercase (2 ^ places) a.toNat)) := by
  have hroom : a.toNat < (2 ^ places) ^ capacity := by
    rw [← Nat.pow_mul]
    refine Nat.lt_of_lt_of_le a.toNat_lt (Nat.pow_le_pow_right (by decide) ?_)
    exact Nat.le_mul_of_pos_left capacity hplaces.1
  rw [bitDigits, lowMask_eq hplaces.2, ok_bind, ← List.append_nil (numeral _ _ _),
    ← Text.bitDigits_eq hplaces]
  exact bitLoop_eq hplaces hdigits a [] hroom

theorem decimalDigits_eq (uppercase : Bool) {a : UInt128} (ha : a.toNat ≠ 0) :
    chunkLoop ops uppercase .empty a = .ok (.holding (numeral false 10 a.toNat)) := by
  have hroom : a.toNat < 10 ^ capacity := Nat.lt_trans a.toNat_lt (by decide)
  have hchunks : a.toNat < chunkSize.toNat ^ maxChunks := Nat.lt_trans a.toNat_lt (by decide)
  have hloop := chunkLoop_eq hops uppercase [] ha hchunks hroom
  rw [Text.decimalDigits_eq [] hchunks, List.append_nil] at hloop
  exact hloop

omit hops in
/-- The buffer after its last zero is what the digits of zero are. -/
theorem digits_zero {a : UInt128} (ha : a.isZero = true) (radix : Radix) (uppercase : Bool) :
    digits ops a radix uppercase = .ok [zeroDigit] := by
  have hbytes : DigitBuffer.empty.bytes = List.replicate capacity zeroDigit := List.append_nil _
  have hstart : DigitBuffer.empty.start = capacity := rfl
  have hlength : capacity - 1 ≤ (List.replicate capacity zeroDigit).length := by
    rw [List.length_replicate]
    exact Nat.sub_le _ _
  unfold digits
  rw [if_pos ha, hbytes, hstart, difference_eq (by decide), ok_bind, ok_bind,
    sliceFrom_eq hlength, List.drop_replicate]
  rfl

/-- The index of the digits never moves below zero, in any radix. -/
theorem digits_eq (a : UInt128) (radix : Radix) (uppercase : Bool) :
    digits ops a radix uppercase = .ok (Text.digits a radix uppercase) := by
  by_cases hzero : a.isZero = true
  · unfold Text.digits
    rw [digits_zero hzero, if_pos hzero]
  · have ha := UInt128.toNat_ne_zero_of_not_isZero hzero
    have hne : a ≠ .zero := fun h => ha (congrArg UInt128.toNat h)
    rw [Text.digits_eq radix hne]
    unfold digits
    rw [if_neg hzero]
    cases radix with
    | binary =>
        have hbits := bitDigits_eq uppercase (show 0 < 1 ∧ 1 < 64 by decide) (by decide) a
        simp only [hbits]
        rw [ok_bind, sliceFrom_holding]
        rfl
    | octal =>
        have hbits := bitDigits_eq uppercase (show 0 < 3 ∧ 3 < 64 by decide) (by decide) a
        simp only [hbits]
        rw [ok_bind, sliceFrom_holding]
        rfl
    | hexadecimal =>
        have hbits := bitDigits_eq uppercase (show 0 < 4 ∧ 4 < 64 by decide) (by decide) a
        simp only [hbits]
        rw [ok_bind, sliceFrom_holding]
        rfl
    | decimal =>
        simp only [decimalDigits_eq hops uppercase ha]
        rw [ok_bind, sliceFrom_holding]
        exact congrArg Except.ok (numeral_of_le_ten (by decide) (Nat.le_refl 10) a.toNat).symm

end TwoLimb.Guarded
