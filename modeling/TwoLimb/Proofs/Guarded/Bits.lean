/-
# Guarded bit queries and bytes

The counts of a limb are at most 64, so the counts of a pair are at most 128: their sums
stay far below the end of a 32-bit word, and taking them from 128 never goes below zero.
A bit is looked up at its place within one limb, and the loops over bytes index the eight
bytes of each limb and the sixteen of the pair.
-/

import TwoLimb.Proofs.Guarded.Basic
import TwoLimb.UInt128.Bits
import TwoLimb.UInt128.Bytes
import TwoLimb.UInt128.Hash

namespace TwoLimb

namespace Limb

theorem leadingZeros_le (x : Limb) : x.leadingZeros ≤ 64 := by
  unfold leadingZeros bits
  split <;> omega

theorem evenHalvings_le (room n : Nat) : evenHalvings room n ≤ room := by
  induction room generalizing n with
  | zero => exact Nat.le_refl 0
  | succ room ih =>
      have hrest := ih (n / 2)
      unfold evenHalvings
      split <;> omega

theorem trailingZeros_le (x : Limb) : x.trailingZeros ≤ 64 := evenHalvings_le bits x.toNat

theorem onesCount_le (x : Limb) : x.onesCount ≤ 64 := by
  have hcount := List.countP_le_length (p := fun i => x.toNat.testBit i) (l := List.range bits)
  rw [List.length_range] at hcount
  exact hcount

end Limb

namespace UInt128

theorem leadingZeros_le (a : UInt128) : a.leadingZeros ≤ 128 := by
  have hhigh := a.high.leadingZeros_le
  have hlow := a.low.leadingZeros_le
  unfold leadingZeros Limb.bits
  split <;> omega

theorem onesCount_le (a : UInt128) : a.onesCount ≤ 128 :=
  Nat.add_le_add a.high.onesCount_le a.low.onesCount_le

end UInt128

namespace Guarded

/-! ### Counts -/

def leadingZeros (a : UInt128) : Guarded Nat :=
  if a.high ≠ 0 then .ok a.high.leadingZeros else sum 32 Limb.bits a.low.leadingZeros

@[simp]
theorem leadingZeros_eq (a : UInt128) : leadingZeros a = .ok a.leadingZeros := by
  have hlow := a.low.leadingZeros_le
  rw [leadingZeros, UInt128.leadingZeros, sum_eq (by simp only [Limb.bits]; omega)]
  split <;> rfl

def trailingZeros (a : UInt128) : Guarded Nat :=
  if a.low ≠ 0 then .ok a.low.trailingZeros else sum 32 Limb.bits a.high.trailingZeros

@[simp]
theorem trailingZeros_eq (a : UInt128) : trailingZeros a = .ok a.trailingZeros := by
  have hhigh := a.high.trailingZeros_le
  rw [trailingZeros, UInt128.trailingZeros, sum_eq (by simp only [Limb.bits]; omega)]
  split <;> rfl

def onesCount (a : UInt128) : Guarded Nat := sum 32 a.high.onesCount a.low.onesCount

@[simp]
theorem onesCount_eq (a : UInt128) : onesCount a = .ok a.onesCount := by
  have hhigh := a.high.onesCount_le
  have hlow := a.low.onesCount_le
  exact sum_eq (by omega)

def zerosCount (a : UInt128) : Guarded Nat := do
  let ones ← onesCount a
  difference UInt128.bits ones

@[simp]
theorem zerosCount_eq (a : UInt128) : zerosCount a = .ok a.zerosCount := by
  rw [zerosCount, onesCount_eq, ok_bind]
  exact difference_eq a.onesCount_le

def bitWidth (a : UInt128) : Guarded Nat := do
  let zeros ← leadingZeros a
  difference UInt128.bits zeros

@[simp]
theorem bitWidth_eq (a : UInt128) : bitWidth a = .ok a.bitWidth := by
  rw [bitWidth, leadingZeros_eq, ok_bind]
  exact difference_eq a.leadingZeros_le

def isPowerOfTwo (a : UInt128) : Guarded Bool := do
  let ones ← onesCount a
  .ok (ones == 1)

@[simp]
theorem isPowerOfTwo_eq (a : UInt128) : isPowerOfTwo a = .ok a.isPowerOfTwo := by
  rw [isPowerOfTwo, onesCount_eq, ok_bind]
  rfl

/-! ### Single bits and digests -/

/-- A bit at an index. The assertion about the index is the one fault that callers are
told of; the limb that has the bit is shifted by the place within it. -/
def bit (a : UInt128) (index : Nat) : Guarded Bool := do
  require (index < UInt128.bits) (.fault .bitIndex)
  let place := index % UInt128.bits
  if place ≥ Limb.bits then
    let above ← difference place Limb.bits
    let shifted ← limbShr a.high above
    .ok (shifted &&& 1 != 0)
  else
    let shifted ← limbShr a.low place
    .ok (shifted &&& 1 != 0)

theorem bit_eq (a : UInt128) (index : Nat) : bit a index = documented (a.bit? index) := by
  unfold bit UInt128.bit? UInt128.testBit
  by_cases hindex : index < UInt128.bits
  · have hplace : index % UInt128.bits < 128 := Nat.mod_lt _ (by decide)
    rw [if_pos hindex, require_eq hindex, ok_bind]
    simp only
    split
    · rename_i habove
      rw [difference_eq habove, ok_bind, limbShr_eq _ (sub_bits_lt hplace), ok_bind]
      rfl
    · rename_i hbelow
      rw [limbShr_eq _ (Nat.lt_of_not_le hbelow), ok_bind]
      rfl
  · rw [if_neg hindex, require, provided, if_neg hindex]
    rfl

/-- A limb mixed into a seed, with the two shifts of the seed. -/
def mix (seed value : Limb) : Guarded Limb := do
  let raised ← limbShl seed 6
  let lowered ← limbShr seed 2
  .ok (seed ^^^ (value + Limb.goldenRatio + raised + lowered))

theorem mix_eq (seed value : Limb) : mix seed value = .ok (Limb.mix seed value) := by
  rw [mix, limbShl_eq seed (by decide), ok_bind, limbShr_eq seed (by decide), ok_bind]
  rfl

def digest (a : UInt128) : Guarded Limb := do
  let seed ← mix 0 a.high
  mix seed a.low

@[simp]
theorem digest_eq (a : UInt128) : digest a = .ok a.digest := by
  rw [digest, mix_eq, ok_bind, mix_eq]
  rfl

/-! ### Bytes -/

theorem fetch_getD {bytes : List UInt8} {index : Nat} (hindex : index < bytes.length) :
    fetch bytes index = .ok (bytes.getD index 0) := by
  apply fetch_eq
  rw [List.getD_eq_getElem?_getD, List.getElem?_eq_getElem hindex, Option.getD_some]

/-- The bytes of two limbs side by side, copied index by index. -/
def joinBytes (low high : List UInt8) : Guarded (List UInt8) :=
  countUp 64
    (fun i bytes => do
      let lower ← fetch low i
      let bytes ← store bytes i lower
      let upper ← fetch high i
      let place ← sum 64 i 8
      store bytes place upper)
    8 0 (List.replicate 16 0)

theorem joinBytes_eq {low high : List UInt8} (hlow : low.length = 8) (hhigh : high.length = 8) :
    joinBytes low high = .ok (low ++ high) := by
  rw [joinBytes, countUp_eq (fun bytes => bytes.length = 16)
    (fun i bytes => (bytes.set i (low.getD i 0)).set (i + 8) (high.getD i 0)) (by decide)]
  · match low, high, hlow, hhigh with
    | [_, _, _, _, _, _, _, _], [_, _, _, _, _, _, _, _], _, _ => simp [loop]
  · intro i bytes hi hbytes
    rw [fetch_getD (by omega), ok_bind, store_eq (by omega), ok_bind, fetch_getD (by omega),
      ok_bind, sum_eq (by omega), ok_bind, store_eq (by rw [List.length_set]; omega)]
    exact ⟨rfl, by rw [List.length_set, List.length_set, hbytes]⟩
  · exact List.length_replicate

/-- The lower and the upper eight of sixteen bytes, copied index by index. -/
def splitBytes (bytes : List UInt8) : Guarded (List UInt8 × List UInt8) :=
  countUp 64
    (fun i halves => do
      let lower ← fetch bytes i
      let low ← store halves.1 i lower
      let place ← sum 64 i 8
      let upper ← fetch bytes place
      let high ← store halves.2 i upper
      .ok (low, high))
    8 0 (List.replicate 8 0, List.replicate 8 0)

theorem splitBytes_eq {bytes : List UInt8} (hlength : bytes.length = 16) :
    splitBytes bytes = .ok (bytes.take 8, bytes.drop 8) := by
  rw [splitBytes, countUp_eq (fun halves => halves.1.length = 8 ∧ halves.2.length = 8)
    (fun i halves => (halves.1.set i (bytes.getD i 0), halves.2.set i (bytes.getD (i + 8) 0)))
    (by decide)]
  · match bytes, hlength with
    | [_, _, _, _, _, _, _, _, _, _, _, _, _, _, _, _], _ => simp [loop]
  · intro i halves hi hhalves
    obtain ⟨hlow, hhigh⟩ := hhalves
    rw [fetch_getD (by omega), ok_bind, store_eq (by omega), ok_bind, sum_eq (by omega), ok_bind,
      fetch_getD (by omega), ok_bind, store_eq (by omega), ok_bind]
    exact ⟨rfl, List.length_set.trans hlow, List.length_set.trans hhigh⟩
  · exact ⟨List.length_replicate, List.length_replicate⟩

/-- Sixteen bytes in the opposite order, exchanged in pairs. -/
def reverseBytes (bytes : List UInt8) : Guarded (List UInt8) :=
  countUp 64
    (fun i bytes => do
      let first ← fetch bytes i
      let opposite ← difference 15 i
      let last ← fetch bytes opposite
      let bytes ← store bytes i last
      store bytes opposite first)
    8 0 bytes

theorem reverseBytes_eq {bytes : List UInt8} (hlength : bytes.length = 16) :
    reverseBytes bytes = .ok bytes.reverse := by
  rw [reverseBytes, countUp_eq (fun bytes => bytes.length = 16)
    (fun i bytes => (bytes.set i (bytes.getD (15 - i) 0)).set (15 - i) (bytes.getD i 0))
    (by decide)]
  · match bytes, hlength with
    | [_, _, _, _, _, _, _, _, _, _, _, _, _, _, _, _], _ => simp [loop]
  · intro i bytes hi hbytes
    rw [fetch_getD (by omega), ok_bind, difference_eq (by omega), ok_bind,
      fetch_getD (by omega), ok_bind, store_eq (by omega), ok_bind,
      store_eq (by rw [List.length_set]; omega)]
    exact ⟨rfl, by rw [List.length_set, List.length_set, hbytes]⟩
  · exact hlength

/-- The bytes of a value in the given order. -/
def toBytes (a : UInt128) (order : ByteOrder) : Guarded (List UInt8) := do
  let bytes ← joinBytes a.low.bytes a.high.bytes
  match order with
  | .little => .ok bytes
  | .big => reverseBytes bytes

theorem toBytes_eq (a : UInt128) (order : ByteOrder) :
    toBytes a order = .ok (a.toBytes order).toList := by
  have hlow := a.low.length_bytes
  have hhigh := a.high.length_bytes
  rw [toBytes, joinBytes_eq hlow hhigh, ok_bind]
  cases order with
  | little => rfl
  | big =>
      rw [reverseBytes_eq (by rw [List.length_append, hlow, hhigh]), UInt128.toBytes,
        UInt128.toBigEndian, Vector.toList_reverse]
      rfl

/-- The value whose bytes are given in the given order. -/
def ofBytes (order : ByteOrder) (bytes : Vector UInt8 16) : Guarded UInt128 := do
  let ordered ← match order with
    | .little => .ok bytes.toList
    | .big => reverseBytes bytes.toList
  let (low, high) ← splitBytes ordered
  .ok ⟨.ofBytes high, .ofBytes low⟩

theorem ofBytes_eq (order : ByteOrder) (bytes : Vector UInt8 16) :
    ofBytes order bytes = .ok (UInt128.ofBytes order bytes) := by
  have hlength : bytes.toList.length = 16 := Vector.length_toList
  cases order with
  | little =>
      simp only [ofBytes, ok_bind, splitBytes_eq hlength]
      rfl
  | big =>
      have hreversed : bytes.toList.reverse.length = 16 := List.length_reverse.trans hlength
      simp only [ofBytes, ok_bind, reverseBytes_eq hlength, splitBytes_eq hreversed]
      rw [UInt128.ofBytes, UInt128.ofBigEndian, UInt128.ofLittleEndian, Vector.toList_reverse]

end Guarded

end TwoLimb
