/-
# Numbers as bytes

Bytes with the least significant one first are the digits of a number to base 256. There is
one number to a list of bytes and one list of a given length to a number, so whatever is said
of bytes is said of the number and of the length. A limb is eight digits, a value is sixteen,
and big-endian order is the same list read from its end.
-/

import Mathlib.Algebra.BigOperators.Fin
import TwoLimb.Storage

namespace TwoLimb

/-! ### Digits to base 256 -/

theorem byteValue_cons (byte : UInt8) (rest : List UInt8) :
    byteValue (byte :: rest) = byte.toNat + 256 * byteValue rest := rfl

theorem byteValue_lt (bytes : List UInt8) : byteValue bytes < 256 ^ bytes.length := by
  induction bytes with
  | nil => exact Nat.one_pos
  | cons byte rest ih =>
      have hbyte := byte.toNat_lt
      rw [byteValue_cons, List.length_cons, Nat.pow_succ]
      omega

theorem byteValue_append (front back : List UInt8) :
    byteValue (front ++ back) = byteValue front + 256 ^ front.length * byteValue back := by
  induction front with
  | nil => simp [byteValue]
  | cons byte rest ih =>
      rw [List.cons_append, byteValue_cons, byteValue_cons, ih, List.length_cons, Nat.pow_succ,
        Nat.mul_add, Nat.mul_comm (256 ^ rest.length) 256, Nat.mul_assoc, Nat.add_assoc]

/-- As many bytes with the same value are the same bytes. -/
theorem byteValue_inj {bytes other : List UInt8} (hlength : bytes.length = other.length)
    (hvalue : byteValue bytes = byteValue other) : bytes = other := by
  induction bytes generalizing other with
  | nil => exact (List.eq_nil_of_length_eq_zero hlength.symm).symm
  | cons byte rest ih =>
      match other with
      | first :: others =>
          have hbyte := byte.toNat_lt
          have hfirst := first.toNat_lt
          rw [byteValue_cons, byteValue_cons] at hvalue
          have hhead : byte = first := UInt8.toNat_inj.mp (by omega)
          rw [hhead, ih (Nat.succ.inj hlength) (by omega)]

/-- The digits of a number, cut off after a given number of places. -/
theorem byteValue_digits (count n : Nat) :
    byteValue ((List.range count).map fun i => UInt8.ofNat (n / 256 ^ i)) = n % 256 ^ count := by
  induction count with
  | zero => rw [Nat.pow_zero, Nat.mod_one]; rfl
  | succ count ih =>
      rw [List.range_succ, List.map_append, byteValue_append, ih, List.length_map,
        List.length_range, List.map_singleton, byteValue_cons, UInt8.toNat_ofNat']
      exact Nat.mod_pow_succ.symm

/-- The value of bytes as a sum over their places. -/
theorem byteValue_eq_sum {n : Nat} (bytes : Vector UInt8 n) :
    byteValue bytes.toList = ∑ i : Fin n, bytes[i].toNat * 256 ^ i.val := by
  obtain ⟨⟨bytes⟩, rfl⟩ := bytes
  change byteValue bytes = ∑ i : Fin bytes.length, bytes[i].toNat * 256 ^ i.val
  induction bytes with
  | nil => rfl
  | cons byte rest ih =>
      have hplaces := Fin.sum_univ_succ fun i : Fin (rest.length + 1) =>
        (byte :: rest)[i].toNat * 256 ^ i.val
      refine Eq.trans ?_ hplaces.symm
      rw [byteValue_cons, ih, Finset.mul_sum]
      congr 1
      · exact (Nat.mul_one byte.toNat).symm
      · refine Finset.sum_congr rfl fun i _ => ?_
        rw [Fin.val_succ, Nat.pow_succ', Nat.mul_left_comm]
        rfl

/-! ### Bytes of a limb -/

namespace Limb

theorem byte_eq (x : Limb) {index : Nat} (hindex : index < 8) :
    x.byte index = UInt8.ofNat (x.toNat / 256 ^ index) := by
  have hpower : 2 ^ (8 * index) = 256 ^ index := by rw [Nat.pow_mul]
  apply UInt8.toNat_inj.mp
  rw [byte, UInt64.toNat_toUInt8, toNat_shr x (by omega), hpower, UInt8.toNat_ofNat']

theorem byteValue_bytes (x : Limb) : byteValue x.bytes = x.toNat := by
  have hdigits : x.bytes = (List.range 8).map fun i => UInt8.ofNat (x.toNat / 256 ^ i) :=
    List.map_congr_left fun i hi => x.byte_eq (List.mem_range.mp hi)
  rw [hdigits, byteValue_digits]
  exact Nat.mod_eq_of_lt x.toNat_lt

/-- Up to eight bytes are put together without loss. -/
theorem toNat_ofBytes {bytes : List UInt8} (hlength : bytes.length ≤ 8) :
    (ofBytes bytes).toNat = byteValue bytes := by
  induction bytes with
  | nil => rfl
  | cons byte rest ih =>
      have hrest : rest.length ≤ 7 := Nat.le_of_succ_le_succ hlength
      have hbyte := byte.toNat_lt
      have hroom : byteValue rest < 2 ^ (64 - 8) :=
        Nat.lt_of_lt_of_le (byteValue_lt rest)
          (Nat.pow_le_pow_right (show 256 > 0 by decide) hrest)
      rw [ofBytes, UInt64.toNat_or, toNat_shl _ (show 8 < 64 by decide), ih (by omega),
        UInt8.toNat_toUInt64, mul_two_pow_mod_two_pow _ (show 8 ≤ 64 by decide),
        Nat.mod_eq_of_lt hroom, Nat.or_comm, mul_two_pow_or hbyte, byteValue_cons]
      omega

theorem bytes_ofBytes {bytes : List UInt8} (hlength : bytes.length = 8) :
    (ofBytes bytes).bytes = bytes :=
  byteValue_inj (by rw [length_bytes, hlength])
    (by rw [byteValue_bytes, toNat_ofBytes (Nat.le_of_eq hlength)])

end Limb

/-! ### Bytes of a value -/

namespace ByteOrder

variable {α : Type}

@[simp]
theorem length_arrange (order : ByteOrder) (entries : List α) :
    (order.arrange entries).length = entries.length := by
  cases order with
  | little => rfl
  | big => exact List.length_reverse

/-- Arranging twice puts the entries back. -/
@[simp]
theorem arrange_arrange (order : ByteOrder) (entries : List α) :
    order.arrange (order.arrange entries) = entries := by
  cases order with
  | little => rfl
  | big => exact List.reverse_reverse entries

theorem arrange_inj {order : ByteOrder} {entries other : List α} :
    order.arrange entries = order.arrange other ↔ entries = other := by
  constructor
  · intro harranged
    rw [← order.arrange_arrange entries, harranged, arrange_arrange]
  · rintro rfl
    rfl

end ByteOrder

namespace UInt128

theorem toNat_ofLittleEndian (bytes : Vector UInt8 16) :
    (ofLittleEndian bytes).toNat = byteValue bytes.toList := by
  have hlow : (bytes.toList.take 8).length = 8 := by simp
  have hhigh : (bytes.toList.drop 8).length = 8 := by simp
  conv => rhs; rw [← List.take_append_drop 8 bytes.toList, byteValue_append, hlow]
  rw [ofLittleEndian, toNat, Limb.toNat_ofBytes (Nat.le_of_eq hlow),
    Limb.toNat_ofBytes (Nat.le_of_eq hhigh), Nat.add_comm, Nat.mul_comm]

theorem byteValue_toLittleEndian (a : UInt128) :
    byteValue a.toLittleEndian.toList = a.toNat := by
  change byteValue (a.low.bytes ++ a.high.bytes) = a.toNat
  rw [byteValue_append, Limb.byteValue_bytes, Limb.byteValue_bytes, Limb.length_bytes, toNat,
    Nat.add_comm, Nat.mul_comm]

/-- The value of bytes is the number that they are the digits of, in either order. -/
theorem toNat_ofBytes (order : ByteOrder) (bytes : Vector UInt8 16) :
    (ofBytes order bytes).toNat = byteValue (order.arrange bytes.toList) := by
  cases order with
  | little => exact toNat_ofLittleEndian bytes
  | big => rw [ofBytes, ofBigEndian, toNat_ofLittleEndian, Vector.toList_reverse]; rfl

theorem byteValue_toBytes (a : UInt128) (order : ByteOrder) :
    byteValue (order.arrange (a.toBytes order).toList) = a.toNat := by
  cases order with
  | little => exact a.byteValue_toLittleEndian
  | big =>
      rw [toBytes, toBigEndian, Vector.toList_reverse, ByteOrder.arrange, List.reverse_reverse]
      exact a.byteValue_toLittleEndian

theorem ofBytes_toBytes (a : UInt128) (order : ByteOrder) :
    ofBytes order (a.toBytes order) = a :=
  ext_toNat ((toNat_ofBytes order _).trans (a.byteValue_toBytes order))

theorem toBytes_ofBytes (order : ByteOrder) (bytes : Vector UInt8 16) :
    (ofBytes order bytes).toBytes order = bytes := by
  apply Vector.toList_inj.mp
  apply order.arrange_inj.mp
  apply byteValue_inj (by simp)
  rw [byteValue_toBytes, toNat_ofBytes]

end UInt128

end TwoLimb
