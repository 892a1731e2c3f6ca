/-
# Values do not show how they are stored

A cell is one wide word or two limbs, on a target of either byte order. Two limbs are put
together and cut apart by shifts. The wide word is never shifted: its limbs are written into
memory in the order of the target and read back as one word, and the other way round.

What both ways have in common is that the sixteen bytes of a cell are the digits of its value.
This makes the reinterpretation of bytes the same function as the shifts. All accessors speak
of the value, so cells of different storages with the same value cannot be told apart.
-/

import TwoLimb.Proofs.Guarded.Bits
import TwoLimb.Proofs.UInt128.Bytes

namespace TwoLimb

/-! ### Bytes in memory -/

namespace LimbPair

@[simp]
theorem length_image (order : ByteOrder) (pair : LimbPair) : (pair.image order).length = 16 := by
  simp [image]

/-- The bytes of a pair are the digits of its value, read in the order of the target. -/
theorem byteValue_image (order : ByteOrder) (pair : LimbPair) :
    byteValue (order.arrange (pair.image order)) = (pair.value order).toNat := by
  cases order with
  | little => exact UInt128.byteValue_toLittleEndian ⟨pair.second, pair.first⟩
  | big =>
      have himage : ByteOrder.big.arrange (pair.image .big) =
          pair.second.bytes ++ pair.first.bytes := by
        simp [image, ByteOrder.arrange]
      rw [himage]
      exact UInt128.byteValue_toLittleEndian ⟨pair.first, pair.second⟩

end LimbPair

namespace WideCell

@[simp]
theorem length_image (order : ByteOrder) (cell : WideCell) : (cell.image order).length = 16 := by
  simp [image]

theorem byteValue_image (order : ByteOrder) (cell : WideCell) :
    byteValue (order.arrange (cell.image order)) = cell.word.toNat := by
  rw [image, ByteOrder.arrange_arrange, byteValue_digits]
  exact Nat.mod_eq_of_lt cell.word.isLt

/-- Two limbs in memory, read as one word, are the word that shifts would compose. -/
theorem word_ofPair (order : ByteOrder) (pair : LimbPair) :
    (ofPair order pair).word = (pair.value order).toWide := by
  apply BitVec.eq_of_toNat_eq
  rw [ofPair, ofImage, LimbPair.byteValue_image, BitVec.toNat_ofNat,
    Nat.mod_eq_of_lt (UInt128.toNat_lt _), UInt128.toNat_toWide]

/-- A word that is read as two limbs stays as it is in memory. -/
theorem image_toPair (order : ByteOrder) (cell : WideCell) :
    (cell.toPair order).image order = cell.image order := by
  have hfirst : (order.arrange ((cell.image order).take 8)).length = 8 := by simp
  have hsecond : (order.arrange ((cell.image order).drop 8)).length = 8 := by simp
  rw [LimbPair.image, toPair, Limb.bytes_ofBytes hfirst, Limb.bytes_ofBytes hsecond,
    ByteOrder.arrange_arrange, ByteOrder.arrange_arrange, List.take_append_drop]

/-- A word in memory, read as two limbs, is cut where shifts would cut it. -/
theorem value_toPair (order : ByteOrder) (cell : WideCell) :
    (cell.toPair order).value order = .ofWide cell.word := by
  apply UInt128.ext_toNat
  rw [← LimbPair.byteValue_image, image_toPair, byteValue_image, UInt128.toNat_ofWide]

end WideCell

namespace Storage

variable {α β : Type}

/-! ### What the two storages have in common -/

/-- The operations of a storage work on the value of a cell, and the bytes of the cell are those
of its value. -/
structure IsStorageOfValues (s : Storage α) : Prop where
  view_keep : ∀ value, s.view (s.keep value) = value
  keep_view : ∀ cell, s.keep (s.view cell) = cell
  toWide_eq : ∀ cell, s.toWide cell = (s.view cell).toWide
  ofWide_eq : ∀ word, s.ofWide word = s.keep (.ofWide word)
  image_eq : ∀ cell, s.image cell = ((s.view cell).toBytes s.order).toList

theorem isStorageOfValues_limbPair (order : ByteOrder) :
    (LimbPair.storage order).IsStorageOfValues where
  view_keep value := by
    cases order <;> rfl
  keep_view pair := by
    cases order <;> rfl
  toWide_eq _ := rfl
  ofWide_eq _ := rfl
  image_eq pair := by
    apply order.arrange_inj.mp
    apply byteValue_inj
    · simp [LimbPair.storage]
    · exact (pair.byteValue_image order).trans (UInt128.byteValue_toBytes _ order).symm

theorem view_wideCell (order : ByteOrder) (cell : WideCell) :
    (WideCell.storage order).view cell = .ofWide cell.word :=
  cell.value_toPair order

theorem keep_wideCell (order : ByteOrder) (value : UInt128) :
    (WideCell.storage order).keep value = ⟨value.toWide⟩ := by
  have hparts : (LimbPair.ofParts order value.high value.low).value order = value :=
    (isStorageOfValues_limbPair order).view_keep value
  have hword := WideCell.word_ofPair order (.ofParts order value.high value.low)
  rw [hparts] at hword
  exact congrArg WideCell.mk hword

theorem isStorageOfValues_wideCell (order : ByteOrder) :
    (WideCell.storage order).IsStorageOfValues where
  view_keep value := by
    rw [keep_wideCell, view_wideCell, UInt128.ofWide_toWide]
  keep_view cell := by
    rw [view_wideCell, keep_wideCell, UInt128.toWide_ofWide]
  toWide_eq cell := by
    rw [view_wideCell, UInt128.toWide_ofWide]
    rfl
  ofWide_eq word := by
    rw [keep_wideCell, UInt128.toWide_ofWide]
    rfl
  image_eq cell := by
    apply order.arrange_inj.mp
    apply byteValue_inj
    · simp [WideCell.storage]
    · refine (cell.byteValue_image order).trans ?_
      rw [view_wideCell]
      exact (UInt128.toNat_ofWide _).symm.trans (UInt128.byteValue_toBytes _ order).symm

/-! ### What is shown of a value -/

/-- What a storage shows of its cells are the numbers that they stand for. Parts are digits to
base `2^64` and bytes are digits to base 256, in either order, and what is taken apart is put
together again. The loops that copy and exchange bytes index by index stay within their arrays
and come to the same bytes. In the order of the target these are the bytes in memory. -/
structure ShowsValues (s : Storage α) : Prop where
  value_ofParts : ∀ high low : Limb,
    (s.toWide (s.ofParts high low)).toNat = high.toNat * 2 ^ 64 + low.toNat
  high_ofParts : ∀ high low : Limb, s.high (s.ofParts high low) = high
  low_ofParts : ∀ high low : Limb, s.low (s.ofParts high low) = low
  toLimbs_ofParts : ∀ high low : Limb, s.toLimbs (s.ofParts high low) = (low, high)
  ofParts_parts : ∀ cell, s.ofParts (s.high cell) (s.low cell) = cell
  ofLimbs_toLimbs : Function.LeftInverse s.ofLimbs s.toLimbs
  toLimbs_ofLimbs : Function.RightInverse s.ofLimbs s.toLimbs
  ofWide_toWide : Function.LeftInverse s.ofWide s.toWide
  toWide_ofWide : Function.RightInverse s.ofWide s.toWide
  value_ofBytes_little : ∀ bytes : Vector UInt8 16,
    (s.toWide (s.ofBytes .little bytes)).toNat = ∑ i : Fin 16, bytes[i].toNat * 256 ^ i.val
  value_ofBytes_big : ∀ bytes : Vector UInt8 16,
    (s.toWide (s.ofBytes .big bytes)).toNat =
      ∑ i : Fin 16, bytes.reverse[i].toNat * 256 ^ i.val
  toBytes_big : ∀ cell, s.toBytes cell .big = (s.toBytes cell .little).reverse
  ofBytes_toBytes : ∀ order cell, s.ofBytes order (s.toBytes cell order) = cell
  toBytes_ofBytes : ∀ order bytes, s.toBytes (s.ofBytes order bytes) order = bytes
  ofNativeBytes_toNativeBytes : Function.LeftInverse s.ofNativeBytes s.toNativeBytes
  toNativeBytes_ofNativeBytes : Function.RightInverse s.ofNativeBytes s.toNativeBytes
  image_eq : ∀ cell, s.image cell = (s.toNativeBytes cell).toList
  ofBytes_loop : ∀ order bytes,
    s.keep <$> Guarded.ofBytes order bytes = .ok (s.ofBytes order bytes)
  toBytes_loop : ∀ cell order,
    Guarded.toBytes (s.view cell) order = .ok (s.toBytes cell order).toList

/-- Cells of two storages that stand for the same number. -/
def SameValue (s : Storage α) (t : Storage β) (a : α) (b : β) : Prop :=
  s.toWide a = t.toWide b

/-- Two storages show the same. Every accessor gives one answer for cells with the same value,
and every constructor gives cells with the same value. On targets of one byte order this holds
for the bytes in the order of the target and for the bytes in memory. -/
structure ShowsSame (s : Storage α) (t : Storage β) : Prop where
  high : ∀ a b, s.SameValue t a b → s.high a = t.high b
  low : ∀ a b, s.SameValue t a b → s.low a = t.low b
  toLimbs : ∀ a b, s.SameValue t a b → s.toLimbs a = t.toLimbs b
  toBytes : ∀ a b, s.SameValue t a b → ∀ order, s.toBytes a order = t.toBytes b order
  toNativeBytes : s.order = t.order → ∀ a b, s.SameValue t a b →
    s.toNativeBytes a = t.toNativeBytes b
  image : s.order = t.order → ∀ a b, s.SameValue t a b → s.image a = t.image b
  ofParts : ∀ high low, s.SameValue t (s.ofParts high low) (t.ofParts high low)
  ofLimbs : ∀ limbs, s.SameValue t (s.ofLimbs limbs) (t.ofLimbs limbs)
  ofWide : ∀ word, s.SameValue t (s.ofWide word) (t.ofWide word)
  ofBytes : ∀ order bytes, s.SameValue t (s.ofBytes order bytes) (t.ofBytes order bytes)
  ofNativeBytes : s.order = t.order → ∀ bytes,
    s.SameValue t (s.ofNativeBytes bytes) (t.ofNativeBytes bytes)

section

variable {s : Storage α} {t : Storage β}

theorem IsStorageOfValues.toWide_keep (hs : s.IsStorageOfValues) (value : UInt128) :
    s.toWide (s.keep value) = value.toWide := by
  rw [hs.toWide_eq, hs.view_keep]

theorem IsStorageOfValues.showsValues (hs : s.IsStorageOfValues) : s.ShowsValues where
  value_ofParts high low := by
    have hword := hs.toWide_keep ⟨high, low⟩
    exact (congrArg BitVec.toNat hword).trans (UInt128.toNat_toWide _)
  high_ofParts high low := congrArg UInt128.high (hs.view_keep ⟨high, low⟩)
  low_ofParts high low := congrArg UInt128.low (hs.view_keep ⟨high, low⟩)
  toLimbs_ofParts high low := congrArg UInt128.limbs (hs.view_keep ⟨high, low⟩)
  ofParts_parts := hs.keep_view
  ofLimbs_toLimbs := hs.keep_view
  toLimbs_ofLimbs limbs := congrArg UInt128.limbs (hs.view_keep (.ofLimbs limbs))
  ofWide_toWide cell := by
    rw [hs.ofWide_eq, hs.toWide_eq, UInt128.ofWide_toWide, hs.keep_view]
  toWide_ofWide word := by
    rw [hs.ofWide_eq, hs.toWide_keep, UInt128.toWide_ofWide]
  value_ofBytes_little bytes := by
    rw [ofBytes, hs.toWide_keep, UInt128.toNat_toWide, UInt128.toNat_ofBytes]
    exact byteValue_eq_sum bytes
  value_ofBytes_big bytes := by
    rw [ofBytes, hs.toWide_keep, UInt128.toNat_toWide, UInt128.toNat_ofBytes,
      ← byteValue_eq_sum, Vector.toList_reverse]
    rfl
  toBytes_big _ := rfl
  ofBytes_toBytes order cell := by
    rw [ofBytes, toBytes, UInt128.ofBytes_toBytes, hs.keep_view]
  toBytes_ofBytes order bytes := by
    rw [ofBytes, toBytes, hs.view_keep, UInt128.toBytes_ofBytes]
  ofNativeBytes_toNativeBytes cell := by
    rw [ofNativeBytes, toNativeBytes, ofBytes, toBytes, UInt128.ofBytes_toBytes, hs.keep_view]
  toNativeBytes_ofNativeBytes bytes := by
    rw [ofNativeBytes, toNativeBytes, ofBytes, toBytes, hs.view_keep, UInt128.toBytes_ofBytes]
  image_eq := hs.image_eq
  ofBytes_loop order bytes := by
    rw [Guarded.ofBytes_eq]
    rfl
  toBytes_loop cell order := Guarded.toBytes_eq _ order

/-- Cells with the same value have the same limbs. -/
theorem SameValue.view_eq (hs : s.IsStorageOfValues) (ht : t.IsStorageOfValues) {a : α} {b : β}
    (hsame : s.SameValue t a b) : s.view a = t.view b := by
  rw [SameValue, hs.toWide_eq, ht.toWide_eq] at hsame
  rw [← UInt128.ofWide_toWide (s.view a), hsame, UInt128.ofWide_toWide]

theorem IsStorageOfValues.sameValue_keep (hs : s.IsStorageOfValues) (ht : t.IsStorageOfValues)
    (value : UInt128) : s.SameValue t (s.keep value) (t.keep value) :=
  (hs.toWide_keep value).trans (ht.toWide_keep value).symm

/-- Storages of values cannot be told apart by what they show. -/
theorem IsStorageOfValues.showsSame (hs : s.IsStorageOfValues) (ht : t.IsStorageOfValues) :
    s.ShowsSame t where
  high _ _ hsame := congrArg UInt128.high (hsame.view_eq hs ht)
  low _ _ hsame := congrArg UInt128.low (hsame.view_eq hs ht)
  toLimbs _ _ hsame := congrArg UInt128.limbs (hsame.view_eq hs ht)
  toBytes _ _ hsame order := congrArg (·.toBytes order) (hsame.view_eq hs ht)
  toNativeBytes horder _ _ hsame := by
    rw [Storage.toNativeBytes, Storage.toNativeBytes, Storage.toBytes, Storage.toBytes, horder,
      hsame.view_eq hs ht]
  image horder _ _ hsame := by
    rw [hs.image_eq, ht.image_eq, horder, hsame.view_eq hs ht]
  ofParts high low := hs.sameValue_keep ht ⟨high, low⟩
  ofLimbs limbs := hs.sameValue_keep ht (.ofLimbs limbs)
  ofWide word := by
    rw [hs.ofWide_eq, ht.ofWide_eq]
    exact hs.sameValue_keep ht (.ofWide word)
  ofBytes order bytes := hs.sameValue_keep ht (.ofBytes order bytes)
  ofNativeBytes horder bytes := by
    rw [Storage.ofNativeBytes, Storage.ofNativeBytes, horder]
    exact hs.sameValue_keep ht (.ofBytes t.order bytes)

end

/-- How a value is stored never shows. Two limbs and one wide word, on targets of either byte
order, show the numbers that their cells stand for, and they show the same. -/
theorem representation_never_shows (order other : ByteOrder) :
    (LimbPair.storage order).ShowsValues ∧ (WideCell.storage order).ShowsValues ∧
      (LimbPair.storage order).ShowsSame (WideCell.storage other) :=
  have hpair := isStorageOfValues_limbPair order
  ⟨hpair.showsValues, (isStorageOfValues_wideCell order).showsValues,
    hpair.showsSame (isStorageOfValues_wideCell other)⟩

end Storage

end TwoLimb
