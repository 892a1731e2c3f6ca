/-
# Code units

Numbers are written in ASCII, so reading and writing them needs little of a text
encoding: that ASCII characters are encoded as themselves. A code unit is the element
of such an encoding: a byte, a 16-bit unit, a 32-bit unit, or a character.
-/

namespace TwoLimb.Text

/-- A unit with a number below 128 encodes the byte with that number, and no other. -/
theorem narrow_eq_some_iff {C : Type} {number : C → Nat} {ofAscii : UInt8 → C}
    (hinjective : ∀ {one two : C}, number one = number two → one = two)
    (hnumber : ∀ {byte : UInt8}, byte < 0x80 → number (ofAscii byte) = byte.toNat)
    (unit : C) (byte : UInt8) :
    (if number unit < 0x80 then some (UInt8.ofNat (number unit)) else none) = some byte ↔
      byte < 0x80 ∧ unit = ofAscii byte := by
  constructor
  · intro hunit
    obtain ⟨hlt, hbyte⟩ : number unit < 0x80 ∧ UInt8.ofNat (number unit) = byte := by
      simpa using hunit
    have hvalue : byte.toNat = number unit := by
      rw [← hbyte, UInt8.toNat_ofNat', Nat.mod_eq_of_lt (by omega)]
    have hascii : byte < 0x80 := UInt8.lt_iff_toNat_lt.mpr (by
      rw [hvalue]
      exact hlt)
    exact ⟨hascii, hinjective (hvalue.symm.trans (hnumber hascii).symm)⟩
  · rintro ⟨hascii, rfl⟩
    have hlt : byte.toNat < 0x80 := UInt8.lt_iff_toNat_lt.mp hascii
    rw [hnumber hascii, if_pos hlt, UInt8.ofNat_toNat]

/-- The element of a text encoding that contains ASCII. -/
class CodeUnit (C : Type) where
  /-- The unit that encodes a byte below 128. -/
  ofAscii : UInt8 → C
  /-- The byte below 128 that a unit encodes, if it does. -/
  toAscii? : C → Option UInt8
  /-- The character that a unit stands for by itself; a unit that is only part of one
  gives the replacement character. -/
  toChar : C → Char
  /-- A unit encodes a byte below 128 exactly when it is the unit of that byte. -/
  toAscii?_eq_some_iff : ∀ (unit : C) (byte : UInt8),
    toAscii? unit = some byte ↔ byte < 0x80 ∧ unit = ofAscii byte

def replacement : Char := Char.ofNat 0xfffd

/-- The character with the given scalar value, or the replacement character. -/
def charOfScalar (value : Nat) : Char :=
  if value.isValidChar then Char.ofNat value else replacement

instance : CodeUnit UInt8 where
  ofAscii byte := byte
  toAscii? unit := if unit < 0x80 then some unit else none
  toChar unit := if unit < 0x80 then Char.ofNat unit.toNat else replacement
  toAscii?_eq_some_iff unit byte := by
    have hnarrow := narrow_eq_some_iff UInt8.toNat_inj.mp (fun _ => rfl) unit byte
    rw [UInt8.ofNat_toNat] at hnarrow
    exact hnarrow

instance : CodeUnit UInt16 where
  ofAscii byte := byte.toUInt16
  toAscii? unit := if unit < 0x80 then some unit.toUInt8 else none
  toChar unit := charOfScalar unit.toNat
  toAscii?_eq_some_iff := narrow_eq_some_iff UInt16.toNat_inj.mp fun _ => UInt8.toNat_toUInt16 _

instance : CodeUnit UInt32 where
  ofAscii byte := byte.toUInt32
  toAscii? unit := if unit < 0x80 then some unit.toUInt8 else none
  toChar unit := charOfScalar unit.toNat
  toAscii?_eq_some_iff := narrow_eq_some_iff UInt32.toNat_inj.mp fun _ => UInt8.toNat_toUInt32 _

instance : CodeUnit Char where
  ofAscii byte := Char.ofNat byte.toNat
  toAscii? unit := if unit.toNat < 0x80 then some (UInt8.ofNat unit.toNat) else none
  toChar unit := unit
  toAscii?_eq_some_iff := by
    refine narrow_eq_some_iff Char.toNat_inj.mp fun {byte} _ => ?_
    have hvalid : byte.toNat.isValidChar := Or.inl (Nat.lt_trans byte.toNat_lt (by decide))
    rw [Char.ofNat, dif_pos hvalid]
    rfl

/-- The unit of a byte below 128 encodes that byte. -/
theorem CodeUnit.toAscii?_ofAscii {C : Type} [CodeUnit C] {byte : UInt8}
    (hascii : byte < 0x80) : toAscii? (ofAscii byte : C) = some byte :=
  (toAscii?_eq_some_iff _ _).mpr ⟨hascii, rfl⟩

/-- The characters of a text, unit by unit. -/
def textOfUnits {C : Type} [CodeUnit C] (units : List C) : String :=
  String.ofList (units.map CodeUnit.toChar)

end TwoLimb.Text
