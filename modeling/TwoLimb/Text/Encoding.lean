/-
# Encodings of characters

The byte, 16-bit and 32-bit encodings of a sequence of characters. A character below
128 is one unit in each of them.
-/

namespace TwoLimb.Text

/-- The bytes that encode one character. -/
def utf8Char (c : Char) : List UInt8 :=
  let v := c.toNat
  if v < 0x80 then [UInt8.ofNat v]
  else if v < 0x800 then [UInt8.ofNat (0xc0 + v / 0x40), UInt8.ofNat (0x80 + v % 0x40)]
  else if v < 0x10000 then
    [UInt8.ofNat (0xe0 + v / 0x1000), UInt8.ofNat (0x80 + v / 0x40 % 0x40),
      UInt8.ofNat (0x80 + v % 0x40)]
  else
    [UInt8.ofNat (0xf0 + v / 0x40000), UInt8.ofNat (0x80 + v / 0x1000 % 0x40),
      UInt8.ofNat (0x80 + v / 0x40 % 0x40), UInt8.ofNat (0x80 + v % 0x40)]

/-- The 16-bit units that encode one character; beyond `0xffff` a pair of surrogates. -/
def utf16Char (c : Char) : List UInt16 :=
  let v := c.toNat
  if v < 0x10000 then [UInt16.ofNat v]
  else
    let rest := v - 0x10000
    [UInt16.ofNat (0xd800 + rest / 0x400), UInt16.ofNat (0xdc00 + rest % 0x400)]

/-- The bytes that encode a text. -/
def utf8 (text : List Char) : List UInt8 := text.flatMap utf8Char

/-- The 16-bit units that encode a text. -/
def utf16 (text : List Char) : List UInt16 := text.flatMap utf16Char

/-- The scalar values of a text. -/
def utf32 (text : List Char) : List UInt32 := text.map fun c => UInt32.ofNat c.toNat

end TwoLimb.Text
