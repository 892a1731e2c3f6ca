/-
# Text in one encoding and in another

Numbers are read and written in any encoding that contains ASCII. To pass from one
encoding to another, a unit that is ASCII becomes the unit of the same byte, and any
other unit becomes one or more units that are not ASCII either. `Reencodes` states
this, and it is all a reader can tell two encodings apart by: margins, signs, marks and
digits are ASCII, and the first unit that is not ASCII stops the reader, however many
units take its place. So the readers answer alike on a text in every encoding.

What fields and errors hold is said unit by unit: a field is the image of one ASCII
string, and the text of an error shows every unit of what was read.
-/

import TwoLimb.Proofs.Text.RoundTrip
import TwoLimb.Proofs.Text.SignedGrammar
import TwoLimb.Text.Encoding

namespace TwoLimb.Text

variable {C D : Type} [CodeUnit C] [CodeUnit D]

/-- A way to write every unit of one encoding in another: ASCII is kept, and what is not
ASCII becomes units none of which is. -/
structure Reencodes (encode : C → List D) : Prop where
  ascii : ∀ {unit : C} {byte : UInt8}, CodeUnit.toAscii? unit = some byte →
    encode unit = [CodeUnit.ofAscii byte]
  nonempty : ∀ {unit : C}, CodeUnit.toAscii? unit = none → encode unit ≠ []
  other : ∀ {unit : C}, CodeUnit.toAscii? unit = none →
    ∀ part ∈ encode unit, CodeUnit.toAscii? part = none

theorem toAscii?_of_some {unit : C} {byte : UInt8} (hascii : CodeUnit.toAscii? unit = some byte) :
    CodeUnit.toAscii? (CodeUnit.ofAscii byte : D) = some byte :=
  CodeUnit.toAscii?_ofAscii ((CodeUnit.toAscii?_eq_some_iff unit byte).mp hascii).1

/-- Only the ASCII byte of a unit decides whether it is margin. -/
theorem isMargin_congr {unit : C} {part : D}
    (hascii : CodeUnit.toAscii? part = CodeUnit.toAscii? unit) : isMargin part = isMargin unit := by
  rw [isMargin, isMargin, hascii]

namespace Reencodes

variable {encode : C → List D}

/-- The first unit that is written for a unit tells whether that one is ASCII. -/
theorem exists_first (hencode : Reencodes encode) (unit : C) :
    ∃ first rest, encode unit = first :: rest ∧
      CodeUnit.toAscii? first = CodeUnit.toAscii? unit := by
  cases hascii : CodeUnit.toAscii? unit with
  | some byte => exact ⟨_, [], hencode.ascii hascii, toAscii?_of_some hascii⟩
  | none =>
      obtain ⟨first, rest, hunits⟩ := List.exists_cons_of_ne_nil (hencode.nonempty hascii)
      refine ⟨first, rest, hunits, hencode.other hascii first ?_⟩
      rw [hunits]
      exact List.mem_cons_self

theorem encode_ofAscii (hencode : Reencodes encode) {byte : UInt8} (hascii : byte < 0x80) :
    encode (CodeUnit.ofAscii byte) = [CodeUnit.ofAscii byte] :=
  hencode.ascii (CodeUnit.toAscii?_ofAscii hascii)

theorem reverse (hencode : Reencodes encode) : Reencodes (List.reverse ∘ encode) where
  ascii hascii := by
    rw [Function.comp_apply, hencode.ascii hascii]
    rfl
  nonempty hascii := List.reverse_ne_nil_iff.mpr (hencode.nonempty hascii)
  other hascii part hmem := hencode.other hascii part (List.mem_reverse.mp hmem)

section Layout

/-- An ASCII unit at the start was written for the unit of the same byte. -/
theorem exists_of_flatMap_eq_cons (hencode : Reencodes encode) {byte : UInt8}
    (hascii : byte < 0x80) {units : List C} {tail : List D}
    (htext : units.flatMap encode = CodeUnit.ofAscii byte :: tail) :
    ∃ rest, units = CodeUnit.ofAscii byte :: rest ∧ tail = rest.flatMap encode := by
  cases units with
  | nil => cases htext
  | cons unit rest =>
      obtain ⟨first, more, hunit, hfirst⟩ := hencode.exists_first unit
      rw [List.flatMap_cons, hunit, List.cons_append] at htext
      obtain ⟨rfl, htail⟩ := List.cons.inj htext
      rw [CodeUnit.toAscii?_ofAscii hascii] at hfirst
      have hmore : more = [] := by
        rw [hencode.ascii hfirst.symm] at hunit
        exact (List.cons.inj hunit).2.symm
      rw [hmore, List.nil_append] at htail
      exact ⟨rest, by rw [((CodeUnit.toAscii?_eq_some_iff _ _).mp hfirst.symm).2], htail.symm⟩

/-- A margin is ASCII, so it is written as one unit. -/
theorem isMargin_of_mem (hencode : Reencodes encode) {unit : C} (hmargin : isMargin unit = true) :
    ∀ part ∈ encode unit, isMargin part = true := by
  intro part hmem
  cases hascii : CodeUnit.toAscii? unit with
  | none =>
      rw [isMargin, hascii] at hmargin
      cases hmargin
  | some byte =>
      rw [hencode.ascii hascii, List.mem_singleton] at hmem
      rw [hmem, isMargin_congr ((toAscii?_of_some hascii).trans hascii.symm), hmargin]

theorem dropMargin_flatMap (hencode : Reencodes encode) (units : List C) :
    dropMargin (units.flatMap encode) = (dropMargin units).flatMap encode := by
  induction units with
  | nil => rfl
  | cons unit rest ih =>
      cases hmargin : isMargin unit with
      | true =>
          have hdrop : dropMargin (unit :: rest) = dropMargin rest :=
            List.dropWhile_cons_of_pos hmargin
          rw [List.flatMap_cons, dropMargin_append (hencode.isMargin_of_mem hmargin), hdrop, ih]
      | false =>
          obtain ⟨first, more, hunit, hfirst⟩ := hencode.exists_first unit
          rw [dropMargin_cons hmargin, List.flatMap_cons, hunit, List.cons_append,
            dropMargin_cons ((isMargin_congr hfirst).trans hmargin)]

/-- The margin after a text is the margin before the reversed text. -/
theorem dropEndMargin_flatMap (hencode : Reencodes encode) (units : List C) :
    dropEndMargin (units.flatMap encode) = (dropEndMargin units).flatMap encode := by
  have hreverse := hencode.reverse.dropMargin_flatMap units.reverse
  rw [← List.reverse_flatMap] at hreverse
  change ((units.flatMap encode).reverse.dropWhile isMargin).reverse = _
  rw [show (units.flatMap encode).reverse.dropWhile isMargin = _ from hreverse,
    List.reverse_flatMap]
  refine List.flatMap_congr fun unit _ => ?_
  exact List.reverse_reverse _

theorem trimMargins_flatMap (hencode : Reencodes encode) (units : List C) :
    trimMargins (units.flatMap encode) = (trimMargins units).flatMap encode := by
  rw [trimMargins, hencode.dropMargin_flatMap, hencode.dropEndMargin_flatMap]
  rfl

theorem isMarked_flatMap (hencode : Reencodes encode) {text rest : List C}
    (hmarked : IsMarked text rest) : IsMarked (text.flatMap encode) (rest.flatMap encode) := by
  obtain ⟨x, hx, rfl⟩ := hmarked
  have hascii : x < 0x80 := by
    rcases hx with rfl | rfl <;> decide
  refine ⟨x, hx, ?_⟩
  rw [List.flatMap_cons, List.flatMap_cons, hencode.encode_ofAscii (by decide),
    hencode.encode_ofAscii hascii]
  rfl

theorem exists_of_isMarked_flatMap (hencode : Reencodes encode) {text : List C} {tail : List D}
    (hmarked : IsMarked (text.flatMap encode) tail) : ∃ rest, IsMarked text rest := by
  obtain ⟨x, hx, htext⟩ := hmarked
  have hascii : x < 0x80 := by
    rcases hx with rfl | rfl <;> decide
  obtain ⟨more, rfl, hmore⟩ := hencode.exists_of_flatMap_eq_cons (by decide) htext
  obtain ⟨rest, rfl, -⟩ := hencode.exists_of_flatMap_eq_cons hascii hmore.symm
  exact ⟨rest, x, hx, rfl⟩

theorem splitMark_flatMap (hencode : Reencodes encode) (text : List C) :
    splitMark (text.flatMap encode) =
      ((splitMark text).1, (splitMark text).2.flatMap encode) := by
  by_cases hmarked : ∃ rest, IsMarked text rest
  · obtain ⟨rest, hmarked⟩ := hmarked
    rw [splitMark_of_isMarked hmarked, splitMark_of_isMarked (hencode.isMarked_flatMap hmarked),
      hencode.dropMargin_flatMap]
  · have hplain := not_exists.mp hmarked
    have hwritten : ∀ tail, ¬IsMarked (text.flatMap encode) tail := fun _ htail =>
      hmarked (hencode.exists_of_isMarked_flatMap htail)
    rw [splitMark_of_not_isMarked hplain, splitMark_of_not_isMarked hwritten]

theorem hasSign_flatMap (hencode : Reencodes encode) {core rest : List C} {sign : Option Sign}
    (hsign : HasSign core sign rest) :
    HasSign (core.flatMap encode) sign (rest.flatMap encode) := by
  have hascii (sign : Sign) : sign.byte < 0x80 := by cases sign <;> decide
  cases hsign with
  | @signed sign rest hcore =>
      refine .signed ?_
      rw [hcore, List.flatMap_cons, hencode.encode_ofAscii (hascii sign)]
      rfl
  | signless hcore =>
      refine .signless fun sign tail htext => ?_
      obtain ⟨rest, hrest, -⟩ := hencode.exists_of_flatMap_eq_cons (hascii sign) htext
      exact hcore sign rest hrest

end Layout

section Reading

/-- Digits are taken one by one until there is a unit that is no digit. -/
theorem scan_flatMap (hencode : Reencodes encode) (r : DigitReader) (units : List C) :
    scan r (units.flatMap encode) = scan r units := by
  induction units generalizing r with
  | nil => rfl
  | cons unit rest ih =>
      rw [List.flatMap_cons]
      conv_rhs => rw [scan]
      cases hascii : CodeUnit.toAscii? unit with
      | none =>
          obtain ⟨first, more, hunit, hfirst⟩ := hencode.exists_first unit
          rw [hunit, List.cons_append, scan, hfirst, hascii]
      | some byte =>
          rw [hencode.ascii hascii, List.singleton_append, scan, toAscii?_of_some hascii]
          simp only [ih]

theorem readMagnitude_flatMap (hencode : Reencodes encode) (units : List C) :
    readMagnitude (units.flatMap encode) = readMagnitude units := by
  rw [readMagnitude, readMagnitude, hencode.dropMargin_flatMap, hencode.splitMark_flatMap]
  simp only [hencode.scan_flatMap]

theorem readUnsigned_flatMap (hencode : Reencodes encode) (units : List C) :
    readUnsigned (units.flatMap encode) = readUnsigned units := by
  rw [readUnsigned, readUnsigned, hencode.trimMargins_flatMap, hencode.readMagnitude_flatMap]

theorem readSigned_flatMap (hencode : Reencodes encode) (units : List C) :
    readSigned (units.flatMap encode) = readSigned units := by
  have hsign := hasSign_splitSign (trimMargins units)
  rw [readSigned, readSigned, hencode.trimMargins_flatMap,
    (hencode.hasSign_flatMap hsign).splitSign_eq]
  simp only [hencode.readMagnitude_flatMap]

end Reading

end Reencodes

section Encodings

/-- A unit whose number is not below 128 is not ASCII. -/
theorem toAscii?_eq_none_of_le {number : C → Nat}
    (hnumber : ∀ {byte : UInt8}, byte < 0x80 → number (CodeUnit.ofAscii byte) = byte.toNat)
    {unit : C} (hlarge : 0x80 ≤ number unit) : CodeUnit.toAscii? unit = none := by
  cases hascii : CodeUnit.toAscii? unit with
  | none => rfl
  | some byte =>
      obtain ⟨hlt, rfl⟩ := (CodeUnit.toAscii?_eq_some_iff unit byte).mp hascii
      rw [hnumber hlt] at hlarge
      exact absurd (UInt8.lt_iff_toNat_lt.mp hlt) (Nat.not_lt_of_le hlarge)

theorem toAscii?_byte_eq_none {n : Nat} (hlower : 0x80 ≤ n) (hupper : n < 0x100) :
    CodeUnit.toAscii? (UInt8.ofNat n) = none := by
  have hnumber {byte : UInt8} (_ : byte < 0x80) :
      (CodeUnit.ofAscii byte : UInt8).toNat = byte.toNat := rfl
  refine toAscii?_eq_none_of_le hnumber ?_
  rwa [UInt8.toNat_ofNat', Nat.mod_eq_of_lt hupper]

theorem toAscii?_half_eq_none {n : Nat} (hlower : 0x80 ≤ n) (hupper : n < 0x10000) :
    CodeUnit.toAscii? (UInt16.ofNat n) = none := by
  have hnumber {byte : UInt8} (_ : byte < 0x80) :
      (CodeUnit.ofAscii byte : UInt16).toNat = byte.toNat := UInt8.toNat_toUInt16 byte
  refine toAscii?_eq_none_of_le hnumber ?_
  rwa [UInt16.toNat_ofNat', Nat.mod_eq_of_lt hupper]

theorem toAscii?_word_eq_none {n : Nat} (hlower : 0x80 ≤ n) (hupper : n < 0x100000000) :
    CodeUnit.toAscii? (UInt32.ofNat n) = none := by
  have hnumber {byte : UInt8} (_ : byte < 0x80) :
      (CodeUnit.ofAscii byte : UInt32).toNat = byte.toNat := UInt8.toNat_toUInt32 byte
  refine toAscii?_eq_none_of_le hnumber ?_
  rwa [UInt32.toNat_ofNat', Nat.mod_eq_of_lt hupper]

/-- An encoding of characters is one when a character below 128 is one unit, that of its
byte, and any other character is units none of which is ASCII. -/
theorem reencodes_of_char {encode : Char → List D}
    (hascii : ∀ c : Char, c.toNat < 0x80 →
      encode c = [CodeUnit.ofAscii (UInt8.ofNat c.toNat)])
    (hother : ∀ c : Char, 0x80 ≤ c.toNat →
      encode c ≠ [] ∧ ∀ part ∈ encode c, CodeUnit.toAscii? part = none) :
    Reencodes encode := by
  have hlarge {c : Char} (hnone : CodeUnit.toAscii? c = none) : 0x80 ≤ c.toNat := by
    refine Nat.le_of_not_lt fun hlt => ?_
    have hsome : CodeUnit.toAscii? c = some (UInt8.ofNat c.toNat) := if_pos hlt
    rw [hsome] at hnone
    cases hnone
  refine ⟨fun {c byte} hsome => ?_, fun hnone => (hother _ (hlarge hnone)).1,
    fun hnone => (hother _ (hlarge hnone)).2⟩
  by_cases hlt : c.toNat < 0x80
  · have hbyte : CodeUnit.toAscii? c = some (UInt8.ofNat c.toNat) := if_pos hlt
    rw [hascii c hlt, Option.some.inj (hbyte.symm.trans hsome)]
  · have hnone : CodeUnit.toAscii? c = none := if_neg hlt
    rw [hnone] at hsome
    cases hsome

theorem toNat_char_lt (c : Char) : c.toNat < 0x110000 := by
  have hvalid : c.toNat.isValidChar := c.valid
  rw [Nat.isValidChar] at hvalid
  omega

theorem reencodes_utf8Char : Reencodes utf8Char := by
  refine reencodes_of_char (fun c hlt => if_pos hlt) fun c hlarge => ?_
  have hlt := toNat_char_lt c
  have hpart {n : Nat} (hlower : 0x80 ≤ n) (hupper : n < 0x100) :
      CodeUnit.toAscii? (UInt8.ofNat n) = none := toAscii?_byte_eq_none hlower hupper
  simp only [utf8Char, if_neg (Nat.not_lt_of_le hlarge)]
  split
  · refine ⟨List.cons_ne_nil _ _, ?_⟩
    simp only [List.forall_mem_cons]
    exact ⟨hpart (by omega) (by omega), hpart (by omega) (by omega), List.forall_mem_nil _⟩
  · split
    · refine ⟨List.cons_ne_nil _ _, ?_⟩
      simp only [List.forall_mem_cons]
      exact ⟨hpart (by omega) (by omega), hpart (by omega) (by omega),
        hpart (by omega) (by omega), List.forall_mem_nil _⟩
    · refine ⟨List.cons_ne_nil _ _, ?_⟩
      simp only [List.forall_mem_cons]
      exact ⟨hpart (by omega) (by omega), hpart (by omega) (by omega),
        hpart (by omega) (by omega), hpart (by omega) (by omega), List.forall_mem_nil _⟩

/-- A byte below 128 is the same number as a 16-bit unit. -/
theorem half_ofNat {n : Nat} (hlt : n < 0x80) :
    UInt16.ofNat n = CodeUnit.ofAscii (UInt8.ofNat n) := by
  change UInt16.ofNat n = (UInt8.ofNat n).toUInt16
  apply UInt16.toNat_inj.mp
  rw [UInt8.toNat_toUInt16, UInt8.toNat_ofNat', UInt16.toNat_ofNat', Nat.mod_eq_of_lt (by omega),
    Nat.mod_eq_of_lt (by omega)]

/-- A byte below 128 is the same number as a 32-bit unit. -/
theorem word_ofNat {n : Nat} (hlt : n < 0x80) :
    UInt32.ofNat n = CodeUnit.ofAscii (UInt8.ofNat n) := by
  change UInt32.ofNat n = (UInt8.ofNat n).toUInt32
  apply UInt32.toNat_inj.mp
  rw [UInt8.toNat_toUInt32, UInt8.toNat_ofNat', UInt32.toNat_ofNat', Nat.mod_eq_of_lt (by omega),
    Nat.mod_eq_of_lt (by omega)]

/-- A surrogate is no ASCII unit. -/
theorem reencodes_utf16Char : Reencodes utf16Char := by
  have hascii {c : Char} (hlt : c.toNat < 0x80) :
      utf16Char c = [CodeUnit.ofAscii (UInt8.ofNat c.toNat)] := by
    rw [← half_ofNat hlt]
    exact if_pos (Nat.lt_trans hlt (by decide))
  refine reencodes_of_char (fun _ => hascii) fun c hlarge => ?_
  have hlt := toNat_char_lt c
  have hpart {n : Nat} (hlower : 0x80 ≤ n) (hupper : n < 0x10000) :
      CodeUnit.toAscii? (UInt16.ofNat n) = none := toAscii?_half_eq_none hlower hupper
  simp only [utf16Char]
  split
  · refine ⟨List.cons_ne_nil _ _, ?_⟩
    simp only [List.forall_mem_cons]
    exact ⟨hpart (by omega) (by omega), List.forall_mem_nil _⟩
  · refine ⟨List.cons_ne_nil _ _, ?_⟩
    simp only [List.forall_mem_cons]
    exact ⟨hpart (by omega) (by omega), hpart (by omega) (by omega), List.forall_mem_nil _⟩

theorem reencodes_scalar : Reencodes fun c : Char => [UInt32.ofNat c.toNat] := by
  refine reencodes_of_char (fun c hlt => by rw [word_ofNat hlt]) fun c hlarge => ?_
  have hlt := toNat_char_lt c
  refine ⟨List.cons_ne_nil _ _, ?_⟩
  simp only [List.forall_mem_cons]
  exact ⟨toAscii?_word_eq_none hlarge (by omega), List.forall_mem_nil _⟩

theorem utf32_eq_flatMap (text : List Char) :
    utf32 text = text.flatMap fun c => [UInt32.ofNat c.toNat] := List.map_eq_flatMap

/-- The bytes of a character are those that the library encodes it in. -/
theorem utf8Char_eq_utf8EncodeChar (c : Char) : utf8Char c = String.utf8EncodeChar c := by
  have hscalar : c.val.toNat = c.toNat := rfl
  have hlt := toNat_char_lt c
  simp only [utf8Char, String.utf8EncodeChar, hscalar, Nat.le_iff_lt_add_one, Nat.reduceAdd]
  generalize c.toNat = v at hlt
  have hlow : 0x80 + v % 0x40 = v % 64 + 128 := Nat.add_comm _ _
  have hmiddle : 0x80 + v / 0x40 % 0x40 = v / 64 % 64 + 128 := Nat.add_comm _ _
  have hhigh : 0x80 + v / 0x1000 % 0x40 = v / 4096 % 64 + 128 := Nat.add_comm _ _
  refine ite_congr rfl (fun _ => rfl) fun _ => ite_congr rfl (fun htwo => ?_) fun _ =>
    ite_congr rfl (fun hthree => ?_) fun _ => ?_
  · rw [hlow, show 0xc0 + v / 0x40 = v / 64 % 32 + 192 by omega]
  · rw [hlow, hmiddle, show 0xe0 + v / 0x1000 = v / 4096 % 16 + 224 by omega]
  · rw [hlow, hmiddle, hhigh, show 0xf0 + v / 0x40000 = v / 262144 % 8 + 240 by omega]

end Encodings

section Readers

variable {α : Type}

/-- A reading of one text in four encodings: the same value each time, or the same cause of
the error. -/
structure ReadsAlike (read : ∀ (C : Type) [CodeUnit C], List C → Except ParseError α)
    (text : List Char) (outcome : Except NumeralError α) : Prop where
  bytes : (read UInt8 (utf8 text)).mapError ParseError.cause = outcome
  halves : (read UInt16 (utf16 text)).mapError ParseError.cause = outcome
  words : (read UInt32 (utf32 text)).mapError ParseError.cause = outcome
  chars : (read Char text).mapError ParseError.cause = outcome

theorem mapError_reportText {C : Type} [CodeUnit C] (units : List C)
    (outcome : Except NumeralError α) :
    (reportText units outcome).mapError ParseError.cause = outcome := by
  cases outcome <;> rfl

/-- What answers alike however its text is written anew answers alike in four encodings. -/
theorem readsAlike_of_reencodes (read : ∀ (C : Type) [CodeUnit C], List C → Except NumeralError α)
    (hread : ∀ {C D : Type} [CodeUnit C] [CodeUnit D] {encode : C → List D}, Reencodes encode →
      ∀ units, read D (units.flatMap encode) = read C units) (text : List Char) :
    ReadsAlike (fun C _ units => reportText units (read C units)) text (read Char text) where
  bytes := (mapError_reportText _ _).trans (hread reencodes_utf8Char text)
  halves := (mapError_reportText _ _).trans (hread reencodes_utf16Char text)
  words := by
    rw [mapError_reportText, utf32_eq_flatMap]
    exact hread reencodes_scalar text
  chars := mapError_reportText _ _

end Readers

section Reports

/-- A text shows units one by one: each by the character of the scalar value it is, or by
the replacement character. -/
def Shows {C : Type} (scalar? : C → Option Nat) (units : List C) (text : String) : Prop :=
  List.Forall₂ (fun unit c => c.toNat = (scalar? unit).getD 0xfffd) units text.toList

/-- The errors of both readers show the units that were read. -/
def ErrorsShow {C : Type} [CodeUnit C] (scalar? : C → Option Nat) : Prop :=
  ∀ (units : List C) (error : ParseError),
    (UInt128.ofUnits units = .error error → Shows scalar? units error.text) ∧
      (Int128.ofUnits units = .error error → Shows scalar? units error.text)

/-- A number as a scalar value, if it is one. -/
def scalarValue? (n : Nat) : Option Nat := if n.isValidChar then some n else none

/-- A byte as a scalar value, if it is ASCII. -/
def asciiValue? (byte : UInt8) : Option Nat := if byte < 0x80 then some byte.toNat else none

theorem text_of_reportText {α C : Type} [CodeUnit C] {units : List C} {error : ParseError}
    {outcome : Except NumeralError α} (hreport : reportText units outcome = .error error) :
    error.text = textOfUnits units := by
  cases outcome with
  | ok value => cases hreport
  | error cause =>
      cases hreport
      rfl

theorem errorsShow_of_toChar {C : Type} [CodeUnit C] {scalar? : C → Option Nat}
    (hchar : ∀ unit : C, (CodeUnit.toChar unit).toNat = (scalar? unit).getD 0xfffd) :
    ErrorsShow scalar? := by
  have hshows (units : List C) : Shows scalar? units (textOfUnits units) := by
    rw [Shows, textOfUnits, String.toList_ofList, List.forall₂_map_right_iff, List.forall₂_same]
    exact fun unit _ => hchar unit
  intro units error
  constructor
  · intro hread
    rw [text_of_reportText hread]
    exact hshows units
  · intro hread
    rw [text_of_reportText hread]
    exact hshows units

theorem toNat_ofNat_of_isValidChar {n : Nat} (hvalid : n.isValidChar) :
    (Char.ofNat n).toNat = n := by
  rw [Char.ofNat, dif_pos hvalid]
  rfl

theorem toNat_charOfScalar (n : Nat) : (charOfScalar n).toNat = (scalarValue? n).getD 0xfffd := by
  rw [charOfScalar, scalarValue?]
  split
  · exact toNat_ofNat_of_isValidChar ‹_›
  · rfl

theorem toNat_toChar_byte (byte : UInt8) :
    (CodeUnit.toChar byte).toNat = (asciiValue? byte).getD 0xfffd := by
  change (if byte < 0x80 then Char.ofNat byte.toNat else replacement).toNat = _
  rw [asciiValue?]
  split
  · exact toNat_ofNat_of_isValidChar (Or.inl (Nat.lt_trans byte.toNat_lt (by decide)))
  · rfl

end Reports

section Fields

variable {spec : FieldSpec}

/-- One ASCII text in each of four encodings. -/
structure IsImage (ascii : List UInt8) (field : ∀ (C : Type) [CodeUnit C], List C) : Prop where
  isAscii : ∀ byte ∈ ascii, byte < 0x80
  bytes : field UInt8 = ascii
  halves : field UInt16 = ascii.map UInt8.toUInt16
  words : field UInt32 = ascii.map UInt8.toUInt32
  chars : field Char = ascii.map fun byte => Char.ofNat byte.toNat

theorem digits_ascii (a : UInt128) (radix : Radix) (uppercase : Bool) :
    ∀ byte ∈ digits a radix uppercase, byte < 0x80 := by
  intro byte hmem
  have hdigits := (isNumeral_digits (C := UInt8) a radix uppercase).digit
  obtain ⟨ascii, digit, hascii, -⟩ := hdigits byte (List.mem_map_of_mem hmem)
  obtain ⟨hlt, hbyte⟩ := (CodeUnit.toAscii?_eq_some_iff _ _).mp hascii
  rw [hbyte]
  exact hlt

theorem headBytes_ascii (spec : FieldSpec) (negative : Bool) :
    ∀ byte ∈ spec.headBytes negative, byte < 0x80 := by
  have hascii {bytes : List UInt8} (hall : (bytes.all fun byte => decide (byte < 0x80)) = true) :
      ∀ byte ∈ bytes, byte < 0x80 := by
    intro byte hmem
    exact of_decide_eq_true (List.all_eq_true.mp hall byte hmem)
  have hmark (radix : Radix) :
      ∀ byte ∈ radix.mark.toList.map fun c => UInt8.ofNat c.toNat, byte < 0x80 := by
    apply hascii
    cases radix <;> rfl
  rw [FieldSpec.headBytes, FieldSpec.markBytes, List.forall_mem_append]
  constructor
  · apply hascii
    cases negative <;> rfl
  · split
    · exact List.forall_mem_nil _
    · split
      · exact hascii rfl
      · exact hmark spec.radix

/-- A field consists of its fill, its head and its digits. -/
theorem render_ascii (hfill : spec.fill < 0x80) (negative : Bool) {digits : List UInt8}
    (hdigits : ∀ byte ∈ digits, byte < 0x80) :
    ∀ byte ∈ (spec.render negative digits : List UInt8), byte < 0x80 := by
  have hpad (count : Nat) : ∀ byte ∈ List.replicate count spec.fill, byte < 0x80 :=
    fun byte hmem => by rwa [List.eq_of_mem_replicate hmem]
  have hhead := headBytes_ascii spec negative
  have hbyte : (CodeUnit.ofAscii : UInt8 → UInt8) = id := rfl
  simp only [FieldSpec.render, hbyte, List.map_id_fun, id_eq, List.forall_mem_append]
  exact ⟨⟨⟨⟨hpad _, List.forall_mem_append.mp hhead⟩, hpad _⟩, hdigits⟩, hpad _⟩

/-- The layout of a field does not depend on the encoding. -/
theorem render_eq_map (spec : FieldSpec) (negative : Bool) (digits : List UInt8) :
    (spec.render negative digits : List C) =
      (spec.render negative digits : List UInt8).map CodeUnit.ofAscii := by
  have hbyte : (CodeUnit.ofAscii : UInt8 → UInt8) = id := rfl
  simp only [FieldSpec.render, hbyte, List.map_append, List.map_replicate, List.map_id_fun, id_eq]

/-- A field that is laid out alike in all encodings is the image of its bytes. -/
theorem isImage_render (hfill : spec.fill < 0x80) (negative : Bool) {digits : List UInt8}
    (hdigits : ∀ byte ∈ digits, byte < 0x80) :
    IsImage (spec.render negative digits) fun C _ => (spec.render negative digits : List C) where
  isAscii := render_ascii hfill negative hdigits
  bytes := rfl
  halves := render_eq_map spec negative digits
  words := render_eq_map spec negative digits
  chars := render_eq_map spec negative digits

theorem exists_isImage_toUnits (hfill : spec.fill < 0x80) (a : UInt128) :
    ∃ ascii, IsImage ascii fun C _ => (a.toUnits spec : List C) :=
  ⟨_, isImage_render hfill false (digits_ascii a spec.radix spec.uppercase)⟩

theorem exists_isImage_toUnits_signed (hfill : spec.fill < 0x80) (a : Int128) :
    ∃ ascii, IsImage ascii fun C _ => (a.toUnits spec : List C) := by
  have hbits := exists_isImage_toUnits hfill a.bits
  simp only [Int128.toUnits]
  cases spec.radix with
  | decimal => exact ⟨_, isImage_render hfill a.isNegative (digits_ascii a.unsignedAbs _ _)⟩
  | binary | octal | hexadecimal => exact hbits

end Fields

/-- Reading and writing numbers is the same in every encoding. A text is read with one
outcome from its bytes, its 16-bit units, its scalar values and its characters; an error
shows the units that were read one by one; and a field with ASCII fill is one ASCII text in
each encoding. -/
theorem text_independent_of_encoding :
    (∀ text : List Char,
      (∃ outcome, ReadsAlike (fun _ _ => UInt128.ofUnits) text outcome) ∧
        ∃ outcome, ReadsAlike (fun _ _ => Int128.ofUnits) text outcome) ∧
      (ErrorsShow asciiValue? ∧ ErrorsShow (fun unit : UInt16 => scalarValue? unit.toNat) ∧
        ErrorsShow (fun unit : UInt32 => scalarValue? unit.toNat) ∧
        ErrorsShow fun unit : Char => some unit.toNat) ∧
      ∀ spec : FieldSpec, spec.fill < 0x80 →
        (∀ a : UInt128, ∃ ascii, IsImage ascii fun C _ => (a.toUnits spec : List C)) ∧
          ∀ a : Int128, ∃ ascii, IsImage ascii fun C _ => (a.toUnits spec : List C) := by
  refine ⟨fun text => ⟨?_, ?_⟩, ⟨?_, ?_, ?_, ?_⟩, fun spec hfill => ⟨?_, ?_⟩⟩
  · exact ⟨_, readsAlike_of_reencodes (fun _ _ => readUnsigned)
      (fun hencode => hencode.readUnsigned_flatMap) text⟩
  · exact ⟨_, readsAlike_of_reencodes (fun _ _ => readSigned)
      (fun hencode => hencode.readSigned_flatMap) text⟩
  · exact errorsShow_of_toChar toNat_toChar_byte
  · exact errorsShow_of_toChar fun unit => toNat_charOfScalar unit.toNat
  · exact errorsShow_of_toChar fun unit => toNat_charOfScalar unit.toNat
  · exact errorsShow_of_toChar fun _ => rfl
  · exact exists_isImage_toUnits hfill
  · exact exists_isImage_toUnits_signed hfill

end TwoLimb.Text
