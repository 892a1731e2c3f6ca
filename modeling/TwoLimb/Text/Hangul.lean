/-
# Letters of Hangul without a form of their own

Two kinds of Hangul letters do not stand alone on a page. A conjoining vowel or final
consonant joins the syllable before it, by the property `Hangul_Syllable_Type`; a filler
keeps the place of a letter that is not there and shows nothing, by the property
`Default_Ignorable_Code_Point`. The ranges are closed, ascending and apart.
-/

namespace TwoLimb.Text

/-- Ranges of vowels and final consonants, which join the syllable before them. -/
def conjoiningJamo : List (Nat × Nat) :=
  [(0x1160, 0x11ff), (0xd7b0, 0xd7c6), (0xd7cb, 0xd7fb)]

/-- Ranges of fillers, which are letters that show nothing. -/
def hangulFillers : List (Nat × Nat) :=
  [(0x115f, 0x1160), (0x3164, 0x3164), (0xffa0, 0xffa0)]

end TwoLimb.Text
