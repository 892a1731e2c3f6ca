/-
# Forms of an order

A type has one order and many ways to ask for it. A comparison with three answers branches
on the limbs, truth values and selections are read off it, and lists are sorted by it. The
choices in one bit never branch: they combine bits that were computed for each limb.
`OrderFamily.AgreesWithIntegers` says that all of them tell the order of the integers which
the values stand for.

The choices of limbs are not fixed here. Whatever computes them, as long as it tells equal
limbs and greater limbs, the choices composed of them are the same.
-/

import TwoLimb.Proofs.Int128.TwosComplement

namespace TwoLimb

namespace Choice

/-- Choices that are set in the same cases are the same. -/
theorem ext_one : ∀ {c d : Choice}, (c = 1 ↔ d = 1) → c = d := by decide

theorem and_eq_one_iff : ∀ {c d : Choice}, c &&& d = 1 ↔ c = 1 ∧ d = 1 := by decide

theorem or_eq_one_iff : ∀ {c d : Choice}, c ||| d = 1 ↔ c = 1 ∨ d = 1 := by decide

theorem complement_eq_one_iff : ∀ {c : Choice}, ~~~c = 1 ↔ ¬c = 1 := by decide

theorem ofFlag_eq_one_iff : ∀ {flag : Bool}, ofFlag flag = 1 ↔ flag = true := by decide

end Choice

/-! ### Choices composed of those of limbs -/

/-- What tells in one bit whether limbs are equal and whether the first is greater. -/
structure LimbChoices where
  eq : Limb → Limb → Choice
  gt : Limb → Limb → Choice

namespace LimbChoices

/-- The choices as they are computed from truth values. -/
def ofFlags : LimbChoices := ⟨Limb.choiceEq, Limb.choiceGt⟩

/-- Each choice is set in the cases that it is about, and only there. -/
structure AreCorrect (limbs : LimbChoices) : Prop where
  eq : ∀ x y : Limb, limbs.eq x y = 1 ↔ x = y
  gt : ∀ x y : Limb, limbs.gt x y = 1 ↔ y < x

theorem areCorrect_ofFlags : ofFlags.AreCorrect where
  eq _ _ := Choice.ofFlag_eq_one_iff.trans beq_iff_eq
  gt _ _ := Choice.ofFlag_eq_one_iff.trans decide_eq_true_iff

/-- Correct choices of limbs leave nothing open. -/
theorem AreCorrect.eq_ofFlags {limbs : LimbChoices} (hlimbs : limbs.AreCorrect) :
    limbs = ofFlags := by
  obtain ⟨eq, gt⟩ := limbs
  congr 1
  · funext x y
    exact Choice.ext_one ((hlimbs.eq x y).trans (areCorrect_ofFlags.eq x y).symm)
  · funext x y
    exact Choice.ext_one ((hlimbs.gt x y).trans (areCorrect_ofFlags.gt x y).symm)

variable (limbs : LimbChoices)

/-- Set when both limbs are equal. -/
def pairEq (a b : UInt128) : Choice := limbs.eq a.high b.high &&& limbs.eq a.low b.low

/-- Set when the high limb is greater, or the low one where the high limbs are equal. -/
def pairGt (a b : UInt128) : Choice :=
  limbs.gt a.high b.high ||| (limbs.eq a.high b.high &&& limbs.gt a.low b.low)

/-- Set when neither of two choices is. -/
def neither (c d : Choice) : Choice := ~~~c &&& ~~~d

variable {limbs}

theorem AreCorrect.pairEq_iff (hlimbs : limbs.AreCorrect) (a b : UInt128) :
    limbs.pairEq a b = 1 ↔ a = b := by
  obtain ⟨ahigh, alow⟩ := a
  obtain ⟨bhigh, blow⟩ := b
  rw [pairEq, Choice.and_eq_one_iff, hlimbs.eq, hlimbs.eq, UInt128.mk.injEq]

theorem AreCorrect.pairGt_iff (hlimbs : limbs.AreCorrect) (a b : UInt128) :
    limbs.pairGt a b = 1 ↔ b.toNat < a.toNat := by
  have ha := a.low.toNat_lt
  have hb := b.low.toNat_lt
  rw [pairGt, Choice.or_eq_one_iff, Choice.and_eq_one_iff, hlimbs.gt, hlimbs.eq, hlimbs.gt,
    UInt64.lt_iff_toNat_lt, UInt64.lt_iff_toNat_lt, ← UInt64.toNat_inj, UInt128.toNat,
    UInt128.toNat]
  omega

end LimbChoices

/-! ### Families -/

/-- The forms in which the values of a type are compared. -/
structure OrderFamily (α : Type) where
  compare : α → α → Ordering
  isLess : α → α → Bool
  isGreater : α → α → Bool
  equals : α → α → Bool
  maximum : α → α → α
  minimum : α → α → α
  sort : List α → List α
  choiceEq : α → α → Choice
  choiceGt : α → α → Choice
  choiceLt : α → α → Choice

namespace OrderFamily

variable {α : Type} {family : OrderFamily α} {value : α → Int}

/-- The members of a family agree with the order of the integers that values stand for, and
so with one another. -/
structure AgreesWithIntegers (family : OrderFamily α) (value : α → Int) : Prop where
  compare : ∀ a b : α, family.compare a b = Ord.compare (value a) (value b)
  compare_eq : ∀ a b : α, family.compare a b = .eq ↔ a = b
  isLess : ∀ a b : α, family.isLess a b = true ↔ family.compare a b = .lt
  isGreater : ∀ a b : α, family.isGreater a b = true ↔ family.compare a b = .gt
  equals : ∀ a b : α, family.equals a b = true ↔ family.compare a b = .eq
  maximum : ∀ a b : α, value (family.maximum a b) = Max.max (value a) (value b)
  minimum : ∀ a b : α, value (family.minimum a b) = Min.min (value a) (value b)
  sort_perm : ∀ values : List α, (family.sort values).Perm values
  /-- No value stands before one that is less. -/
  sort_ordered : ∀ values : List α,
    (family.sort values).Pairwise fun a b => family.compare a b ≠ .gt
  choiceEq : ∀ a b : α, family.choiceEq a b = 1 ↔ family.compare a b = .eq
  choiceGt : ∀ a b : α, family.choiceGt a b = 1 ↔ family.compare a b = .gt
  choiceLt : ∀ a b : α, family.choiceLt a b = 1 ↔ family.compare a b = .lt

section Members

variable {less : Bool} {a b : α}

theorem value_ite_max (hless : less = true ↔ value a < value b) :
    value (if less then b else a) = Max.max (value a) (value b) := by
  by_cases hlt : value a < value b
  · rw [if_pos (hless.mpr hlt), Int.max_eq_right (Int.le_of_lt hlt)]
  · rw [if_neg (mt hless.mp hlt), Int.max_eq_left (Int.not_lt.mp hlt)]

theorem value_ite_min (hless : less = true ↔ value b < value a) :
    value (if less then b else a) = Min.min (value a) (value b) := by
  by_cases hlt : value b < value a
  · rw [if_pos (hless.mpr hlt), Int.min_eq_right (Int.le_of_lt hlt)]
  · rw [if_neg (mt hless.mp hlt), Int.min_eq_left (Int.not_lt.mp hlt)]

/-- Sorting by a test for greater values leaves none in front of a lesser one. -/
theorem pairwise_mergeSort {greater : α → α → Bool}
    (hgreater : ∀ a b, greater a b = true ↔ value b < value a) (values : List α) :
    (values.mergeSort fun a b => !greater a b).Pairwise fun a b => value a ≤ value b := by
  have hle (a b : α) : (!greater a b) = true ↔ value a ≤ value b := by
    rw [Bool.not_eq_true', Bool.eq_false_iff, ne_eq, hgreater, Int.not_lt]
  refine List.Pairwise.imp (hle _ _).mp (List.pairwise_mergeSort ?_ ?_ values)
  · intro a b c hab hbc
    exact (hle a c).mpr (Int.le_trans ((hle a b).mp hab) ((hle b c).mp hbc))
  · intro a b
    rw [Bool.or_eq_true, hle, hle]
    exact Int.le_total _ _

/-- What is neither greater nor equal is less. -/
theorem neither_iff (hvalue : ∀ {a b : α}, value a = value b → a = b) {greater equal : Choice}
    (hgreater : greater = 1 ↔ value b < value a) (hequal : equal = 1 ↔ a = b) :
    LimbChoices.neither greater equal = 1 ↔ value a < value b := by
  have hsame : a = b ↔ value a = value b := ⟨congrArg value, hvalue⟩
  rw [LimbChoices.neither, Choice.and_eq_one_iff, Choice.complement_eq_one_iff,
    Choice.complement_eq_one_iff, hgreater, hequal, hsame]
  omega

end Members

/-- A family agrees with integers when its comparison does, and the other members are made
of it or tell the same. -/
theorem agreesWithIntegers (hvalue : ∀ {a b : α}, value a = value b → a = b)
    (hcompare : ∀ a b, family.compare a b = Ord.compare (value a) (value b))
    (hless : ∀ a b, family.isLess a b = (family.compare a b == .lt))
    (hgreater : ∀ a b, family.isGreater a b = (family.compare a b == .gt))
    (hequals : ∀ a b, family.equals a b = true ↔ a = b)
    (hmaximum : ∀ a b, family.maximum a b = if family.isLess a b then b else a)
    (hminimum : ∀ a b, family.minimum a b = if family.isLess b a then b else a)
    (hsort : ∀ values, family.sort values = values.mergeSort fun a b => !family.isGreater a b)
    (hchoiceEq : ∀ a b, family.choiceEq a b = 1 ↔ a = b)
    (hchoiceGt : ∀ a b, family.choiceGt a b = 1 ↔ value b < value a)
    (hchoiceLt : ∀ a b, family.choiceLt a b =
      LimbChoices.neither (family.choiceGt a b) (family.choiceEq a b)) :
    family.AgreesWithIntegers value := by
  have hsame (a b : α) : family.compare a b = .eq ↔ a = b := by
    rw [hcompare, Int.compare_eq_eq]
    exact ⟨hvalue, congrArg value⟩
  have hlt (a b : α) : family.compare a b = .lt ↔ value a < value b := by
    rw [hcompare, Int.compare_eq_lt]
  have hgt (a b : α) : family.compare a b = .gt ↔ value b < value a := by
    rw [hcompare, Int.compare_eq_gt]
  have hisLess (a b : α) : family.isLess a b = true ↔ family.compare a b = .lt := by
    rw [hless, beq_iff_eq]
  have hisGreater (a b : α) : family.isGreater a b = true ↔ family.compare a b = .gt := by
    rw [hgreater, beq_iff_eq]
  constructor
  case compare => exact hcompare
  case compare_eq => exact hsame
  case isLess => exact hisLess
  case isGreater => exact hisGreater
  case equals => exact fun a b => (hequals a b).trans (hsame a b).symm
  case maximum =>
    intro a b
    rw [hmaximum]
    exact value_ite_max ((hisLess a b).trans (hlt a b))
  case minimum =>
    intro a b
    rw [hminimum]
    exact value_ite_min ((hisLess b a).trans (hlt b a))
  case sort_perm =>
    intro values
    rw [hsort]
    exact List.mergeSort_perm values _
  case sort_ordered =>
    intro values
    rw [hsort]
    have hordered := pairwise_mergeSort (fun a b => (hisGreater a b).trans (hgt a b)) values
    exact hordered.imp fun hle => mt (hgt _ _).mp (Int.not_lt.mpr hle)
  case choiceEq => exact fun a b => (hchoiceEq a b).trans (hsame a b).symm
  case choiceGt => exact fun a b => (hchoiceGt a b).trans (hgt a b).symm
  case choiceLt =>
    intro a b
    rw [hchoiceLt, hlt]
    exact neither_iff hvalue (hchoiceGt a b) (hchoiceEq a b)

end OrderFamily

namespace UInt128

/-- The order of unsigned values, with choices composed of those of limbs. -/
def orders (limbs : LimbChoices) : OrderFamily UInt128 where
  compare := compare
  isLess := isLessThan
  isGreater := isGreaterThan
  equals := equals
  maximum := maximum
  minimum := minimum
  sort := sort
  choiceEq := limbs.pairEq
  choiceGt := limbs.pairGt
  choiceLt a b := LimbChoices.neither (limbs.pairGt a b) (limbs.pairEq a b)

theorem compare_eq_compare_value (a b : UInt128) :
    a.compare b = Ord.compare (a.toNat : Int) (b.toNat : Int) := by
  rw [compare_eq_compare_toNat, Nat.compare_eq_ite_lt, Int.compare_eq_ite_lt]
  simp only [Int.ofNat_lt]

/-- Unsigned values are ordered as their limbs are, the high ones first. -/
theorem orders_agreeWithIntegers {limbs : LimbChoices} (hlimbs : limbs.AreCorrect) :
    (orders limbs).AgreesWithIntegers fun a => (a.toNat : Int) := by
  apply OrderFamily.agreesWithIntegers
  case hvalue =>
    intro a b hvalue
    exact ext_toNat (Int.ofNat_inj.mp hvalue)
  case hcompare => exact compare_eq_compare_value
  case hequals => exact Int128.equals_iff
  case hchoiceEq => exact hlimbs.pairEq_iff
  case hchoiceGt => exact fun a b => (hlimbs.pairGt_iff a b).trans Int.ofNat_lt.symm
  all_goals intros; rfl

end UInt128

end TwoLimb
