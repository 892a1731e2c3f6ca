/-
# Guarded engines

Two engines keep their values in limbs. One multiplies on halves and divides bit by bit,
and each of its sums, products and shifts is checked; the other leaves products and
divisions to instructions, which the wide division enters behind an assertion. Sums and
differences of limbs return their carry and have nothing to check.

What an engine is relied on for is `GuardedOps.Sound`: its products pass, and its wide
divisions pass where the high limb is below the divisor. From this the operations on pairs
pass. A limb divisor leaves a remainder below itself, a divisor of two limbs that does not
exceed the dividend has at least as many leading zeros, the distance of the two counts is
below 64, and so no shift reaches the width of its word.
-/

import TwoLimb.Proofs.Engine.Agreement
import TwoLimb.Proofs.Guarded.Bits
import TwoLimb.UInt128.Division
import TwoLimb.UInt128.Shift

namespace TwoLimb

/-- Limb primitives with their checks. -/
structure GuardedOps where
  /-- The primitives without their checks. -/
  primitives : LimbOps
  wideningMul : Limb → Limb → Guarded UInt128
  divPair : Limb → Limb → Limb → Guarded (Limb × Limb)

/-- The primitives are exact, and the checks pass where they are called for. -/
structure GuardedOps.Sound (ops : GuardedOps) : Prop where
  exact : ops.primitives.Exact
  wideningMul : ∀ a b : Limb, ops.wideningMul a b = .ok (ops.primitives.wideningMul a b)
  divPair : ∀ high low divisor : Limb, high < divisor →
    ops.divPair high low divisor = .ok (ops.primitives.divPair high low divisor)

namespace Guarded

/-! ### The engine on halves -/

namespace Portable

open Engine.Portable

def upperHalf (x : Limb) : Guarded Limb := limbShr x halfBits

@[simp]
theorem upperHalf_eq (x : Limb) : upperHalf x = .ok (highHalf x) := limbShr_eq x (by decide)

/-- The four products of halves. -/
def products (a b : Limb) : Guarded Schoolbook := do
  let aHigh ← upperHalf a
  let bHigh ← upperHalf b
  let lowLow ← limbProduct (lowHalf a) (lowHalf b)
  let lowHigh ← limbProduct (lowHalf a) bHigh
  let highLow ← limbProduct aHigh (lowHalf b)
  let highHigh ← limbProduct aHigh bHigh
  .ok ⟨lowLow, lowHigh, highLow, highHigh⟩

theorem limbProduct_halves {x y : Limb} (hx : x.toNat < 2 ^ 32) (hy : y.toNat < 2 ^ 32) :
    limbProduct x y = .ok (x * y) := by
  have hle := mul_halves_le hx hy
  exact limbProduct_eq (by omega)

theorem products_eq (a b : Limb) : products a b = .ok (.ofLimbs a b) := by
  simp only [products, upperHalf_eq, ok_bind,
    limbProduct_halves (lowHalf_lt a) (lowHalf_lt b),
    limbProduct_halves (lowHalf_lt a) (highHalf_lt b),
    limbProduct_halves (highHalf_lt a) (lowHalf_lt b),
    limbProduct_halves (highHalf_lt a) (highHalf_lt b)]
  rfl

/-- The column that straddles the limb boundary. -/
def middle (p : Schoolbook) : Guarded Limb := do
  let carried ← upperHalf p.lowLow
  let first ← limbSum carried (lowHalf p.lowHigh)
  limbSum first (lowHalf p.highLow)

/-- Three halves are far from filling a limb. -/
theorem middle_eq (p : Schoolbook) : middle p = .ok p.middle := by
  have hcarried := highHalf_lt p.lowLow
  have hlower := lowHalf_lt p.lowHigh
  have hupper := lowHalf_lt p.highLow
  rw [middle, upperHalf_eq, ok_bind, limbSum_eq (by omega), ok_bind, limbSum_eq]
  · rfl
  · rw [UInt64.toNat_add]
    omega

def low (p : Schoolbook) (middle : Limb) : Guarded Limb := do
  let raised ← limbShl middle halfBits
  .ok (lowHalf p.lowLow ||| raised)

/-- What is above the limb boundary, added up from left to right. -/
def high (p : Schoolbook) (middle : Limb) : Guarded Limb := do
  let lowHigh ← upperHalf p.lowHigh
  let first ← limbSum p.highHigh lowHigh
  let highLow ← upperHalf p.highLow
  let second ← limbSum first highLow
  let carried ← upperHalf middle
  limbSum second carried

theorem high_eq {p : Schoolbook} {a b : Limb} (hproduct : p.IsProductOf a b) :
    high p p.middle = .ok p.high := by
  have hfits := Schoolbook.highTerms_lt hproduct
  have hfirst : (p.highHigh + highHalf p.lowHigh).toNat =
      p.highHigh.toNat + (highHalf p.lowHigh).toNat := by
    rw [UInt64.toNat_add]
    omega
  have hsecond : (p.highHigh + highHalf p.lowHigh + highHalf p.highLow).toNat =
      p.highHigh.toNat + (highHalf p.lowHigh).toNat + (highHalf p.highLow).toNat := by
    rw [UInt64.toNat_add, hfirst]
    omega
  rw [high, upperHalf_eq, ok_bind, limbSum_eq (by omega), ok_bind, upperHalf_eq, ok_bind,
    limbSum_eq (by omega), ok_bind, upperHalf_eq, ok_bind, limbSum_eq (by omega)]
  rfl

def wideningMul (a b : Limb) : Guarded UInt128 := do
  let p ← products a b
  let middle ← middle p
  let low ← low p middle
  let high ← high p middle
  .ok ⟨high, low⟩

theorem wideningMul_eq (a b : Limb) : wideningMul a b = .ok (Engine.Portable.wideningMul a b) := by
  rw [wideningMul, products_eq, ok_bind, middle_eq, ok_bind, low, limbShl_eq _ (by decide),
    ok_bind, ok_bind, high_eq (Schoolbook.isProductOf_ofLimbs a b), ok_bind]
  rfl

/-- A product of limbs needs nothing wider than a limb. All products of halves and all sums of
columns stay within their limbs, as integers and for the checks of the machine. The upper half
of the middle column is added to the high limb, and that is just what its shift into the low
limb discards. So the two limbs are the product of the integers. -/
theorem product_stays_in_limbs (a b : Limb) :
    (Schoolbook.ofLimbs a b).StaysInLimbs a b ∧
    Guarded.Portable.wideningMul a b = .ok (Engine.Portable.wideningMul a b) ∧
    (highHalf (Schoolbook.ofLimbs a b).middle).toNat =
      (Schoolbook.ofLimbs a b).middle.toNat * 2 ^ 32 / 2 ^ 64 ∧
    ((Schoolbook.ofLimbs a b).middle.shl halfBits).toNat =
      (Schoolbook.ofLimbs a b).middle.toNat * 2 ^ 32 % 2 ^ 64 ∧
    (Engine.Portable.wideningMul a b).high.toNat * 2 ^ 64 +
      (Engine.Portable.wideningMul a b).low.toNat = a.toNat * b.toNat :=
  ⟨Schoolbook.staysInLimbs (Schoolbook.isProductOf_ofLimbs a b), wideningMul_eq a b,
    Schoolbook.toNat_highHalf_middle _, Limb.toNat_shl _ (by decide), toNat_wideningMul a b⟩

/-- One step of the division bit by bit, with its shifts by one place and by all but one. -/
def bitStep (divisor bit : Limb) (s : Bitwise) : Guarded Bitwise := do
  let spilled ← limbShr s.remainder (Limb.bits - 1)
  let doubled ← limbShl s.remainder 1
  let quotient ← limbShl s.quotient 1
  let remainder := doubled ||| bit
  .ok (if spilled ≠ 0 ∨ divisor ≤ remainder then ⟨quotient ||| 1, remainder - divisor⟩
    else ⟨quotient, remainder⟩)

theorem bitStep_eq (divisor bit : Limb) (s : Bitwise) :
    bitStep divisor bit s = .ok (s.step divisor bit) := by
  rw [bitStep, limbShr_eq _ (by decide), ok_bind, limbShl_eq _ (by decide), ok_bind,
    limbShl_eq _ (by decide), ok_bind]
  rfl

/-- The steps for the lowest `count` bits of the low limb, which is shifted down to each. -/
def bitRun (low divisor : Limb) : (count : Nat) → Bitwise → Guarded Bitwise
  | 0, s => .ok s
  | count + 1, s => do
      let shifted ← limbShr low count
      let s ← bitStep divisor (shifted &&& 1) s
      bitRun low divisor count s

theorem bitRun_eq (low divisor : Limb) {count : Nat} (hcount : count ≤ 64) (s : Bitwise) :
    bitRun low divisor count s = .ok (s.run low divisor count) := by
  induction count generalizing s with
  | zero => rfl
  | succ count ih =>
      rw [bitRun, limbShr_eq low hcount, ok_bind, bitStep_eq, ok_bind, ih (Nat.le_of_lt hcount)]
      rfl

def divPair (high low divisor : Limb) : Guarded (Limb × Limb) := do
  require (high < divisor) .assertion
  let last ← bitRun low divisor Limb.bits ⟨0, high⟩
  .ok (last.quotient, last.remainder)

theorem divPair_eq {high low divisor : Limb} (hhigh : high < divisor) :
    divPair high low divisor = .ok (Engine.Portable.divPair high low divisor) := by
  have hrun : bitRun low divisor Limb.bits ⟨0, high⟩ = _ :=
    bitRun_eq low divisor (Nat.le_refl 64) ⟨0, high⟩
  rw [divPair, require_eq hhigh, ok_bind, hrun, ok_bind]
  rfl

example : divPair 5 0 5 = .error .assertion := rfl

end Portable

/-- The primitives on halves. -/
def portable : GuardedOps where
  primitives := Engine.Portable.limbOps
  wideningMul := Portable.wideningMul
  divPair := Portable.divPair

/-- The primitives made of instructions. The division instruction faults on a quotient that
does not fit, so an assertion stands before it. -/
def instruction : GuardedOps where
  primitives := Engine.Instruction.limbOps
  wideningMul a b := .ok (Engine.Instruction.wideningMul a b)
  divPair high low divisor :=
    provided (high < divisor) .assertion (Engine.Instruction.divPair high low divisor)

theorem sound_portable : portable.Sound where
  exact := Engine.Portable.exact_limbOps
  wideningMul := Portable.wideningMul_eq
  divPair _ _ _ hhigh := Portable.divPair_eq hhigh

theorem sound_instruction : instruction.Sound where
  exact := Engine.Instruction.exact_limbOps
  wideningMul _ _ := rfl
  divPair _ _ _ hhigh := provided_eq hhigh _ _

/-! ### Shifts of pairs -/

/-- Shift towards the high end. The assertion keeps the amount below 128; the two limbs are
then shifted by less than 64 each. -/
def shl (value : UInt128) (amount : Nat) : Guarded UInt128 := do
  require (amount < UInt128.bits) .assertion
  if amount = 0 then .ok value
  else if amount ≥ Limb.bits then
    let beyond ← difference amount Limb.bits
    let high ← limbShl value.low beyond
    .ok ⟨high, 0⟩
  else
    let rest ← difference Limb.bits amount
    let high ← limbShl value.high amount
    let carried ← limbShr value.low rest
    let low ← limbShl value.low amount
    .ok ⟨high ||| carried, low⟩

theorem shl_eq (value : UInt128) {amount : Nat} (hamount : amount < 128) :
    shl value amount = .ok (value.shl amount) := by
  have hassertion : amount < UInt128.bits := hamount
  change shl value amount = .ok (Engine.Limbwise.shl value amount)
  rw [shl, require_eq hassertion, ok_bind, Engine.Limbwise.shl]
  split
  · rfl
  · rename_i hzero
    split
    · rename_i hcross
      rw [difference_eq hcross, ok_bind, limbShl_eq _ (sub_bits_lt hamount), ok_bind]
    · rename_i hwithin
      have hlt : amount < 64 := Nat.lt_of_not_le hwithin
      have hrest : Limb.bits - amount < 64 := Nat.sub_lt (by decide) (Nat.pos_of_ne_zero hzero)
      rw [difference_eq (Nat.le_of_not_le hwithin), ok_bind, limbShl_eq _ hlt, ok_bind,
        limbShr_eq _ hrest, ok_bind, limbShl_eq _ hlt, ok_bind]

/-- Shift towards the low end, with the same assertion. -/
def shr (value : UInt128) (amount : Nat) : Guarded UInt128 := do
  require (amount < UInt128.bits) .assertion
  if amount = 0 then .ok value
  else if amount ≥ Limb.bits then
    let beyond ← difference amount Limb.bits
    let low ← limbShr value.high beyond
    .ok ⟨0, low⟩
  else
    let rest ← difference Limb.bits amount
    let high ← limbShr value.high amount
    let low ← limbShr value.low amount
    let carried ← limbShl value.high rest
    .ok ⟨high, low ||| carried⟩

theorem shr_eq (value : UInt128) {amount : Nat} (hamount : amount < 128) :
    shr value amount = .ok (value.shr amount) := by
  have hassertion : amount < UInt128.bits := hamount
  change shr value amount = .ok (Engine.Limbwise.shr value amount)
  rw [shr, require_eq hassertion, ok_bind, Engine.Limbwise.shr]
  split
  · rfl
  · rename_i hzero
    split
    · rename_i hcross
      rw [difference_eq hcross, ok_bind, limbShr_eq _ (sub_bits_lt hamount), ok_bind]
    · rename_i hwithin
      have hlt : amount < 64 := Nat.lt_of_not_le hwithin
      have hrest : Limb.bits - amount < 64 := Nat.sub_lt (by decide) (Nat.pos_of_ne_zero hzero)
      rw [difference_eq (Nat.le_of_not_le hwithin), ok_bind, limbShr_eq _ hlt, ok_bind,
        limbShr_eq _ hlt, ok_bind, limbShl_eq _ hrest, ok_bind]

/-! ### Products and quotients of pairs -/

open Engine (Limbwise.Restoring)

/-- The distance of the leading zeros. -/
def alignment (dividend divisor : UInt128) : Guarded Nat := do
  let below ← leadingZeros divisor
  let above ← leadingZeros dividend
  difference below above

/-- A divisor that does not exceed the dividend has at least as many leading zeros. -/
theorem alignment_eq {dividend divisor : UInt128} (hdivisor : divisor.toNat ≠ 0)
    (hle : divisor.toNat ≤ dividend.toNat) :
    alignment dividend divisor = .ok (Engine.Limbwise.alignment dividend divisor) := by
  have hdividend : dividend.toNat ≠ 0 := by omega
  have hlog : divisor.toNat.log2 ≤ dividend.toNat.log2 :=
    (Nat.le_log2 hdividend).mpr (Nat.le_trans (Nat.log2_self_le hdivisor) hle)
  have hzeros : dividend.leadingZeros ≤ divisor.leadingZeros := by
    rw [UInt128.leadingZeros_eq hdivisor, UInt128.leadingZeros_eq hdividend]
    omega
  rw [alignment, leadingZeros_eq, ok_bind, leadingZeros_eq, ok_bind, difference_eq hzeros]
  rfl

section Pairs

variable (ops : GuardedOps)

def mul (a b : UInt128) : Guarded UInt128 := do
  let product ← ops.wideningMul a.low b.low
  .ok ⟨product.high + a.high * b.low + a.low * b.high, product.low⟩

def overflowingMul (a b : UInt128) : Guarded (UInt128 × Bool) := do
  let product ← ops.wideningMul a.low b.low
  let (crossA, overflowA) := a.high.overflowingMul b.low
  let (crossB, overflowB) := a.low.overflowingMul b.high
  let (high, overflowC) := product.high.overflowingAdd crossA
  let (high, overflowD) := Limb.overflowingAdd high crossB
  .ok (⟨high, product.low⟩,
    (a.high != 0 && b.high != 0) || overflowA || overflowB || overflowC || overflowD)

/-- A pair by one limb. The remainder of the limb division enters the wide division. -/
def divModLimb (dividend : UInt128) (divisor : Limb) : Guarded (DivMod UInt128) := do
  let high ← limbQuotient dividend.high divisor
  let rest ← limbRemainder dividend.high divisor
  let (low, remainder) ← ops.divPair rest dividend.low divisor
  .ok ⟨⟨high, low⟩, .ofLimb remainder⟩

/-- One round of the restoring division. -/
def divisionRound (s : Limbwise.Restoring) : Guarded Limbwise.Restoring := do
  let quotient ← shl s.quotient 1
  let denominator ← shr s.denominator 1
  .ok (if s.denominator.isGreaterThan s.remainder then ⟨quotient, s.remainder, denominator⟩
    else ⟨⟨quotient.high, quotient.low ||| 1⟩,
      (Engine.Limbwise.sub ops.primitives s.remainder s.denominator false).1, denominator⟩)

/-- The rounds of the restoring division, counted upwards from zero to the alignment. -/
def divModRestoring (dividend divisor : UInt128) : Guarded (DivMod UInt128) := do
  let shift ← alignment dividend divisor
  let denominator ← shl divisor shift
  let last ← countUp 32 (fun _ => divisionRound ops) (shift + 1) 0
    ⟨.zero, dividend, denominator⟩
  .ok ⟨last.quotient, last.remainder⟩

def divMod (dividend divisor : UInt128) : Guarded (DivMod UInt128) :=
  if divisor.high = 0 then divModLimb ops dividend divisor.low
  else if divisor.isGreaterThan dividend then .ok ⟨.zero, dividend⟩
  else divModRestoring ops dividend divisor

theorem divisionRound_eq (s : Limbwise.Restoring) :
    divisionRound ops s = .ok (s.round ops.primitives) := by
  rw [divisionRound, shl_eq _ (by decide), ok_bind, shr_eq _ (by decide), ok_bind]
  rfl

/-- The loop makes as many rounds as it counts. -/
theorem countUp_divisionRound {rounds index : Nat} (hfits : index + rounds < 2 ^ 32)
    (s : Limbwise.Restoring) :
    countUp 32 (fun _ => divisionRound ops) rounds index s =
      .ok (s.run ops.primitives rounds) := by
  induction rounds generalizing index s with
  | zero => rfl
  | succ rounds ih =>
      rw [countUp, divisionRound_eq, ok_bind, sum_eq (by omega), ok_bind, ih (by omega)]
      rfl

/-- The alignment of a divisor of two limbs is below 64, for its shift and for its rounds. -/
theorem divModRestoring_eq {dividend divisor : UInt128} (hhigh : divisor.high ≠ 0)
    (hle : divisor.toNat ≤ dividend.toNat) :
    divModRestoring ops dividend divisor =
      .ok (Engine.Limbwise.divModRestoring ops.primitives dividend divisor) := by
  have halignment := Engine.Limbwise.alignment_lt hhigh hle
  rw [divModRestoring, alignment_eq (UInt128.toNat_ne_zero_of_high hhigh) hle, ok_bind,
    shl_eq divisor (by omega), ok_bind, countUp_divisionRound ops (by omega), ok_bind]
  rfl

end Pairs

section Sound

variable {ops : GuardedOps} (hops : ops.Sound)

include hops

/-- Whichever primitives are used, the results are those of the selected engine. -/
theorem agrees_selected :
    (Engine.ofLimbOps .portable ops.primitives).Agrees Engine.selected :=
  (Engine.exact_ofLimbOps _ hops.exact).agrees Engine.exact_portable

theorem mul_eq (a b : UInt128) : mul ops a b = .ok (a * b) := by
  rw [mul, hops.wideningMul, ok_bind]
  exact congrArg Except.ok ((agrees_selected hops).mul a b)

theorem overflowingMul_eq (a b : UInt128) :
    overflowingMul ops a b = .ok (a.overflowingMul b) := by
  rw [overflowingMul, hops.wideningMul, ok_bind]
  exact congrArg Except.ok ((agrees_selected hops).overflowingMul a b)

/-- A remainder is below its divisor, as the wide division wants it. -/
theorem divModLimb_eq (dividend : UInt128) {divisor : Limb} (hdivisor : divisor ≠ 0) :
    divModLimb ops dividend divisor =
      .ok (Engine.Limbwise.divModLimb ops.primitives dividend divisor) := by
  have hrest : dividend.high % divisor < divisor := by
    rw [UInt64.lt_iff_toNat_lt, UInt64.toNat_mod]
    exact Nat.mod_lt _ (Nat.pos_of_ne_zero (Limb.toNat_ne_zero hdivisor))
  rw [divModLimb, limbQuotient_eq _ hdivisor, ok_bind, limbRemainder_eq _ hdivisor, ok_bind,
    hops.divPair _ _ _ hrest, ok_bind]
  rfl

/-- No way that a division takes stops. -/
theorem divMod_eq (dividend : UInt128) {divisor : UInt128} (hdivisor : divisor ≠ .zero) :
    divMod ops dividend divisor = .ok (dividend.divMod divisor) := by
  have hagrees := (agrees_selected hops).divMod dividend divisor hdivisor
  have hunguarded : divMod ops dividend divisor =
      .ok (Engine.Limbwise.divMod ops.primitives dividend divisor) := by
    unfold divMod Engine.Limbwise.divMod
    split
    · rename_i hhigh
      have hlow : divisor.low ≠ 0 := by
        intro hzero
        apply hdivisor
        cases divisor
        simp_all [UInt128.zero]
      exact divModLimb_eq hops dividend hlow
    · rename_i hhigh
      split
      · rfl
      · rename_i hexceeds
        rw [UInt128.isGreaterThan_iff] at hexceeds
        exact divModRestoring_eq ops hhigh (Nat.le_of_not_lt hexceeds)
  exact hunguarded.trans (congrArg Except.ok hagrees)

end Sound

end Guarded

end TwoLimb
