/-
# Guarded operations on signed integers

A signed operation works on bits and magnitudes and adds no check of its own but one: a
float is asserted to lie between `-2^127` and `2^127` before its magnitude is taken, and the
magnitude is then within what the unsigned conversion asserts.
-/

import TwoLimb.Int128.Division
import TwoLimb.Int128.Overflow
import TwoLimb.Int128.Shift
import TwoLimb.Proofs.Guarded.Field
import TwoLimb.Proofs.Guarded.Float

namespace TwoLimb

open Text

namespace Guarded

theorem documented_map {α β : Type} (f : α → β) (x : Except Fault α) :
    documented (x.map f) = (do let y ← documented x; .ok (f y)) := by
  cases x <;> rfl

namespace Signed

/-! ### Shifts -/

/-- A shift of the bits. To the right the complement of a negative value is shifted, between
two complements. -/
def shiftBits (shift : UInt128 → Guarded UInt128) (a : Int128) : Direction → Guarded Int128
  | .left => do
      let bits ← shift a.bits
      .ok ⟨bits⟩
  | .right =>
      if a.isNegative then do
        let shifted ← shift (~~~a.bits)
        .ok ⟨~~~shifted⟩
      else do
        let bits ← shift a.bits
        .ok ⟨bits⟩

section Shifts

variable {shift : UInt128 → Guarded UInt128} {outcome : UInt128 → Except Fault UInt128}
  (hshift : ∀ bits, shift bits = documented (outcome bits))

include hshift

theorem shiftBits_left (a : Int128) :
    shiftBits shift a .left = documented ((outcome a.bits).map Int128.mk) := by
  rw [shiftBits, hshift, documented_map]

theorem shiftBits_right (a : Int128) :
    shiftBits shift a .right =
      documented (if a.isNegative then (outcome (~~~a.bits)).map fun shifted => ⟨~~~shifted⟩
        else (outcome a.bits).map Int128.mk) := by
  rw [shiftBits, hshift, hshift]
  split <;> exact (documented_map _ _).symm

end Shifts

/-- Shift by the amount modulo 128. -/
def wrappingShift (a : Int128) (direction : Direction) (amount : UInt32) : Guarded Int128 :=
  shiftBits (fun bits => Guarded.wrappingShift bits direction amount) a direction

theorem wrappingShl_eq (a : Int128) (amount : UInt32) :
    wrappingShift a .left amount = .ok (a.wrappingShl amount) := by
  have hshift (bits : UInt128) : Guarded.wrappingShift bits .left amount =
      documented (.ok (bits.wrappingShl amount)) := wrappingShift_eq bits .left amount
  exact shiftBits_left hshift a

theorem wrappingShr_eq (a : Int128) (amount : UInt32) :
    wrappingShift a .right amount = .ok (a.wrappingShr amount) := by
  have hshift (bits : UInt128) : Guarded.wrappingShift bits .right amount =
      documented (.ok (bits.wrappingShr amount)) := wrappingShift_eq bits .right amount
  rw [wrappingShift, shiftBits_right hshift, Int128.wrappingShr]
  split <;> rfl

/-- Shift, refused from 128 on. -/
def shift? (a : Int128) (direction : Direction) (amount : UInt32) : Guarded (Option Int128) :=
  if amount < 128 then do
    let shifted ← wrappingShift a direction amount
    .ok (some shifted)
  else .ok none

theorem shl?_eq (a : Int128) (amount : UInt32) : shift? a .left amount = .ok (a.shl? amount) := by
  rw [shift?, wrappingShl_eq, ok_bind]
  exact ite_ok rfl rfl

theorem shr?_eq (a : Int128) (amount : UInt32) : shift? a .right amount = .ok (a.shr? amount) := by
  rw [shift?, wrappingShr_eq, ok_bind]
  exact ite_ok rfl rfl

/-- The shift operators. -/
def shiftBy (a : Int128) (direction : Direction) (amount : ShiftCount) : Guarded Int128 :=
  shiftBits (fun bits => Guarded.shiftBy bits direction amount) a direction

theorem shiftBy_eq (a : Int128) (direction : Direction) (amount : ShiftCount) :
    shiftBy a direction amount = documented (a.shiftBy direction amount) := by
  cases direction with
  | left => exact shiftBits_left (Guarded.shiftBy_eq · .left amount) a
  | right => exact shiftBits_right (Guarded.shiftBy_eq · .right amount) a

/-! ### Floats -/

/-- The float of a magnitude, with the sign put back. -/
def toBinary64 (a : Int128) : Guarded Binary64 := do
  let magnitude ← Guarded.toBinary64 a.unsignedAbs
  .ok (if a.isNegative then magnitude.neg else magnitude)

def toBinary32 (a : Int128) : Guarded Binary32 := do
  let magnitude ← Guarded.toBinary32 a.unsignedAbs
  .ok (if a.isNegative then magnitude.neg else magnitude)

/-- The integer part with its assertions about the float and about its magnitude. -/
def truncateUnchecked (x : Binary64) : Guarded Int128 := do
  require (x.IsWithin (-2 ^ 127) (2 ^ 127)) .assertion
  let magnitude ← Guarded.truncateUnchecked x.abs
  .ok (if x.LtInt 0 then ⟨-magnitude⟩ else ⟨magnitude⟩)

def ofBinary64 (x : Binary64) : Guarded (Except FloatError Int128) :=
  if x.isNaN then .ok (.error .notANumber)
  else if x.isInfinite then .ok (.error .infinite)
  else if ¬x.LtInt (2 ^ 127) ∨ x.LtInt (-2 ^ 127) then .ok (.error .outOfRange)
  else do
    let a ← truncateUnchecked x
    .ok (.ok a)

def ofBinary32 (x : Binary32) : Guarded (Except FloatError Int128) :=
  ofBinary64 (x.convert .binary64)

theorem toBinary64_eq (a : Int128) : toBinary64 a = .ok a.toBinary64 := by
  rw [toBinary64, Guarded.toBinary64_eq, ok_bind]
  rfl

theorem toBinary32_eq (a : Int128) : toBinary32 a = .ok a.toBinary32 := by
  rw [toBinary32, Guarded.toBinary32_eq, ok_bind]
  rfl

theorem truncateUnchecked_eq {x : Binary64} (hx : x.IsWithin (-2 ^ 127) (2 ^ 127)) :
    truncateUnchecked x = .ok (Int128.truncateBinary64 x) := by
  rw [truncateUnchecked, require_eq hx, ok_bind,
    Guarded.truncateUnchecked_eq (hx.abs BinaryFormat.isProper_binary64), ok_bind]
  rfl

theorem ofBinary64_eq (x : Binary64) : ofBinary64 x = .ok (Int128.ofBinary64 x) := by
  unfold ofBinary64 Int128.ofBinary64
  split
  · rfl
  · rename_i hnumber
    split
    · rfl
    · rename_i hfinite
      split
      · rfl
      · rename_i hrange
        rw [not_or, not_not] at hrange
        have hx : x.IsWithin (-2 ^ 127) (2 ^ 127) :=
          ⟨Bool.eq_false_iff.mpr hnumber, Bool.eq_false_iff.mpr hfinite, hrange.2, hrange.1⟩
        rw [truncateUnchecked_eq hx, ok_bind]

theorem ofBinary32_eq (x : Binary32) : ofBinary32 x = .ok (Int128.ofBinary32 x) :=
  ofBinary64_eq _

section Magnitudes

variable (ops : GuardedOps)

/-! ### Products and quotients -/

def mul (a b : Int128) : Guarded Int128 := do
  let bits ← Guarded.mul ops a.bits b.bits
  .ok ⟨bits⟩

def overflowingMul (a b : Int128) : Guarded (Int128 × Bool) := do
  let product ← mul ops a b
  let (magnitude, overflow) ← Guarded.overflowingMul ops a.unsignedAbs b.unsignedAbs
  let limit := Int128.min.bits
  let fits :=
    if a.isNegative != b.isNegative then !magnitude.isGreaterThan limit
    else magnitude.isLessThan limit
  .ok (product, overflow || !fits)

def mul? (a b : Int128) : Guarded (Option Int128) := do
  let product ← overflowingMul ops a b
  .ok (unflagged product)

def saturatingMul (a b : Int128) : Guarded Int128 := do
  let product ← overflowingMul ops a b
  .ok (orElseFlagged (Int128.bound (a.isNegative != b.isNegative)) product)

/-- Truncated quotient and remainder, none for divisor zero. -/
def divMod? (a b : Int128) : Guarded (Option (DivMod Int128)) := do
  let magnitudes? ← divide ops id a.unsignedAbs b.unsignedAbs
  .ok (magnitudes?.map (a.restoreSigns b))

/-- Truncated quotient and remainder, an error for divisor zero. -/
def divModOrError (a b : Int128) : Guarded (Except Error (DivMod Int128)) := do
  let result? ← divMod? ops a b
  match result? with
  | some result => .ok (.ok result)
  | none => .ok (.error .divideByZero)

/-- The quotient or the remainder, if the quotient is a signed value. -/
def part? (part : DivMod Int128 → Int128) (a b : Int128) : Guarded (Option Int128) :=
  if a.quotientOverflows b then .ok none
  else do
    let result? ← divMod? ops a b
    .ok (result?.map part)

/-- The quotient or the remainder operator with its fault for divisor zero. -/
def partOrFault (part : DivMod Int128 → Int128) (fault : Fault) (a b : Int128) :
    Guarded Int128 := do
  let result? ← divMod? ops a b
  match result? with
  | some result => .ok (part result)
  | none => .error (.fault fault)

/-- The quotient that leaves a remainder of zero or more. -/
def divEuclid (a b : Int128) : Guarded (Except Error Int128) := do
  let outcome ← divModOrError ops a b
  match outcome with
  | .error error => .ok (.error error)
  | .ok ⟨quotient, remainder⟩ =>
      if remainder.isNegative then
        .ok (.ok (if b.isNegative then quotient + .one else quotient - .one))
      else .ok (.ok quotient)

/-- The remainder of zero or more. -/
def remEuclid (a b : Int128) : Guarded (Except Error Int128) := do
  let outcome ← divModOrError ops a b
  match outcome with
  | .error error => .ok (.error error)
  | .ok ⟨_, remainder⟩ =>
      if remainder.isNegative then .ok (.ok (remainder + ⟨b.unsignedAbs⟩))
      else .ok (.ok remainder)

/-! ### Texts -/

/-- The field of a signed value. -/
def toUnits {C : Type} [CodeUnit C] (a : Int128) (spec : FieldSpec) : Guarded (List C) :=
  match spec.radix with
  | .decimal => do
      let digits ← digits ops a.unsignedAbs .decimal false
      render spec a.isNegative digits
  | _ => Guarded.toUnits ops a.bits spec

/-- A signed value written in the given form. -/
def format (a : Int128) (form : NumberForm) (options : FormatOptions) : Guarded String :=
  match form.radix with
  | .decimal => do
      let digits ← digits ops a.unsignedAbs .decimal false
      .ok (String.ofList (options.padIntegral (!a.isNegative) [] (asciiChars digits)))
  | _ => Guarded.format ops a.bits form options

variable {ops} (hops : ops.Sound)

include hops

theorem mul_eq (a b : Int128) : mul ops a b = .ok (a * b) := by
  rw [mul, Guarded.mul_eq hops, ok_bind]
  rfl

theorem overflowingMul_eq (a b : Int128) : overflowingMul ops a b = .ok (a.overflowingMul b) := by
  rw [overflowingMul, mul_eq hops, ok_bind, Guarded.overflowingMul_eq hops, ok_bind]
  rfl

theorem mul?_eq (a b : Int128) : mul? ops a b = .ok (a.mul? b) := by
  rw [mul?, overflowingMul_eq hops, ok_bind]
  rfl

theorem saturatingMul_eq (a b : Int128) : saturatingMul ops a b = .ok (a.saturatingMul b) := by
  rw [saturatingMul, overflowingMul_eq hops, ok_bind]
  rfl

theorem divMod?_eq (a b : Int128) : divMod? ops a b = .ok (a.divMod? b) := by
  rw [divMod?, divide_eq hops, ok_bind]
  rfl

theorem divModOrError_eq (a b : Int128) : divModOrError ops a b = .ok (a.divModOrError b) := by
  rw [divModOrError, divMod?_eq hops, ok_bind, Int128.divModOrError]
  cases a.divMod? b <;> rfl

theorem part?_eq (part : DivMod Int128 → Int128) (a b : Int128) :
    part? ops part a b =
      .ok (if a.quotientOverflows b then none else (a.divMod? b).map part) := by
  rw [part?, divMod?_eq hops, ok_bind]
  exact ite_ok rfl rfl

theorem partOrFault_eq (part : DivMod Int128 → Int128) (fault : Fault) (a b : Int128) :
    partOrFault ops part fault a b =
      documented (match a.divMod? b with
        | some result => .ok (part result)
        | none => .error fault) := by
  rw [partOrFault, divMod?_eq hops, ok_bind]
  cases a.divMod? b <;> rfl

theorem divEuclid_eq (a b : Int128) : divEuclid ops a b = .ok (a.divEuclid b) := by
  rw [divEuclid, divModOrError_eq hops, ok_bind, Int128.divEuclid]
  cases a.divModOrError b with
  | error error => rfl
  | ok result => exact ite_ok rfl rfl

theorem remEuclid_eq (a b : Int128) : remEuclid ops a b = .ok (a.remEuclid b) := by
  rw [remEuclid, divModOrError_eq hops, ok_bind, Int128.remEuclid]
  cases a.divModOrError b with
  | error error => rfl
  | ok result => exact ite_ok rfl rfl

theorem toUnits_eq {C : Type} [CodeUnit C] (a : Int128) {spec : FieldSpec}
    (hwidth : spec.width < 2 ^ 64) : toUnits ops a spec = .ok (a.toUnits spec : List C) := by
  unfold toUnits Int128.toUnits
  rw [digits_eq hops, ok_bind, render_eq hwidth a.isNegative (length_digits_le _ _ _),
    Guarded.toUnits_eq hops a.bits hwidth]
  cases spec.radix <;> rfl

theorem format_eq (a : Int128) (form : NumberForm) (options : FormatOptions) :
    format ops a form options = .ok (a.format form options) := by
  unfold format Int128.format
  rw [digits_eq hops, ok_bind, Guarded.format_eq hops a.bits form options]
  cases form.radix <;> rfl

end Magnitudes

end Signed

end Guarded

end TwoLimb
