/-
# Unsigned division at every entry

Two things are shown here. A divisor that is not zero has exactly one quotient with a
remainder below it, and every entry returns that pair or its part of it, whichever
engine the call is passed on to. Divisor zero is answered by every entry before an
engine is asked.

The pair itself comes from the exactness of the engines. The entries are members of
one family, so what is said of `divisionCall` is said of all of them.
-/

import TwoLimb.Machine.Unsigned
import TwoLimb.Proofs.UInt128.Arithmetic
import TwoLimb.UInt128.DivisionTrace

namespace TwoLimb.UInt128

open Machine

/-- Every entry of the division of `a` by `b` answers with its part of `result`. -/
structure AnswersEverywhere (a b : UInt128) (result : DivMod UInt128) : Prop where
  /-- Any engine that may be selected gives the same report. -/
  passed : ∀ {α : Type} (report : Option (DivMod UInt128) → α) (strategy : Strategy),
    (divisionCall report a b).run strategy.engine = report (some result)
  divMod : a.divMod b = result
  divMod? : a.divMod? b = some result
  divModOrError : a.divModOrError b = .ok result
  tracedDivMod : (a.tracedDivMod b).1 = .ok result
  div? : a.div? b = some result.quotient
  rem? : a.rem? b = some result.remainder
  div : a.div b = .ok result.quotient
  rem : a.rem b = .ok result.remainder
  divAssign : unsignedAct .div a b = (result.quotient, .nothing)
  remAssign : unsignedAct .rem a b = (result.remainder, .nothing)

/-- An entry refuses two operands. It is the division that makes the given report, its
call is answered before an engine is asked, and `refusal` is what it returns. -/
structure Refuses {α : Type} (entry : UInt128 → UInt128 → α)
    (report : UInt128 → UInt128 → Option (DivMod UInt128) → α) (a b : UInt128)
    (refusal : α) : Prop where
  entry_eq : ∀ x y : UInt128, entry x y = divide (report x y) x y
  answered : divisionCall (report a b) a b = .answered refusal
  value : entry a b = refusal

/-- Every safe entry of the division of `a` by `b` reports its failure, and none of them
has a call left for an engine. The faults stop with their messages, and an assigning
operator leaves its target as it is. -/
structure RefusedEverywhere (a b : UInt128) : Prop where
  divMod? : Refuses UInt128.divMod? (fun _ _ => id) a b none
  divModOrError : Refuses UInt128.divModOrError (fun _ _ => orDivideByZero) a b
    (.error .divideByZero)
  tracedDivMod : Refuses UInt128.tracedDivMod traceReport a b
    (.error .divideByZero, [operandLine a b, divisionLine "zero divisor"])
  div? : Refuses UInt128.div? (fun _ _ => Option.map DivMod.quotient) a b none
  rem? : Refuses UInt128.rem? (fun _ _ => Option.map DivMod.remainder) a b none
  div : Refuses UInt128.div (fun _ _ => quotientOrFault) a b (.error .divisionByZero)
  rem : Refuses UInt128.rem (fun _ _ => remainderOrFault) a b (.error .remainderByZero)
  divAssign : unsignedAct .div a b = (a, .fault .divisionByZero)
  remAssign : unsignedAct .rem a b = (a, .fault .remainderByZero)
  div_message : Fault.divisionByZero.message = "attempt to divide by zero"
  rem_message : Fault.remainderByZero.message =
    "attempt to calculate the remainder with a divisor of zero"

variable {α : Type} {a b : UInt128} {result : DivMod UInt128}

/-- Divisor zero leaves nothing to an engine. -/
theorem divisionCall_zero (report : Option (DivMod UInt128) → α) (a : UInt128) :
    divisionCall report a .zero = .answered (report none) :=
  rfl

/-- Any other divisor is passed on with its dividend. -/
theorem divisionCall_of_ne_zero (report : Option (DivMod UInt128) → α) (a : UInt128)
    (hb : b ≠ .zero) :
    divisionCall report a b = .passed a b fun result => report (some result) := by
  rw [divisionCall, isZero_eq_false hb]
  rfl

/-- An exact engine makes the report of the exact division. -/
theorem run_divisionCall {engine : Engine} (hexact : engine.Exact) (hb : b ≠ .zero)
    (hresult : result.Divides a b) (report : Option (DivMod UInt128) → α) :
    (divisionCall report a b).run engine = report (some result) := by
  rw [divisionCall_of_ne_zero report a hb]
  have hquotient : engine.divMod a b = result := (hexact.divMod a b hb).unique hresult
  exact congrArg (fun pair => report (some pair)) hquotient

theorem answersEverywhere (hb : b ≠ .zero) (hresult : result.Divides a b) :
    AnswersEverywhere a b result := by
  have hdivide : ∀ {β : Type} (report : Option (DivMod UInt128) → β),
      divide report a b = report (some result) :=
    fun report => run_divisionCall Engine.exact_portable hb hresult report
  have hdiv : a.div b = .ok result.quotient := hdivide quotientOrFault
  have hrem : a.rem b = .ok result.remainder := hdivide remainderOrFault
  refine
    { passed := fun report strategy =>
        run_divisionCall strategy.exact_engine hb hresult report
      divMod := (divides_divMod a hb).unique hresult
      divMod? := hdivide id
      divModOrError := hdivide orDivideByZero
      tracedDivMod := congrArg Prod.fst (hdivide (traceReport a b))
      div? := hdivide (Option.map DivMod.quotient)
      rem? := hdivide (Option.map DivMod.remainder)
      div := hdiv
      rem := hrem
      divAssign := ?_
      remAssign := ?_ }
  · exact congrArg (orFault a) hdiv
  · exact congrArg (orFault a) hrem

/-- A division that makes a report refuses divisor zero with the report of nothing. -/
theorem refuses_zero (report : UInt128 → UInt128 → Option (DivMod UInt128) → α)
    (a : UInt128) :
    Refuses (fun x y => divide (report x y) x y) report a .zero (report a .zero none) where
  entry_eq _ _ := rfl
  answered := divisionCall_zero (report a .zero) a
  value := by
    rw [divide, divisionCall_zero]
    rfl

theorem refusedEverywhere (a : UInt128) : RefusedEverywhere a .zero where
  divMod? := refuses_zero _ a
  divModOrError := refuses_zero _ a
  tracedDivMod := refuses_zero traceReport a
  div? := refuses_zero _ a
  rem? := refuses_zero _ a
  div := refuses_zero _ a
  rem := refuses_zero _ a
  divAssign := rfl
  remAssign := rfl
  div_message := rfl
  rem_message := rfl

/-- A divisor that is not zero has one exact division, and all entries answer with it;
divisor zero is refused by all of them. -/
theorem division_at_every_entry (a b : UInt128) :
    (b ≠ .zero → ∃ result : DivMod UInt128,
      (∀ other : DivMod UInt128, other.Divides a b ↔ other = result) ∧
        AnswersEverywhere a b result) ∧
      (b = .zero → RefusedEverywhere a b) := by
  constructor
  · intro hb
    have hresult : (a.divMod b).Divides a b := divides_divMod a hb
    refine ⟨a.divMod b, ?_, answersEverywhere hb hresult⟩
    intro other
    constructor
    · intro hother
      exact hother.unique hresult
    · rintro rfl
      exact hresult
  · rintro rfl
    exact refusedEverywhere a

end TwoLimb.UInt128
