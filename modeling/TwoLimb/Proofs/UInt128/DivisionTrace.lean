/-
# The trace of a division is the truth

A traced division says which way it takes before it divides. It reads the way off its
operands, and the engine looks at the same operands again when it divides. So there are two
case distinctions and two alignments, and nothing in the text of either makes them agree.

Here the division of the engine is executed step by step: one rule for each branch, and for
the loop a counter that goes up until it passes the shift. An execution records the branch
and the number of iterations. It turns out that every division has exactly one execution,
that the trace names its branch and its iterations, and that no other branch could have left
the same line.
-/

import TwoLimb.Proofs.Text.CanonicalNumeral
import TwoLimb.Proofs.UInt128.Division

namespace TwoLimb

namespace Engine.Limbwise

/-- The loop of restoring division. The counter goes up by one in each iteration, and the loop
ends when the counter has passed the shift. -/
inductive Restoring.Loops (ops : LimbOps) (shift : Nat) :
    (counter : Nat) → (s : Restoring) → (iterations : Nat) → (last : Restoring) → Prop
  | done {counter : Nat} {s : Restoring} (hcounter : shift < counter) :
      Loops ops shift counter s 0 s
  | next {counter iterations : Nat} {s last : Restoring} (hcounter : counter ≤ shift)
      (hrest : Loops ops shift (counter + 1) (s.round ops) iterations last) :
      Loops ops shift counter s (iterations + 1) last

/-- The executions of a division by a divisor that is not zero, with the branch that they take
and their result. The shift is a difference that does not go below zero. -/
inductive Executes (ops : LimbOps) (dividend divisor : UInt128) :
    DivisionPath → DivMod UInt128 → Prop
  | oneLimb (hhigh : divisor.high = 0) :
      Executes ops dividend divisor (.oneLimb divisor.low) (divModLimb ops dividend divisor.low)
  | divisorExceeds (hhigh : divisor.high ≠ 0)
      (hgreater : divisor.isGreaterThan dividend = true) :
      Executes ops dividend divisor .divisorExceeds ⟨.zero, dividend⟩
  | twoLimb {shift iterations : Nat} {last : Restoring} (hhigh : divisor.high ≠ 0)
      (hgreater : divisor.isGreaterThan dividend = false)
      (hshift : divisor.leadingZeros = dividend.leadingZeros + shift)
      (hloop : Restoring.Loops ops shift 0 (.start dividend divisor shift) iterations last) :
      Executes ops dividend divisor (.twoLimb iterations) ⟨last.quotient, last.remainder⟩

namespace Restoring

variable {ops : LimbOps} {shift counter iterations : Nat} {s last : Restoring}

/-- A loop that has not passed the shift runs for what is left up to it. -/
theorem Loops.eq_run (hloop : Loops ops shift counter s iterations last)
    (hcounter : counter ≤ shift + 1) :
    counter + iterations = shift + 1 ∧ last = run ops iterations s := by
  induction hloop with
  | done hpassed => exact ⟨Nat.le_antisymm hcounter hpassed, rfl⟩
  | next hnot _ ih =>
      obtain ⟨hcount, hlast⟩ := ih (Nat.succ_le_succ hnot)
      refine ⟨?_, hlast⟩
      rw [← hcount, Nat.add_assoc, Nat.add_comm 1]

theorem loops_run (hcount : counter + iterations = shift + 1) :
    Loops ops shift counter s iterations (run ops iterations s) := by
  induction iterations generalizing counter s with
  | zero => exact .done (Nat.lt_of_succ_le (Nat.le_of_eq hcount.symm))
  | succ iterations ih =>
      have hnot : counter ≤ shift := by
        apply Nat.le_of_lt_succ
        rw [Nat.succ_eq_add_one, ← hcount]
        exact Nat.lt_add_of_pos_right (Nat.succ_pos iterations)
      refine .next hnot (ih ?_)
      rw [← hcount, Nat.add_assoc, Nat.add_comm 1]

/-- From the start, the loop has one iteration more than the shift has places. -/
theorem loops_zero_iff : Loops ops shift 0 s iterations last ↔
    iterations = shift + 1 ∧ last = run ops iterations s := by
  constructor
  · intro hloop
    obtain ⟨hcount, hlast⟩ := hloop.eq_run (Nat.zero_le _)
    exact ⟨by rw [← hcount, Nat.zero_add], hlast⟩
  · rintro ⟨hcount, rfl⟩
    exact loops_run (by rw [hcount, Nat.zero_add])

end Restoring

variable {ops : LimbOps} {dividend divisor : UInt128} {path : DivisionPath}
  {result : DivMod UInt128}

theorem le_of_not_isGreaterThan (hgreater : divisor.isGreaterThan dividend = false) :
    divisor.toNat ≤ dividend.toNat := by
  rw [Bool.eq_false_iff, ne_eq, UInt128.isGreaterThan_iff] at hgreater
  exact Nat.le_of_not_lt hgreater

/-- The alignment of a divisor that does not exceed the dividend is a true difference. -/
theorem leadingZeros_eq_add_alignment (hdivisor : divisor.toNat ≠ 0)
    (hle : divisor.toNat ≤ dividend.toNat) :
    divisor.leadingZeros = dividend.leadingZeros + alignment dividend divisor := by
  have hdividend : dividend.toNat ≠ 0 := by omega
  have hlog : divisor.toNat.log2 ≤ dividend.toNat.log2 :=
    (Nat.le_log2 hdividend).mpr (Nat.le_trans (Nat.log2_self_le hdivisor) hle)
  have hzeros : dividend.leadingZeros ≤ divisor.leadingZeros := by
    rw [UInt128.leadingZeros_eq hdividend, UInt128.leadingZeros_eq hdivisor]
    exact Nat.sub_le_sub_left hlog _
  rw [alignment, Nat.add_sub_cancel' hzeros]

/-- An execution comes to the result of the division. -/
theorem Executes.result_eq (hexecution : Executes ops dividend divisor path result) :
    result = divMod ops dividend divisor := by
  cases hexecution with
  | oneLimb hhigh => rw [divMod, if_pos hhigh]
  | divisorExceeds hhigh hgreater => rw [divMod, if_neg hhigh, if_pos hgreater]
  | twoLimb hhigh hgreater hshift hloop =>
      obtain ⟨rfl, rfl⟩ := Restoring.loops_zero_iff.mp hloop
      have halignment : alignment dividend divisor = _ := Nat.sub_eq_of_eq_add' hshift
      rw [divMod, if_neg hhigh, if_neg (Bool.eq_false_iff.mp hgreater), divModRestoring,
        halignment]

/-- An execution takes the branch that the operands show. -/
theorem Executes.path_eq (hexecution : Executes ops dividend divisor path result)
    (hdivisor : divisor ≠ .zero) : path = dividend.divisionPath divisor := by
  have hzero : ¬divisor.isZero = true := by
    simpa using UInt128.isZero_eq_false hdivisor
  rw [UInt128.divisionPath, if_neg hzero]
  cases hexecution with
  | oneLimb hhigh => rw [if_pos hhigh]
  | divisorExceeds hhigh hgreater => rw [if_neg hhigh, if_pos hgreater]
  | twoLimb hhigh hgreater hshift hloop =>
      obtain ⟨rfl, -⟩ := Restoring.loops_zero_iff.mp hloop
      rw [if_neg hhigh, if_neg (Bool.eq_false_iff.mp hgreater), hshift, Nat.add_sub_cancel_left]

/-- Every division by a divisor that is not zero is executed. -/
theorem executes_divisionPath (ops : LimbOps) (dividend : UInt128) (hdivisor : divisor ≠ .zero) :
    Executes ops dividend divisor (dividend.divisionPath divisor)
      (divMod ops dividend divisor) := by
  -- The operands decide which rule applies; what it gives is known from any execution.
  suffices hsome : ∃ path result, Executes ops dividend divisor path result by
    obtain ⟨path, result, hexecution⟩ := hsome
    rw [← hexecution.path_eq hdivisor, ← hexecution.result_eq]
    exact hexecution
  by_cases hhigh : divisor.high = 0
  · exact ⟨_, _, .oneLimb hhigh⟩
  · cases hgreater : divisor.isGreaterThan dividend with
    | true => exact ⟨_, _, .divisorExceeds hhigh hgreater⟩
    | false =>
        have hle := le_of_not_isGreaterThan hgreater
        have hshift :=
          leadingZeros_eq_add_alignment (UInt128.toNat_ne_zero_of_high hhigh) hle
        exact ⟨_, _, .twoLimb hhigh hgreater hshift (Restoring.loops_zero_iff.mpr ⟨rfl, rfl⟩)⟩

/-- The rounds of an execution fit a limb, and the quotient has no more bits than there were
rounds. -/
theorem Executes.rounds_bounds {rounds : Nat} (hops : ops.Exact)
    (hexecution : Executes ops dividend divisor (.twoLimb rounds) result) :
    1 ≤ rounds ∧ rounds ≤ 64 ∧ result.quotient.toNat < 2 ^ rounds := by
  cases hexecution with
  | @twoLimb shift _ last hhigh hgreater hshift hloop =>
      have hle := le_of_not_isGreaterThan hgreater
      have halignment : alignment dividend divisor = shift := Nat.sub_eq_of_eq_add' hshift
      have hlt := alignment_lt hhigh hle
      have hstart := Restoring.Invariant.start (UInt128.toNat_ne_zero_of_high hhigh) hle
        (Nat.lt_trans hlt (by decide))
      rw [halignment] at hlt hstart
      obtain ⟨rfl, rfl⟩ := Restoring.loops_zero_iff.mp hloop
      have hlast := hstart.run hops (Nat.le_trans hlt (by decide)) (Nat.le_refl _)
      exact ⟨Nat.le_add_left 1 shift, hlt, hlast.quotient_lt⟩

end Engine.Limbwise

/-! ### Lines of a trace -/

namespace DivisionPath

theorem describe_oneLimb (divisor : Limb) :
    describe (.oneLimb divisor) =
      "one limb divisor 0x"
        ++ String.ofList (Text.asciiChars (Text.digits (.ofLimb divisor) .hexadecimal false))
        ++ ", wide division" :=
  rfl

theorem describe_twoLimb (rounds : Nat) :
    describe (.twoLimb rounds) =
      "two limb divisor, " ++ Nat.repr rounds ++ " shift-subtract rounds" :=
  rfl

/-- The letter that the description of a way starts with. -/
def initial : DivisionPath → Char
  | .zeroDivisor => 'z'
  | .oneLimb _ => 'o'
  | .divisorExceeds => 'd'
  | .twoLimb _ => 't'

theorem head?_describe (path : DivisionPath) :
    path.describe.toList.head? = some path.initial := by
  cases path with
  | zeroDivisor | divisorExceeds => decide
  | oneLimb divisor => simp [describe_oneLimb, initial]
  | twoLimb rounds => simp [describe_twoLimb, initial]

/-- Ways that are described alike are the same way. -/
theorem describe_inj {path other : DivisionPath} :
    path.describe = other.describe ↔ path = other := by
  refine ⟨fun htext => ?_, fun h => h ▸ rfl⟩
  have hinitial : path.initial = other.initial := by
    rw [← Option.some_inj, ← head?_describe, ← head?_describe, htext]
  -- The initials leave only pairs of one kind, and two kinds come with a number.
  cases path <;> cases other
  case oneLimb.oneLimb divisor other =>
    rw [describe_oneLimb, describe_oneLimb, String.append_left_inj, String.append_right_inj,
      String.ofList_inj, Text.asciiChars_digits, Text.asciiChars_digits, Text.coreDigits_inj,
      UInt128.toNat_inj] at htext
    exact congrArg (fun limbs => oneLimb limbs.low) htext
  case twoLimb.twoLimb rounds other =>
    rw [describe_twoLimb, describe_twoLimb, String.append_left_inj, String.append_right_inj,
      Text.repr_eq_coreDigits, Text.repr_eq_coreDigits, String.ofList_inj,
      Text.coreDigits_inj] at htext
    rw [htext]
  all_goals simp [initial] at hinitial ⊢

end DivisionPath

namespace UInt128

open Engine.Limbwise

/-- What happens when `a` is divided by `b`, and what comes of it. Divisor zero is refused
before an engine is asked; any other division is executed by the portable engine. -/
inductive Takes (a b : UInt128) : DivisionPath → Except Error (DivMod UInt128) → Prop
  | refused (hb : b = .zero) : Takes a b .zeroDivisor (.error .divideByZero)
  | executed {path : DivisionPath} {result : DivMod UInt128} (hb : b ≠ .zero)
      (hexecution : Executes Engine.Portable.limbOps a b path result) :
      Takes a b path (.ok result)

/-- The line that closes a trace: the numbers of the result, and nothing where there is
none. -/
def closing : Except Error (DivMod UInt128) → List LogLine
  | .error _ => []
  | .ok result =>
      [divisionLine ("quotient " ++ Nat.repr result.quotient.toNat
        ++ " remainder " ++ Nat.repr result.remainder.toNat)]

theorem divisionLine_inj {text other : String} :
    divisionLine text = divisionLine other ↔ text = other := by
  rw [divisionLine, divisionLine, LogLine.mk.injEq, String.append_right_inj]
  simp

theorem head?_toDecimal (a : UInt128) :
    ∃ digit : Char, digit.isDigit = true ∧ a.toDecimal.toList.head? = some digit := by
  have hnonempty : Nat.toDigits 10 a.toNat ≠ [] := Nat.toDigits_ne_nil
  refine ⟨(Nat.toDigits 10 a.toNat).head hnonempty, ?_, ?_⟩
  · exact Nat.isDigit_of_mem_toDigits (by decide) (by decide) (List.head_mem hnonempty)
  · rw [Text.toDecimal_eq, Nat.repr_eq_ofList_toDigits, String.toList_ofList,
      List.head?_eq_some_head hnonempty]

/-- The line of the operands starts with a digit, so it describes no way. -/
theorem operandLine_ne (a b : UInt128) (path : DivisionPath) :
    divisionLine path.describe ≠ operandLine a b := by
  intro hline
  obtain ⟨digit, hdigit, hhead⟩ := a.head?_toDecimal
  rw [operandLine, divisionLine_inj] at hline
  have hfirst := congrArg (fun text => text.toList.head?) hline
  simp only [path.head?_describe, String.toList_append, List.append_assoc, List.head?_append,
    hhead, Option.some_or, Option.some_inj] at hfirst
  have hletter : path.initial.isDigit = false := by
    cases path <;> rfl
  rw [hfirst, hdigit] at hletter
  exact Bool.noConfusion hletter

/-- The line of the result is about a quotient, so it describes no way. -/
theorem resultLine_ne (result : DivMod UInt128) (path : DivisionPath) :
    divisionLine path.describe ≠ resultLine result := by
  intro hline
  rw [resultLine, divisionLine_inj] at hline
  have hfirst := congrArg (fun text => text.toList.head?) hline
  simp only [path.head?_describe, String.toList_append, List.append_assoc] at hfirst
  cases path <;> simp [DivisionPath.initial] at hfirst

theorem resultLine_eq (result : DivMod UInt128) : [resultLine result] = closing (.ok result) := by
  rw [resultLine, Text.toDecimal_eq, Text.toDecimal_eq, closing]

variable {a b : UInt128} {path : DivisionPath} {outcome : Except Error (DivMod UInt128)}

/-- The way and the outcome of a division are read off its operands. -/
theorem takes_iff : Takes a b path outcome ↔
    path = a.divisionPath b ∧ outcome = a.divModOrError b := by
  by_cases hb : b = .zero
  · subst hb
    constructor
    · rintro (_ | ⟨hb, -⟩)
      · exact ⟨rfl, rfl⟩
      · exact absurd rfl hb
    · rintro ⟨rfl, rfl⟩
      exact .refused rfl
  · have houtcome : a.divModOrError b = .ok (Engine.portable.divMod a b) := by
      rw [divModOrError, divide, divisionCall_of_ne_zero _ _ hb]
      rfl
    rw [houtcome]
    constructor
    · rintro (hzero | ⟨-, hexecution⟩)
      · exact absurd hzero hb
      · rw [hexecution.path_eq hb, hexecution.result_eq]
        exact ⟨rfl, rfl⟩
    · rintro ⟨rfl, rfl⟩
      exact .executed hb (executes_divisionPath Engine.Portable.limbOps a hb)

/-- The trace consists of the operands, the way and the outcome. -/
theorem tracedDivMod_eq (a b : UInt128) :
    a.tracedDivMod b = (a.divModOrError b,
      [operandLine a b, divisionLine (a.divisionPath b).describe]
        ++ closing (a.divModOrError b)) := by
  have hreport : ∀ answer : Option (DivMod UInt128), traceReport a b answer =
      (orDivideByZero answer,
        [operandLine a b, divisionLine (a.divisionPath b).describe]
          ++ closing (orDivideByZero answer)) := by
    intro answer
    cases answer with
    | none => rfl
    | some result =>
        rw [orDivideByZero, ← resultLine_eq]
        rfl
  rw [tracedDivMod, divModOrError, divide, divide, divisionCall, divisionCall]
  split
  · exact hreport none
  · exact hreport (some _)

/-- The line of a way is in the trace of the divisions that take it. -/
theorem divisionLine_mem_iff :
    divisionLine path.describe ∈ (a.tracedDivMod b).2 ↔ path = a.divisionPath b := by
  have hclosing : divisionLine path.describe ∉ closing (a.divModOrError b) := by
    cases a.divModOrError b with
    | error => exact List.not_mem_nil
    | ok result =>
        rw [← resultLine_eq, List.mem_singleton]
        exact resultLine_ne result path
  rw [tracedDivMod_eq, List.mem_append, List.mem_cons, List.mem_singleton, divisionLine_inj,
    DivisionPath.describe_inj]
  simp [operandLine_ne, hclosing]

/-- The line of a way in whatever words it is written. -/
theorem line_mem_iff {text : String} (htext : "div_mod: " ++ path.describe = text) :
    ⟨.debug, text⟩ ∈ (a.tracedDivMod b).2 ↔ ∃ outcome, Takes a b path outcome := by
  subst htext
  change divisionLine path.describe ∈ _ ↔ _
  simp [divisionLine_mem_iff, takes_iff]

/-- The words of a trace. Which of them are written tells what happens: the division is refused
and the trace ends there, or it goes by one limb, or nothing is divided, or the loop of the
shift-subtract rounds runs as many times as is written. -/
structure SaysInWords (a b : UInt128) : Prop where
  operands : (a.tracedDivMod b).2.head? =
    some ⟨.debug, "div_mod: " ++ (Nat.repr a.toNat ++ " / " ++ Nat.repr b.toNat ++ " in mode "
      ++ Engine.selected.strategy.name)⟩
  zeroDivisor : (a.tracedDivMod b).2.tail = [⟨.debug, "div_mod: zero divisor"⟩] ↔ b = .zero
  oneLimb : ∀ divisor : Limb,
    ⟨.debug, "div_mod: one limb divisor 0x" ++ String.ofList (Nat.toDigits 16 divisor.toNat)
      ++ ", wide division"⟩ ∈ (a.tracedDivMod b).2 ↔
    ∃ outcome, Takes a b (.oneLimb divisor) outcome
  divisorExceeds :
    ⟨.debug, "div_mod: divisor exceeds dividend, quotient zero"⟩ ∈ (a.tracedDivMod b).2 ↔
    ∃ outcome, Takes a b .divisorExceeds outcome
  twoLimb : ∀ rounds : Nat,
    ⟨.debug, "div_mod: two limb divisor, " ++ Nat.repr rounds ++ " shift-subtract rounds"⟩ ∈
      (a.tracedDivMod b).2 ↔
    ∃ outcome, Takes a b (.twoLimb rounds) outcome

theorem tail_tracedDivMod_eq_iff (a b : UInt128) :
    (a.tracedDivMod b).2.tail = [⟨.debug, "div_mod: zero divisor"⟩] ↔ b = .zero := by
  constructor
  · intro htail
    have hline : ⟨.debug, "div_mod: zero divisor"⟩ ∈ (a.tracedDivMod b).2 := by
      apply List.mem_of_mem_tail
      rw [htail]
      exact List.mem_singleton_self _
    have htaken : ∃ outcome, Takes a b .zeroDivisor outcome := (line_mem_iff rfl).mp hline
    obtain ⟨outcome, htakes⟩ := htaken
    cases htakes with
    | refused hb => exact hb
    | executed _ hexecution => nomatch hexecution
  · rintro rfl
    rw [tracedDivMod_eq]
    rfl

theorem saysInWords (a b : UInt128) : SaysInWords a b where
  operands := by
    rw [tracedDivMod_eq, operandLine, Text.toDecimal_eq, Text.toDecimal_eq]
    rfl
  zeroDivisor := tail_tracedDivMod_eq_iff a b
  oneLimb divisor := line_mem_iff <| by
    have hdigits : String.ofList (Text.asciiChars (Text.digits (.ofLimb divisor) .hexadecimal
        false)) = String.ofList (Nat.toDigits 16 divisor.toNat) := by
      rw [Text.asciiChars_digits, toNat_ofLimb]
      rfl
    rw [DivisionPath.describe_oneLimb, hdigits, ← String.append_assoc, ← String.append_assoc]
    rfl
  divisorExceeds := line_mem_iff rfl
  twoLimb rounds := line_mem_iff <| by
    rw [DivisionPath.describe_twoLimb, ← String.append_assoc, ← String.append_assoc]
    rfl

/-- The traced division tells the truth. It returns what the division returns. After the
operands it logs the way that the division takes, with the number of iterations of the loop
where there is one, then the numbers that are returned, and nothing after a refusal. The line
of a way is in the trace just when that way is taken, and the words of the lines are those that
a reader sees. The loop runs between once and 64 times, and the quotient has no more bits than
it ran times. -/
theorem trace_tells_division (a b : UInt128) :
    (a.tracedDivMod b).1 = a.divModOrError b ∧
    (∃ path outcome, Takes a b path outcome) ∧
    (∀ path outcome, Takes a b path outcome → a.tracedDivMod b =
      (outcome, [operandLine a b, divisionLine path.describe] ++ closing outcome)) ∧
    (∀ path, divisionLine path.describe ∈ (a.tracedDivMod b).2 ↔
      ∃ outcome, Takes a b path outcome) ∧
    (∀ path result, Takes a b path (.ok result) → Engine.portable.divMod a b = result) ∧
    (∀ rounds result, Takes a b (.twoLimb rounds) (.ok result) →
      1 ≤ rounds ∧ rounds ≤ 64 ∧ result.quotient.toNat < 2 ^ rounds) ∧
    SaysInWords a b := by
  refine ⟨by rw [tracedDivMod_eq], ⟨_, _, takes_iff.mpr ⟨rfl, rfl⟩⟩, ?_, ?_, ?_, ?_,
    saysInWords a b⟩
  · intro path outcome htakes
    obtain ⟨rfl, rfl⟩ := takes_iff.mp htakes
    exact tracedDivMod_eq a b
  · intro path
    simp [divisionLine_mem_iff, takes_iff]
  · intro path result htakes
    cases htakes with
    | executed _ hexecution => exact hexecution.result_eq.symm
  · intro rounds result htakes
    cases htakes with
    | executed _ hexecution => exact hexecution.rounds_bounds Engine.Portable.exact_limbOps

end UInt128

end TwoLimb
