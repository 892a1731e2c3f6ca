/-
# Carry chains of any width

One step of a chain is exact: its carry out is worth one more place. A whole chain is
exact because the carry out of a step is the carry into the next, so all carries but the
first and the last cancel, however many words there are. A 128-bit step is two limb steps,
and its carry is that of the upper one. A chain of 128-bit words is therefore the limb
chain, two steps taken at a time.
-/

import Mathlib.Data.Nat.Digits.Defs
import TwoLimb.CarryChain
import TwoLimb.Proofs.Engine.Agreement

namespace TwoLimb.CarryChain

variable {α : Type}

/-- The words of a result, lowest first. -/
def words (result : List (α × Bool) × Bool) : List α := result.1.map Prod.fst

/-- The number that words stand for, the lowest first and every next place worth `base` of
the place before. -/
def number (base : Nat) (value : α → Nat) (digits : List α) : Nat :=
  Nat.ofDigits base (digits.map value)

/-- `result` is the sum of two numbers of the same width and a carry. The carry out is worth
one more place. -/
structure IsSum (base : Nat) (value : α → Nat) (a b : List α) (carry : Bool)
    (result : List (α × Bool) × Bool) : Prop where
  width : (words result).length = a.length
  total : number base value (words result) + result.2.toNat * base ^ a.length =
    number base value a + number base value b + carry.toNat

/-- `result` is the difference of two numbers of the same width less a borrow. The borrow
out is worth one more place. -/
structure IsDifference (base : Nat) (value : α → Nat) (a b : List α) (borrow : Bool)
    (result : List (α × Bool) × Bool) : Prop where
  width : (words result).length = a.length
  total : number base value a + result.2.toNat * base ^ a.length =
    number base value (words result) + number base value b + borrow.toNat

/-- Limbs taken two at a time, the low one first. A last limb without a partner is left
out. -/
def paired : List Limb → List UInt128
  | low :: high :: rest => ⟨high, low⟩ :: paired rest
  | _ => []

/-- The limbs of 128-bit words, the low one of each first. -/
def unpaired (wide : List UInt128) : List Limb := wide.flatMap fun word => [word.low, word.high]

/-- A chain over limbs and a chain over 128-bit words have the same limbs and the same
carry. -/
structure SameLimbs (narrow : List (Limb × Bool) × Bool) (wide : List (UInt128 × Bool) × Bool) :
    Prop where
  limbs : words narrow = unpaired (words wide)
  carry : narrow.2 = wide.2

/-! ### Exact steps make exact chains -/

section Exact

variable {base : Nat} {value : α → Nat} {step : α → α → Bool → α × Bool}

theorem number_cons (digit : α) (digits : List α) :
    number base value (digit :: digits) = value digit + base * number base value digits :=
  Nat.ofDigits_cons ..

theorem words_run_cons (a b : α) (rest : List (α × α)) (carry : Bool) :
    words (run step ((a, b) :: rest) carry) =
      (step a b carry).1 :: words (run step rest (step a b carry).2) := rfl

theorem length_words_run (pairs : List (α × α)) (carry : Bool) :
    (words (run step pairs carry)).length = pairs.length := by
  induction pairs generalizing carry with
  | nil => rfl
  | cons pair rest ih => rw [words_run_cons, List.length_cons, ih, List.length_cons]

/-- The carry out of the lowest place is the carry into the places above it. -/
theorem carry_cancels {digit x y rest xs ys place carry next last : Nat}
    (hlowest : digit + next * base = x + y + carry)
    (habove : rest + last * place = xs + ys + next) :
    digit + base * rest + last * (place * base) =
      x + base * xs + (y + base * ys) + carry := by
  have hscaled := congrArg (base * ·) habove
  simp only [Nat.mul_add] at hscaled
  rw [Nat.mul_comm base next] at hscaled
  rw [← Nat.mul_assoc, Nat.mul_comm (last * place)]
  omega

theorem run_sum (hstep : ∀ a b carry,
      value (step a b carry).1 + (step a b carry).2.toNat * base =
        value a + value b + carry.toNat)
    (pairs : List (α × α)) (carry : Bool) :
    number base value (words (run step pairs carry)) +
        (run step pairs carry).2.toNat * base ^ pairs.length =
      number base value (pairs.map Prod.fst) + number base value (pairs.map Prod.snd) +
        carry.toNat := by
  induction pairs generalizing carry with
  | nil => simp [run, words, number]
  | cons pair rest ih =>
      rw [words_run_cons, List.map_cons, List.map_cons, number_cons, number_cons, number_cons,
        List.length_cons, Nat.pow_succ]
      exact carry_cancels (hstep pair.1 pair.2 carry) (ih (step pair.1 pair.2 carry).2)

theorem run_difference (hstep : ∀ a b borrow,
      value (step a b borrow).1 + value b + borrow.toNat =
        value a + (step a b borrow).2.toNat * base)
    (pairs : List (α × α)) (borrow : Bool) :
    number base value (pairs.map Prod.fst) +
        (run step pairs borrow).2.toNat * base ^ pairs.length =
      number base value (words (run step pairs borrow)) +
        number base value (pairs.map Prod.snd) + borrow.toNat := by
  induction pairs generalizing borrow with
  | nil => simp [run, words, number]
  | cons pair rest ih =>
      rw [words_run_cons, List.map_cons, List.map_cons, number_cons, number_cons, number_cons,
        List.length_cons, Nat.pow_succ]
      exact carry_cancels (hstep pair.1 pair.2 borrow).symm (ih (step pair.1 pair.2 borrow).2)

variable {a b : List α} (hwidth : a.length = b.length)

include hwidth

theorem isSum_run (hstep : ∀ a b carry,
      value (step a b carry).1 + (step a b carry).2.toNat * base =
        value a + value b + carry.toNat) (carry : Bool) :
    IsSum base value a b carry (run step (a.zip b) carry) := by
  have hpairs : (a.zip b).length = a.length := by rw [List.length_zip, ← hwidth, Nat.min_self]
  have htotal := run_sum hstep (a.zip b) carry
  rw [List.map_fst_zip (Nat.le_of_eq hwidth), List.map_snd_zip (Nat.le_of_eq hwidth.symm),
    hpairs] at htotal
  exact ⟨(length_words_run _ _).trans hpairs, htotal⟩

theorem isDifference_run (hstep : ∀ a b borrow,
      value (step a b borrow).1 + value b + borrow.toNat =
        value a + (step a b borrow).2.toNat * base) (borrow : Bool) :
    IsDifference base value a b borrow (run step (a.zip b) borrow) := by
  have hpairs : (a.zip b).length = a.length := by rw [List.length_zip, ← hwidth, Nat.min_self]
  have htotal := run_difference hstep (a.zip b) borrow
  rw [List.map_fst_zip (Nat.le_of_eq hwidth), List.map_snd_zip (Nat.le_of_eq hwidth.symm),
    hpairs] at htotal
  exact ⟨(length_words_run _ _).trans hpairs, htotal⟩

end Exact

/-! ### Two limb steps in one -/

theorem unpaired_cons (word : UInt128) (rest : List UInt128) :
    unpaired (word :: rest) = word.low :: word.high :: unpaired rest := rfl

/-- Limbs of an even number are the limbs of the words that they pair up to. -/
theorem unpaired_paired {n : Nat} {limbs : List Limb} (hlength : limbs.length = 2 * n) :
    unpaired (paired limbs) = limbs := by
  induction n generalizing limbs with
  | zero =>
      obtain rfl := List.eq_nil_of_length_eq_zero hlength
      rfl
  | succ n ih =>
      obtain ⟨low, rest, rfl⟩ := List.exists_cons_of_length_eq_add_one (n := 2 * n + 1) hlength
      obtain ⟨high, rest, rfl⟩ := List.exists_cons_of_length_eq_add_one (n := 2 * n)
        (Nat.succ.inj hlength)
      rw [paired, unpaired_cons, ih (Nat.succ.inj (Nat.succ.inj hlength))]

/-- A step on 128-bit words that is two steps on limbs, the carry of the low one entering
the high one, takes the limb chain two steps further. -/
theorem sameLimbs_run {narrow : Limb → Limb → Bool → Limb × Bool}
    {wide : UInt128 → UInt128 → Bool → UInt128 × Bool}
    (hstep : ∀ a b carry, wide a b carry =
      (⟨(narrow a.high b.high (narrow a.low b.low carry).2).1, (narrow a.low b.low carry).1⟩,
        (narrow a.high b.high (narrow a.low b.low carry).2).2))
    (a b : List UInt128) (carry : Bool) :
    SameLimbs (run narrow ((unpaired a).zip (unpaired b)) carry) (run wide (a.zip b) carry) := by
  induction a generalizing b carry with
  | nil => exact ⟨rfl, rfl⟩
  | cons x a ih =>
      cases b with
      | nil => exact ⟨rfl, rfl⟩
      | cons y b =>
          have hrest := ih b (wide x y carry).2
          rw [hstep x y carry] at hrest
          refine ⟨?_, ?_⟩
          · rw [List.zip_cons_cons, words_run_cons, hstep x y carry, unpaired_cons,
              unpaired_cons, unpaired_cons, ← hrest.limbs]
            rfl
          · rw [List.zip_cons_cons, run, hstep x y carry]
            exact hrest.carry

theorem sameLimbs_of_paired {narrow : Limb → Limb → Bool → Limb × Bool}
    {wide : UInt128 → UInt128 → Bool → UInt128 × Bool}
    (hstep : ∀ a b carry, wide a b carry =
      (⟨(narrow a.high b.high (narrow a.low b.low carry).2).1, (narrow a.low b.low carry).1⟩,
        (narrow a.high b.high (narrow a.low b.low carry).2).2))
    {n : Nat} {a b : List Limb} (ha : a.length = 2 * n) (hb : b.length = 2 * n) (carry : Bool) :
    SameLimbs (run narrow (a.zip b) carry) (run wide ((paired a).zip (paired b)) carry) := by
  have hsame := sameLimbs_run hstep (paired a) (paired b) carry
  rwa [unpaired_paired ha, unpaired_paired hb] at hsame

/-- Carry chains are exact at every width, over limbs and over 128-bit words, and both kinds
of chain give the same limbs and the same carry. Their steps are those of every engine that
may be selected. -/
theorem exact_at_every_width :
    (∀ (n : Nat) (a b : Vector Limb n) (carry : Bool),
      IsSum (2 ^ 64) UInt64.toNat a.toList b.toList carry (add a.toList b.toList carry) ∧
      IsDifference (2 ^ 64) UInt64.toNat a.toList b.toList carry
        (sub a.toList b.toList carry)) ∧
    (∀ (n : Nat) (a b : Vector UInt128 n) (carry : Bool),
      IsSum (2 ^ 128) UInt128.toNat a.toList b.toList carry (add a.toList b.toList carry) ∧
      IsDifference (2 ^ 128) UInt128.toNat a.toList b.toList carry
        (sub a.toList b.toList carry)) ∧
    (∀ (n : Nat) (a b : Vector Limb (2 * n)) (carry : Bool),
      SameLimbs (add a.toList b.toList carry)
        (add (paired a.toList) (paired b.toList) carry) ∧
      SameLimbs (sub a.toList b.toList carry)
        (sub (paired a.toList) (paired b.toList) carry)) ∧
    (∀ strategy : Strategy,
      strategy.engine.addWithCarry = CarryWord.addWithCarry ∧
      strategy.engine.subWithBorrow = CarryWord.subWithBorrow ∧
      strategy.engine.add = CarryWord.addWithCarry ∧
      strategy.engine.sub = CarryWord.subWithBorrow) := by
  have hexact := Engine.exact_portable
  refine ⟨fun n a b carry => ?_, fun n a b carry => ?_, fun n a b carry => ?_,
    fun strategy => ?_⟩
  · have hwidth : a.toList.length = b.toList.length := by simp
    exact ⟨isSum_run hwidth hexact.addWithCarry carry,
      isDifference_run hwidth hexact.subWithBorrow carry⟩
  · have hwidth : a.toList.length = b.toList.length := by simp
    exact ⟨isSum_run hwidth hexact.add carry, isDifference_run hwidth hexact.sub carry⟩
  · exact ⟨sameLimbs_of_paired (fun _ _ _ => rfl) a.length_toList b.length_toList carry,
      sameLimbs_of_paired (fun _ _ _ => rfl) a.length_toList b.length_toList carry⟩
  · have hagree := strategy.engines_agree .portable
    refine ⟨?_, ?_, ?_, ?_⟩
    · funext a b carry
      exact hagree.addWithCarry a b carry
    · funext a b borrow
      exact hagree.subWithBorrow a b borrow
    · funext a b carry
      exact hagree.add a b carry
    · funext a b borrow
      exact hagree.sub a b borrow

end TwoLimb.CarryChain
