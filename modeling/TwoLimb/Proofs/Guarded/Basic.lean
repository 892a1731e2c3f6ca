/-
# Guarded operations

A build with its checks on stops where a sum, a difference or a product leaves its word,
where a word is shifted by its width or more, where a limb is divided by zero, where an
index lies outside its array, and where an assertion fails. A guarded operation is an
operation with these checks written out at the places where they are made: it stops at the
first that fails, and has the result of the operation when none does.

Each primitive stands beside the lemma that says when it passes. To show that an operation
never stops is to show these conditions along its way, and then the guarded operation is
the operation itself.
-/

import TwoLimb.Fault
import TwoLimb.Limb

namespace TwoLimb

/-- Why a guarded operation stops. -/
inductive Stop
  /-- A sum, a difference or a product leaves its word. -/
  | overflow
  /-- A word is shifted by its width or more. -/
  | shiftWidth
  /-- A limb is divided by zero. -/
  | zeroDivisor
  /-- An index or the end of a slice lies outside the array. -/
  | outOfBounds
  /-- An assertion about an argument fails. -/
  | assertion
  /-- One of the faults that callers are told of. -/
  | fault (fault : Fault)
deriving DecidableEq

/-- The outcome of an operation with its checks on. -/
abbrev Guarded (α : Type) := Except Stop α

namespace Guarded

variable {α β : Type}

@[simp]
theorem ok_bind (x : α) (f : α → Guarded β) : (Except.ok x >>= f) = f x := by
  -- Cases instead of `rfl`: rewrites are then recorded, and a long chain of checks is not run
  -- again where a proof is checked.
  cases hresult : f x <;> exact hresult

/-- The value where the condition holds. All checks are made by this one. -/
def provided (condition : Prop) [Decidable condition] (stop : Stop) (value : α) : Guarded α :=
  if condition then .ok value else .error stop

theorem provided_eq {condition : Prop} [Decidable condition] (hcondition : condition)
    (stop : Stop) (value : α) : provided condition stop value = .ok value :=
  if_pos hcondition

/-- A branch passes when both of its sides do. -/
theorem ite_ok {condition : Prop} [Decidable condition] {x y : Guarded α} {u v : α}
    (hx : x = .ok u) (hy : y = .ok v) :
    (if condition then x else y) = .ok (if condition then u else v) := by
  rw [hx, hy]
  split <;> rfl

/-- An assertion. -/
def require (condition : Prop) [Decidable condition] (stop : Stop) : Guarded Unit :=
  provided condition stop ()

theorem require_eq {condition : Prop} [Decidable condition] (hcondition : condition)
    (stop : Stop) : require condition stop = .ok () :=
  provided_eq hcondition stop ()

/-- An outcome with the faults that callers are told of, among all the reasons to stop. -/
def documented : Except Fault α → Guarded α := Except.mapError .fault

@[simp]
theorem documented_ok (x : α) : documented (.ok x) = .ok x := rfl

@[simp]
theorem documented_error (fault : Fault) :
    (documented (.error fault) : Guarded α) = .error (.fault fault) :=
  rfl

/-! ### Words of a given width -/

/-- Sum of two words of the given width. -/
def sum (width a b : Nat) : Guarded Nat := provided (a + b < 2 ^ width) .overflow (a + b)

theorem sum_eq {width a b : Nat} (hfits : a + b < 2 ^ width) : sum width a b = .ok (a + b) :=
  provided_eq hfits _ _

/-- Difference of two words. -/
def difference (a b : Nat) : Guarded Nat := provided (b ≤ a) .overflow (a - b)

theorem difference_eq {a b : Nat} (hle : b ≤ a) : difference a b = .ok (a - b) :=
  provided_eq hle _ _

/-- An integer that a signed 32-bit word holds. -/
def int32 (n : Int) : Guarded Int := provided (-2 ^ 31 ≤ n ∧ n < 2 ^ 31) .overflow n

theorem int32_eq {n : Int} (hfits : -2 ^ 31 ≤ n ∧ n < 2 ^ 31) : int32 n = .ok n :=
  provided_eq hfits _ _

/-! ### Limbs -/

def limbSum (a b : Limb) : Guarded Limb :=
  provided (a.toNat + b.toNat < 2 ^ 64) .overflow (a + b)

theorem limbSum_eq {a b : Limb} (hfits : a.toNat + b.toNat < 2 ^ 64) :
    limbSum a b = .ok (a + b) :=
  provided_eq hfits _ _

def limbDifference (a b : Limb) : Guarded Limb := provided (b ≤ a) .overflow (a - b)

theorem limbDifference_eq {a b : Limb} (hle : b ≤ a) : limbDifference a b = .ok (a - b) :=
  provided_eq hle _ _

def limbProduct (a b : Limb) : Guarded Limb :=
  provided (a.toNat * b.toNat < 2 ^ 64) .overflow (a * b)

theorem limbProduct_eq {a b : Limb} (hfits : a.toNat * b.toNat < 2 ^ 64) :
    limbProduct a b = .ok (a * b) :=
  provided_eq hfits _ _

def limbQuotient (a b : Limb) : Guarded Limb := provided (b ≠ 0) .zeroDivisor (a / b)

theorem limbQuotient_eq (a : Limb) {b : Limb} (hb : b ≠ 0) : limbQuotient a b = .ok (a / b) :=
  provided_eq hb _ _

def limbRemainder (a b : Limb) : Guarded Limb := provided (b ≠ 0) .zeroDivisor (a % b)

theorem limbRemainder_eq (a : Limb) {b : Limb} (hb : b ≠ 0) : limbRemainder a b = .ok (a % b) :=
  provided_eq hb _ _

def limbShl (x : Limb) (amount : Nat) : Guarded Limb :=
  provided (amount < Limb.bits) .shiftWidth (x.shl amount)

theorem limbShl_eq (x : Limb) {amount : Nat} (hamount : amount < 64) :
    limbShl x amount = .ok (x.shl amount) :=
  provided_eq hamount _ _

def limbShr (x : Limb) (amount : Nat) : Guarded Limb :=
  provided (amount < Limb.bits) .shiftWidth (x.shr amount)

theorem limbShr_eq (x : Limb) {amount : Nat} (hamount : amount < 64) :
    limbShr x amount = .ok (x.shr amount) :=
  provided_eq hamount _ _

/-- The places by which an amount for two limbs reaches beyond the first. -/
theorem sub_bits_lt {amount : Nat} (hamount : amount < 128) : amount - Limb.bits < 64 := by
  simp only [Limb.bits]
  omega

/-- The limb whose lowest bits are set, one less than a power of two. -/
def lowMask (places : Nat) : Guarded Limb := do
  let place ← limbShl 1 places
  limbDifference place 1

theorem lowMask_eq {places : Nat} (hplaces : places < 64) :
    lowMask places = .ok (Limb.shl 1 places - 1) := by
  have hplace : (1 : Limb) ≤ Limb.shl 1 places := by
    rw [UInt64.le_iff_toNat_le, Limb.toNat_shl 1 hplaces, UInt64.toNat_one, Nat.one_mul,
      Nat.mod_eq_of_lt (Nat.pow_lt_pow_right (by decide) hplaces)]
    exact Nat.one_le_two_pow
  rw [lowMask, limbShl_eq 1 hplaces, ok_bind, limbDifference_eq hplace]

/-! ### Arrays and slices -/

/-- The element at an index. -/
def fetch (items : List α) (index : Nat) : Guarded α :=
  match items[index]? with
  | some item => .ok item
  | none => .error .outOfBounds

theorem fetch_eq {items : List α} {index : Nat} {item : α} (hitem : items[index]? = some item) :
    fetch items index = .ok item := by
  rw [fetch, hitem]

/-- The array with another element at an index. -/
def store (items : List α) (index : Nat) (item : α) : Guarded (List α) :=
  provided (index < items.length) .outOfBounds (items.set index item)

theorem store_eq {items : List α} {index : Nat} (hindex : index < items.length) (item : α) :
    store items index item = .ok (items.set index item) :=
  provided_eq hindex _ _

/-- The slice from an index on. -/
def sliceFrom (items : List α) (start : Nat) : Guarded (List α) :=
  provided (start ≤ items.length) .outOfBounds (items.drop start)

theorem sliceFrom_eq {items : List α} {start : Nat} (hstart : start ≤ items.length) :
    sliceFrom items start = .ok (items.drop start) :=
  provided_eq hstart _ _

/-- The slice of the given length. -/
def sliceTo (items : List α) (length : Nat) : Guarded (List α) :=
  provided (length ≤ items.length) .outOfBounds (items.take length)

theorem sliceTo_eq {items : List α} {length : Nat} (hlength : length ≤ items.length) :
    sliceTo items length = .ok (items.take length) :=
  provided_eq hlength _ _

/-! ### Counting loops -/

/-- The given number of rounds of a loop that counts upwards in a word of the given width. -/
def countUp (width : Nat) (body : Nat → α → Guarded α) :
    (rounds : Nat) → (index : Nat) → α → Guarded α
  | 0, _, s => .ok s
  | rounds + 1, index, s => do
      let s ← body index s
      let next ← sum width index 1
      countUp width body rounds next s

/-- A loop without its checks. -/
def loop (round : Nat → α → α) : (rounds : Nat) → (index : Nat) → α → α
  | 0, _, s => s
  | rounds + 1, index, s => loop round rounds (index + 1) (round index s)

/-- A loop passes when each of its rounds does on a state that the rounds before leave, and
its index stays within the word. -/
theorem countUp_eq {width : Nat} {body : Nat → α → Guarded α} (Holds : α → Prop)
    (round : Nat → α → α) {rounds index : Nat} (hfits : index + rounds < 2 ^ width)
    (hround : ∀ i s, i < index + rounds → Holds s →
      body i s = .ok (round i s) ∧ Holds (round i s))
    {s : α} (hs : Holds s) :
    countUp width body rounds index s = .ok (loop round rounds index s) := by
  induction rounds generalizing index s with
  | zero => rfl
  | succ rounds ih =>
      have hnext : index + 1 + rounds = index + (rounds + 1) := by omega
      obtain ⟨hbody, hafter⟩ := hround index s (by omega) hs
      rw [← hnext] at hround
      rw [countUp, hbody, ok_bind, sum_eq (by omega), ok_bind, ih (by omega) hround hafter, loop]

end Guarded

end TwoLimb
