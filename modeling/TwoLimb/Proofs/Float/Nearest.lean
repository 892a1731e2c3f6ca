/-
# The nearest number of a precision

Correct rounding is a statement about numbers, not about bits: of all the numbers whose
significand has the digits of the precision, at whatever exponent, the result is the
nearest one, and of two nearest the one with the even significand. There is exactly one
such number. `roundTo` finds it by dropping the digits in excess of the precision.
-/

import TwoLimb.Float.Rounding

namespace TwoLimb

/-- A number with a significand of at most `precision` binary digits. -/
def HasSignificand (precision : Nat) (m : Int) : Prop :=
  ∃ significand exponent : Nat,
    significand < 2 ^ precision ∧ m.natAbs = significand * 2 ^ exponent

/-- A number with a significand of exactly `precision` binary digits, the last one zero. -/
def HasEvenSignificand (precision : Nat) (m : Int) : Prop :=
  ∃ significand exponent : Nat, 2 ^ precision ≤ 2 * significand ∧ significand < 2 ^ precision ∧
    significand % 2 = 0 ∧ m.natAbs = significand * 2 ^ exponent

/-- `m` is `n` rounded to nearest, ties to even. -/
structure IsNearest (precision : Nat) (n m : Int) : Prop where
  hasSignificand : HasSignificand precision m
  closest : ∀ other, HasSignificand precision other → (n - m).natAbs ≤ (n - other).natAbs
  even : ∀ other, HasSignificand precision other → other ≠ m →
    (n - other).natAbs = (n - m).natAbs → HasEvenSignificand precision m

theorem HasSignificand.neg {precision : Nat} {m : Int} (hm : HasSignificand precision m) :
    HasSignificand precision (-m) := by
  rw [HasSignificand, Int.natAbs_neg]
  exact hm

theorem HasEvenSignificand.neg {precision : Nat} {m : Int} (hm : HasEvenSignificand precision m) :
    HasEvenSignificand precision (-m) := by
  rw [HasEvenSignificand, Int.natAbs_neg]
  exact hm

theorem hasSignificand_zero (precision : Nat) : HasSignificand precision 0 :=
  ⟨0, 0, Nat.two_pow_pos precision, rfl⟩

theorem hasSignificand_two_pow {precision : Nat} (hprecision : 1 ≤ precision) (k : Nat) :
    HasSignificand precision (2 ^ k : Nat) :=
  ⟨1, k, Nat.one_lt_two_pow (by omega), by rw [Int.natAbs_natCast, Nat.one_mul]⟩

/-- Moving the point leaves the significand as it is. -/
theorem HasSignificand.mul_two_pow {precision m : Nat} (hm : HasSignificand precision m)
    (k : Nat) : HasSignificand precision (m * 2 ^ k : Nat) := by
  obtain ⟨significand, exponent, hlt, hvalue⟩ := hm
  rw [Int.natAbs_natCast] at hvalue
  exact ⟨significand, exponent + k, hlt, by
    rw [Int.natAbs_natCast, hvalue, Nat.mul_assoc, ← Nat.pow_add]⟩

/-- Dropping digits at the low end leaves at most the digits of the significand. -/
theorem HasSignificand.div_two_pow {precision m : Nat} (hm : HasSignificand precision m)
    (k : Nat) : HasSignificand precision (m / 2 ^ k : Nat) := by
  obtain ⟨significand, exponent, hlt, hvalue⟩ := hm
  rw [Int.natAbs_natCast] at hvalue
  rcases Nat.le_total k exponent with hle | hle
  · obtain ⟨rest, rfl⟩ := Nat.le.dest hle
    refine ⟨significand, rest, hlt, ?_⟩
    rw [Int.natAbs_natCast, hvalue, Nat.add_comm, Nat.pow_add, ← Nat.mul_assoc,
      Nat.mul_div_cancel _ (Nat.two_pow_pos k)]
  · obtain ⟨rest, rfl⟩ := Nat.le.dest hle
    refine ⟨significand / 2 ^ rest, 0, Nat.lt_of_le_of_lt (Nat.div_le_self _ _) hlt, ?_⟩
    rw [Int.natAbs_natCast, hvalue, Nat.pow_add, Nat.mul_comm significand,
      Nat.mul_div_mul_left _ _ (Nat.two_pow_pos exponent), Nat.pow_zero, Nat.mul_one]

theorem HasSignificand.mono {precision wider : Nat} {m : Int} (hm : HasSignificand precision m)
    (hwider : precision ≤ wider) : HasSignificand wider m := by
  obtain ⟨significand, exponent, hlt, hvalue⟩ := hm
  exact ⟨significand, exponent,
    Nat.lt_of_lt_of_le hlt (Nat.pow_le_pow_right (by decide) hwider), hvalue⟩

theorem hasSignificand_of_lt {precision n : Nat} (hlt : n < 2 ^ precision) :
    HasSignificand precision n :=
  ⟨n, 0, hlt, (Nat.mul_one n).symm⟩

/-! ### There is one nearest number -/

namespace IsNearest

variable {precision : Nat} {n m : Int}

protected theorem neg (hm : IsNearest precision n m) : IsNearest precision (-n) (-m) where
  hasSignificand := hm.hasSignificand.neg
  closest other hother := by
    have hle := hm.closest (-other) hother.neg
    omega
  even other hother hne htie := (hm.even (-other) hother.neg (by omega) (by omega)).neg

/-- Rounding does not pass a number that needs no rounding. -/
theorem le_of_le (hm : IsNearest precision n m) {bound : Int}
    (hbound : HasSignificand precision bound) (hn : n ≤ bound) : m ≤ bound := by
  have hle := hm.closest bound hbound
  omega

/-- A number that needs no rounding is its own rounding. -/
theorem eq_self (hm : IsNearest precision n m) (hn : HasSignificand precision n) : m = n := by
  have hle := hm.closest n hn
  omega

/-- The precision offers nothing between two nearest numbers. -/
theorem not_between {other between : Int} (hm : IsNearest precision n m)
    (hother : IsNearest precision n other) (hbetween : HasSignificand precision between)
    (hlower : m < between) : ¬between < other := by
  have hle := hm.closest other hother.hasSignificand
  have hge := hother.closest m hm.hasSignificand
  have hnearer := hm.closest between hbetween
  omega

end IsNearest

/-- Between two even significands there is an odd one. -/
theorem HasEvenSignificand.exists_between {precision : Nat} {m other : Int}
    (hm : HasEvenSignificand precision m) (hother : HasEvenSignificand precision other)
    (hnonneg : 0 ≤ m) (hlt : m < other) :
    ∃ between, HasSignificand precision between ∧ m < between ∧ between < other := by
  obtain ⟨s, e, hfull, hs, heven, hvalue⟩ := hm
  obtain ⟨s', e', -, hs', heven', hvalue'⟩ := hother
  have hvalues : s * 2 ^ e < s' * 2 ^ e' := by omega
  have hexponents : e ≤ e' := by
    refine Nat.le_of_not_lt fun hsmaller => Nat.not_le.mpr hvalues ?_
    calc s' * 2 ^ e'
        ≤ 2 * s * 2 ^ e' := Nat.mul_le_mul_right _ (by omega)
      _ = s * 2 ^ (e' + 1) := by rw [Nat.pow_succ, Nat.mul_comm 2, Nat.mul_assoc, Nat.mul_comm 2]
      _ ≤ s * 2 ^ e := Nat.mul_le_mul_left _ (Nat.pow_le_pow_right (by decide) hsmaller)
  -- Both are multiples of `2^(e + 1)`, so at least that far apart.
  have hgap : (s + 2) * 2 ^ e ≤ s' * 2 ^ e' := by
    obtain ⟨k, rfl⟩ := Nat.le.dest hexponents
    rw [Nat.pow_add, Nat.mul_comm (2 ^ e), ← Nat.mul_assoc] at hvalues ⊢
    have hsteps : s < s' * 2 ^ k := Nat.lt_of_mul_lt_mul_right hvalues
    have hsteps_even : s' * 2 ^ k % 2 = 0 := by rw [Nat.mul_mod, heven', Nat.zero_mul, Nat.zero_mod]
    exact Nat.mul_le_mul_right _ (by omega)
  have hpositive := Nat.two_pow_pos e
  have hroom : s + 1 < 2 ^ precision := by
    cases precision with
    | zero => omega
    | succ digits =>
        rw [Nat.pow_succ] at hs ⊢
        omega
  refine ⟨((s + 1) * 2 ^ e : Nat), ⟨s + 1, e, hroom, Int.natAbs_natCast _⟩, ?_, ?_⟩
  · rw [Nat.add_mul]
    omega
  · rw [Nat.add_mul] at hgap ⊢
    omega

namespace IsNearest

variable {precision : Nat} {n m other : Int}

theorem not_lt (hm : IsNearest precision n m) (hother : IsNearest precision n other) :
    ¬m < other := by
  intro hlt
  have htie : (n - other).natAbs = (n - m).natAbs :=
    Nat.le_antisymm (hother.closest m hm.hasSignificand) (hm.closest other hother.hasSignificand)
  have heven := hm.even other hother.hasSignificand (by omega) htie
  have heven' := hother.even m hm.hasSignificand (by omega) htie.symm
  by_cases hnonneg : 0 ≤ m
  · obtain ⟨between, hbetween, hlower, hupper⟩ := heven.exists_between heven' hnonneg hlt
    exact hm.not_between hother hbetween hlower hupper
  by_cases hnonpos : other ≤ 0
  · obtain ⟨between, hbetween, hlower, hupper⟩ :=
      heven'.neg.exists_between heven.neg (by omega) (by omega)
    exact hother.neg.not_between hm.neg hbetween hlower hupper
  · exact hm.not_between hother (hasSignificand_zero precision) (by omega) (by omega)

/-- Rounding to nearest, ties to even, has one result. -/
theorem unique (hm : IsNearest precision n m) (hother : IsNearest precision n other) :
    m = other := by
  have hnotLess := hm.not_lt hother
  have hnotGreater := hother.not_lt hm
  omega

end IsNearest

/-! ### Dropping the digits in excess -/

/-- `n` with its digits in excess of the precision rounded away. -/
def roundTo (precision n : Nat) : Nat :=
  roundHalfEven n (bitLength n - precision) * 2 ^ (bitLength n - precision)

theorem lt_two_pow_bitLength (n : Nat) : n < 2 ^ bitLength n := by
  unfold bitLength
  split
  · omega
  · exact Nat.lt_log2_self

theorem lt_two_pow_of_bitLength_le {n k : Nat} (hk : bitLength n ≤ k) : n < 2 ^ k :=
  Nat.lt_of_lt_of_le (lt_two_pow_bitLength n) (Nat.pow_le_pow_right (by decide) hk)

theorem two_pow_le_of_lt_bitLength {n k : Nat} (hk : k < bitLength n) : 2 ^ k ≤ n := by
  unfold bitLength at hk
  split at hk
  · omega
  · rename_i hn
    exact (Nat.le_log2 hn).mp (Nat.le_of_lt_succ hk)

theorem bitLength_le_of_lt {n k : Nat} (hlt : n < 2 ^ k) : bitLength n ≤ k :=
  Nat.le_of_not_lt fun hk => Nat.not_lt.mpr (two_pow_le_of_lt_bitLength hk) hlt

theorem bitLength_eq {n k : Nat} (hlower : 2 ^ k ≤ n) (hupper : n < 2 ^ (k + 1)) :
    bitLength n = k + 1 := by
  have hn : n ≠ 0 := Nat.ne_of_gt (Nat.lt_of_lt_of_le (Nat.two_pow_pos k) hlower)
  rw [bitLength, if_neg hn, (Nat.log2_eq_iff hn).mpr ⟨hlower, hupper⟩]

theorem bitLength_mul_two_pow {n : Nat} (hn : n ≠ 0) (k : Nat) :
    bitLength (n * 2 ^ k) = bitLength n + k := by
  obtain ⟨digits, hdigits⟩ : ∃ digits, bitLength n = digits + 1 :=
    ⟨n.log2, if_neg hn⟩
  have hlower : 2 ^ digits ≤ n := two_pow_le_of_lt_bitLength (by omega)
  have hupper : n < 2 ^ (digits + 1) := hdigits ▸ lt_two_pow_bitLength n
  rw [hdigits, show digits + 1 + k = digits + k + 1 by omega]
  refine bitLength_eq ?_ ?_
  · rw [Nat.pow_add]
    exact Nat.mul_le_mul_right _ hlower
  · rw [show digits + k + 1 = digits + 1 + k by omega, Nat.pow_add]
    exact Nat.mul_lt_mul_of_pos_right hupper (Nat.two_pow_pos k)

theorem div_le_roundHalfEven (n places : Nat) : n / 2 ^ places ≤ roundHalfEven n places := by
  unfold roundHalfEven
  simp only
  split <;> omega

theorem roundHalfEven_le_div_add_one (n places : Nat) :
    roundHalfEven n places ≤ n / 2 ^ places + 1 := by
  unfold roundHalfEven
  simp only
  split <;> omega

/-- A rest of one half leaves an even quotient. -/
theorem roundHalfEven_even_of_tie {n places : Nat}
    (htie : 2 * n + 2 ^ places = 2 * (roundHalfEven n places * 2 ^ places) ∨
      2 * n = 2 * (roundHalfEven n places * 2 ^ places) + 2 ^ places) :
    roundHalfEven n places % 2 = 0 := by
  have hsplit := Nat.div_add_mod' n (2 ^ places)
  have hrest := Nat.mod_lt n (Nat.two_pow_pos places)
  unfold roundHalfEven at htie ⊢
  simp only at htie ⊢
  split
  · rename_i hup
    rw [if_pos hup, Nat.add_mul] at htie
    omega
  · rename_i hdown
    rw [if_neg hdown] at htie
    omega

/-- Different multiples are at least one unit apart. -/
theorem mul_add_le_or_of_ne {i j : Nat} (unit : Nat) (hne : i ≠ j) :
    i * unit + unit ≤ j * unit ∨ j * unit + unit ≤ i * unit := by
  rw [← Nat.succ_mul, ← Nat.succ_mul]
  rcases Nat.lt_or_gt_of_ne hne with hlt | hgt
  · exact Or.inl (Nat.mul_le_mul_right unit hlt)
  · exact Or.inr (Nat.mul_le_mul_right unit hgt)

/-- No multiple of the place is nearer than the rounded one. -/
theorem roundHalfEven_closest (n places multiple : Nat) :
    ((n : Int) - (roundHalfEven n places * 2 ^ places : Nat)).natAbs ≤
      ((n : Int) - (multiple * 2 ^ places : Nat)).natAbs := by
  obtain ⟨hbelow, habove⟩ := roundHalfEven_error n places
  by_cases heq : multiple = roundHalfEven n places
  · exact heq ▸ Nat.le_refl _
  · have hfar := mul_add_le_or_of_ne (2 ^ places) heq
    omega

/-- Where another multiple is as near as the rounded one, the rounded one is even. -/
theorem roundHalfEven_even {n places multiple : Nat} (hne : multiple ≠ roundHalfEven n places)
    (htie : ((n : Int) - (multiple * 2 ^ places : Nat)).natAbs =
      ((n : Int) - (roundHalfEven n places * 2 ^ places : Nat)).natAbs) :
    roundHalfEven n places % 2 = 0 := by
  obtain ⟨hbelow, habove⟩ := roundHalfEven_error n places
  have hfar := mul_add_le_or_of_ne (2 ^ places) hne
  exact roundHalfEven_even_of_tie (by omega)

/-- Dropping the digits in excess leaves a significand of full length, or the power of
two above it. -/
theorem roundHalfEven_excess_bounds {precision n : Nat} (hprecision : 1 ≤ precision)
    (hexcess : precision < bitLength n) :
    2 ^ precision ≤ 2 * roundHalfEven n (bitLength n - precision) ∧
      roundHalfEven n (bitLength n - precision) ≤ 2 ^ precision := by
  obtain ⟨digits, rfl⟩ := Nat.exists_eq_add_of_le' hprecision
  generalize hplaces : bitLength n - (digits + 1) = places
  have hlower : 2 ^ digits ≤ n / 2 ^ places := by
    rw [Nat.le_div_iff_mul_le (Nat.two_pow_pos _), ← Nat.pow_add]
    exact two_pow_le_of_lt_bitLength (by omega)
  have hupper : n / 2 ^ places < 2 ^ (digits + 1) := by
    rw [Nat.div_lt_iff_lt_mul (Nat.two_pow_pos _), ← Nat.pow_add]
    exact Nat.lt_of_lt_of_eq (lt_two_pow_bitLength n) (congrArg _ (by omega))
  have hdown := div_le_roundHalfEven n places
  have hup := roundHalfEven_le_div_add_one n places
  rw [Nat.pow_succ] at hupper ⊢
  omega

/-- A number of the precision is a multiple of the place of rounding, or further away than
some multiple: below the place there are only numbers of fewer digits. -/
theorem HasSignificand.exists_multiple {precision n : Nat} {other : Int}
    (hprecision : 1 ≤ precision) (hother : HasSignificand precision other) :
    ∃ multiple : Nat,
      other = (multiple * 2 ^ (bitLength n - precision) : Nat) ∨
        ((n : Int) - (multiple * 2 ^ (bitLength n - precision) : Nat)).natAbs <
          ((n : Int) - other).natAbs := by
  obtain ⟨significand, exponent, hlt, hvalue⟩ := hother
  by_cases hnegative : other < 0
  · exact ⟨0, Or.inr (by omega)⟩
  by_cases hplace : bitLength n - precision ≤ exponent
  · obtain ⟨k, rfl⟩ := Nat.le.dest hplace
    refine ⟨significand * 2 ^ k, Or.inl ?_⟩
    rw [Nat.mul_assoc, ← Nat.pow_add, Nat.add_comm k, ← hvalue]
    omega
  · -- Then `n` has digits in excess, and the least number of its length is nearer.
    obtain ⟨digits, rfl⟩ := Nat.exists_eq_add_of_le' hprecision
    have hlower : 2 ^ digits * 2 ^ (bitLength n - (digits + 1)) ≤ n := by
      rw [← Nat.pow_add]
      exact two_pow_le_of_lt_bitLength (by omega)
    have hbelow : other.natAbs < 2 ^ digits * 2 ^ (bitLength n - (digits + 1)) := by
      calc other.natAbs
          = significand * 2 ^ exponent := hvalue
        _ < 2 ^ (digits + 1) * 2 ^ exponent :=
            Nat.mul_lt_mul_of_pos_right hlt (Nat.two_pow_pos exponent)
        _ ≤ 2 ^ digits * 2 ^ (bitLength n - (digits + 1)) := by
            rw [← Nat.pow_add, ← Nat.pow_add]
            exact Nat.pow_le_pow_right (by decide) (by omega)
    exact ⟨2 ^ digits, Or.inr (by omega)⟩

theorem hasSignificand_roundTo {precision : Nat} (hprecision : 1 ≤ precision) (n : Nat) :
    HasSignificand precision (roundTo precision n) := by
  by_cases hexcess : precision < bitLength n
  · obtain ⟨-, hle⟩ := roundHalfEven_excess_bounds hprecision hexcess
    rcases Nat.eq_or_lt_of_le hle with hcarry | hlt
    · rw [roundTo, hcarry, ← Nat.pow_add]
      exact hasSignificand_two_pow hprecision _
    · exact (hasSignificand_of_lt hlt).mul_two_pow _
  · have hlt := lt_two_pow_of_bitLength_le (Nat.le_of_not_lt hexcess)
    rw [roundTo, Nat.sub_eq_zero_of_le (Nat.le_of_not_lt hexcess), roundHalfEven_zero, Nat.mul_one]
    exact hasSignificand_of_lt hlt

theorem hasEvenSignificand_roundTo {precision n : Nat} (hprecision : 2 ≤ precision)
    (hexcess : precision < bitLength n)
    (heven : roundHalfEven n (bitLength n - precision) % 2 = 0) :
    HasEvenSignificand precision (roundTo precision n) := by
  obtain ⟨hfull, hle⟩ := roundHalfEven_excess_bounds (by omega) hexcess
  rcases Nat.eq_or_lt_of_le hle with hcarry | hlt
  · -- The significand carried into the next power of two and is half of it there.
    obtain ⟨digits, rfl⟩ := Nat.exists_eq_add_of_le' hprecision
    refine ⟨2 ^ (digits + 1), bitLength n - (digits + 2) + 1, ?_, ?_, ?_, ?_⟩
    · exact Nat.le_of_eq Nat.pow_succ'
    · exact Nat.pow_lt_pow_right (by decide) (by omega)
    · rw [Nat.pow_succ, Nat.mul_mod_left]
    · rw [Int.natAbs_natCast, roundTo, hcarry, ← Nat.pow_add, ← Nat.pow_add]
      congr 1
      omega
  · exact ⟨_, _, hfull, hlt, heven, Int.natAbs_natCast _⟩

/-- Dropping the digits in excess rounds to the nearest number of the precision. -/
theorem isNearest_roundTo {precision : Nat} (hprecision : 2 ≤ precision) (n : Nat) :
    IsNearest precision n (roundTo precision n) where
  hasSignificand := hasSignificand_roundTo (by omega) n
  closest other hother := by
    obtain ⟨multiple, rfl | hnearer⟩ := hother.exists_multiple (n := n) (by omega)
    · exact roundHalfEven_closest n _ multiple
    · exact Nat.le_trans (roundHalfEven_closest n _ multiple) (Nat.le_of_lt hnearer)
  even other hother hne htie := by
    have hexcess : precision < bitLength n := by
      refine Nat.lt_of_not_le fun hshort => hne ?_
      have hexact : roundTo precision n = n := by
        rw [roundTo, Nat.sub_eq_zero_of_le hshort, roundHalfEven_zero, Nat.mul_one]
      rw [hexact] at htie ⊢
      omega
    refine hasEvenSignificand_roundTo hprecision hexcess ?_
    obtain ⟨multiple, rfl | hnearer⟩ := hother.exists_multiple (n := n) (by omega)
    · exact roundHalfEven_even (fun heq => hne (congrArg _ (congrArg (· * _) heq))) htie
    · have hclosest := roundHalfEven_closest n (bitLength n - precision) multiple
      exact absurd htie (Nat.ne_of_gt (Nat.lt_of_le_of_lt hclosest hnearer))

/-- Rounding moves a value by at most half a unit of the last place. -/
theorem natAbs_roundTo_sub_le {precision n : Nat} (hdigits : precision < bitLength n) :
    ((roundTo precision n : Int) - n).natAbs ≤ 2 ^ (bitLength n - precision - 1) := by
  obtain ⟨hbelow, habove⟩ := roundHalfEven_error n (bitLength n - precision)
  obtain ⟨places, hplaces⟩ := Nat.exists_eq_add_of_lt hdigits
  rw [roundTo, show bitLength n - precision - 1 = places by omega]
  rw [show bitLength n - precision = places + 1 by omega, Nat.pow_succ] at *
  omega

example : roundTo 3 19 = 20 ∧ roundTo 3 18 = 16 ∧ roundTo 3 22 = 24 := by decide

/-! ### Rounding and powers of two -/

theorem roundHalfEven_mul_two_pow (n places k : Nat) :
    roundHalfEven (n * 2 ^ k) (places + k) = roundHalfEven n places := by
  have hpositive := Nat.two_pow_pos k
  have hhalf : 2 * (n % 2 ^ places * 2 ^ k) = 2 * (n % 2 ^ places) * 2 ^ k :=
    (Nat.mul_assoc 2 _ _).symm
  unfold roundHalfEven
  simp only [Nat.pow_add, Nat.mul_mod_mul_right, Nat.mul_div_mul_right _ _ hpositive, hhalf,
    Nat.mul_lt_mul_right hpositive, Nat.mul_right_cancel_iff hpositive]

/-- An even multiple of the place attracts every number from half a place below it on. -/
theorem le_roundHalfEven_iff {n places multiple : Nat} (heven : multiple % 2 = 0) :
    multiple ≤ roundHalfEven n (places + 1) ↔
      multiple * 2 ^ (places + 1) ≤ n + 2 ^ places := by
  have hsplit := Nat.div_add_mod' n (2 ^ (places + 1))
  have hrest := Nat.mod_lt n (Nat.two_pow_pos (places + 1))
  have hunit : 2 ^ (places + 1) = 2 * 2 ^ places := Nat.pow_succ'
  unfold roundHalfEven
  simp only
  generalize n / 2 ^ (places + 1) = quotient at *
  rcases Nat.lt_trichotomy multiple (quotient + 1) with hbelow | rfl | habove
  · have hle := Nat.mul_le_mul_right (2 ^ (places + 1)) (Nat.le_of_lt_succ hbelow)
    split <;> omega
  · rw [Nat.succ_mul quotient]
    split <;> omega
  · have hle := Nat.mul_le_mul_right (2 ^ (places + 1)) (Nat.succ_le_of_lt habove)
    rw [Nat.succ_mul, Nat.succ_mul] at hle
    split <;> omega

variable {precision : Nat} (hprecision : 2 ≤ precision)

include hprecision

theorem roundTo_eq_self {n : Nat} (hn : HasSignificand precision n) : roundTo precision n = n :=
  Int.natCast_inj.mp ((isNearest_roundTo hprecision n).eq_self hn)

theorem roundTo_le_two_pow {n k : Nat} (hn : n ≤ 2 ^ k) : roundTo precision n ≤ 2 ^ k :=
  Int.ofNat_le.mp ((isNearest_roundTo hprecision n).le_of_le
    (hasSignificand_two_pow (by omega) k) (Int.ofNat_le.mpr hn))

/-- Rounding commutes with moving the point. -/
theorem roundTo_mul_two_pow (n k : Nat) :
    roundTo precision (n * 2 ^ k) = roundTo precision n * 2 ^ k := by
  by_cases hexcess : precision < bitLength n
  · have hn : n ≠ 0 := by
      rintro rfl
      exact absurd hexcess (Nat.not_lt_zero _)
    have hplaces : bitLength (n * 2 ^ k) - precision = bitLength n - precision + k := by
      rw [bitLength_mul_two_pow hn]
      omega
    rw [roundTo, hplaces, roundHalfEven_mul_two_pow, roundTo, Nat.pow_add, Nat.mul_assoc]
  · have hlt := lt_two_pow_of_bitLength_le (Nat.le_of_not_lt hexcess)
    have hn := hasSignificand_of_lt hlt
    rw [roundTo_eq_self hprecision hn, roundTo_eq_self hprecision (hn.mul_two_pow k)]

/-- The least number of `k` digits that rounds up to `2^k` is half a unit of the last place
below it: the last number of the precision is odd and loses the tie. -/
theorem two_pow_le_roundTo_iff {n k : Nat} (hk : precision < k) (hn : n < 2 ^ k) :
    2 ^ k ≤ roundTo precision n ↔ 2 ^ k - 2 ^ (k - precision - 1) ≤ n := by
  obtain ⟨places, rfl⟩ := Nat.exists_eq_add_of_lt hk
  have hunit : 2 ^ (precision + places + 1) = 2 ^ precision * 2 ^ (places + 1) := by
    rw [Nat.add_assoc, Nat.pow_add]
  rw [show precision + places + 1 - precision - 1 = places by omega]
  rcases Nat.lt_or_ge n (2 ^ (precision + places)) with hsmall | hlarge
  · have hle : roundTo precision n ≤ 2 ^ (precision + places) :=
      roundTo_le_two_pow hprecision (Nat.le_of_lt hsmall)
    have hplace : 2 ^ places ≤ 2 ^ (precision + places) :=
      Nat.pow_le_pow_right (by decide) (Nat.le_add_left _ _)
    rw [Nat.pow_succ] at hn ⊢
    omega
  · have hexcess : bitLength n - precision = places + 1 := by
      rw [bitLength_eq hlarge hn]
      omega
    have heven : 2 ^ precision % 2 = 0 := by
      obtain ⟨digits, rfl⟩ := Nat.exists_eq_add_of_le' hprecision
      rw [Nat.pow_succ, Nat.mul_mod_left]
    rw [roundTo, hexcess, hunit, Nat.mul_le_mul_right_iff (Nat.two_pow_pos _),
      le_roundHalfEven_iff heven]
    omega

/-- A rounded number is the same in whichever units it was rounded. -/
theorem roundTo_change_units (n i j : Nat) :
    roundTo precision (n * 2 ^ i) * 2 ^ j = roundTo precision (n * 2 ^ j) * 2 ^ i := by
  rw [roundTo_mul_two_pow hprecision, roundTo_mul_two_pow hprecision, Nat.mul_right_comm]

end TwoLimb
