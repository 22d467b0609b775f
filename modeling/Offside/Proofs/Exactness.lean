/-
This file shows that the arithmetic of words is exact or refused: an operation gives
the exact result if that fits in 64 bits, and otherwise nothing. The words alone tell
the two cases apart. A sum that went around has a sign that neither of its parts has;
a product that went around is not a multiple of its right factor that belongs to its
left one, because it is off by a multiple of 2 ^ 64 and a remainder is smaller.

A power is computed by squaring, and the squares are refused on their own. This never
refuses a power that fits: a square is only formed when the power has it as a factor,
and the other factor is not zero. The one number that could still bring the power back
into the range is a factor of -1, and for that the square would have to be 2 ^ 63, which
is no square.
-/

import Mathlib.Tactic.Linarith
import Mathlib.Tactic.Ring
import Offside.Number.Arithmetic

namespace Offside.Number

/-! ### The range -/

/-- The number is an integer of the language. -/
def InRange (n : Int) : Prop :=
  least ≤ n ∧ n ≤ greatest

instance (n : Int) : Decidable (InRange n) :=
  inferInstanceAs (Decidable (_ ∧ _))

theorem inRange_toInt (word : Int64) : InRange word.toInt := by
  have low := word.le_toInt
  have high := word.toInt_lt
  simp only [InRange, least, greatest]
  omega

theorem fit?_toInt (word : Int64) : fit? word.toInt = some word := by
  have inside := inRange_toInt word
  rw [InRange] at inside
  rw [fit?, if_pos inside, Int64.ofInt_toInt]

theorem fit?_of_not {n : Int} (outside : ¬ InRange n) : fit? n = none :=
  (fit?_eq_none_iff n).mpr outside

theorem exists_fit? {n : Int} (inside : InRange n) :
    ∃ word, fit? n = some word ∧ word.toInt = n := by
  cases same : fit? n with
  | none => exact absurd inside ((fit?_eq_none_iff n).mp same)
  | some word => exact ⟨word, rfl, toInt_of_fit? same⟩

/-- A word that is the exact number is what fits. -/
theorem fit?_eq_some {n : Int} {word : Int64} (exact_ : word.toInt = n) : fit? n = some word := by
  rw [← exact_, fit?_toInt]

theorem bmod_of_inRange {n : Int} (inside : InRange n) : n.bmod (2 ^ 64) = n := by
  simp only [InRange, least, greatest] at inside
  refine Int.bmod_eq_of_le ?_ ?_ <;> norm_num <;> omega

/-- What went around is off by a multiple of 2 ^ 64. -/
theorem exists_bmod (n : Int) :
    ∃ turns : Int, n.bmod (2 ^ 64) = n + 18446744073709551616 * turns := by
  obtain ⟨turns, off⟩ := Int.dvd_bmod_sub_self (x := n) (m := 2 ^ 64)
  exact ⟨turns, eq_add_of_sub_eq' off⟩

theorem toInt_ne_of_ne {word other : Int64} (different : word ≠ other) :
    word.toInt ≠ other.toInt :=
  fun same => different (Int64.toInt_inj.mp same)

/-! ### Sums -/

theorem add?_eq (left right : Int64) : add? left right = fit? (left.toInt + right.toInt) := by
  have sum := Int64.toInt_add left right
  have leftInside := inRange_toInt left
  have rightInside := inRange_toInt right
  have sumInside := inRange_toInt (left + right)
  obtain ⟨turns, off⟩ := exists_bmod (left.toInt + right.toInt)
  rw [off] at sum
  simp only [InRange, least, greatest] at leftInside rightInside sumInside
  simp only [add?, Int64.lt_iff_toInt_lt, Int64.le_iff_toInt_le, Int64.toInt_zero]
  split
  next around =>
    refine (fit?_of_not ?_).symm
    simp only [InRange, least, greatest]
    omega
  next kept =>
    refine (fit?_eq_some ?_).symm
    omega

/-! ### Opposites -/

theorem neg?_eq (value : Int64) : neg? value = fit? (-value.toInt) := by
  rw [neg?]
  split
  next lowest =>
    rw [lowest]
    decide
  next other =>
    have apart := toInt_ne_of_ne other
    have inside := inRange_toInt value
    rw [Int64.toInt_minValue] at apart
    simp only [InRange, least, greatest] at inside
    have opposite : InRange (-value.toInt) := by
      simp only [InRange, least, greatest]
      omega
    refine (fit?_eq_some ?_).symm
    rw [Int64.toInt_neg, bmod_of_inRange opposite]

/-! ### Products -/

/-- A product that is off by some turns, divided by its right factor, is off itself: the turns are
larger than what a division leaves over. -/
theorem eq_zero_of_tdiv {left right turns : Int} (rightInside : InRange right)
    (nonzero : right ≠ 0)
    (divided : (left * right + 18446744073709551616 * turns).tdiv right = left) : turns = 0 := by
  have parts := Int.mul_tdiv_add_tmod (left * right + 18446744073709551616 * turns) right
  have rest := Int.natAbs_tmod (left * right + 18446744073709551616 * turns) right
  have small := Nat.mod_lt (left * right + 18446744073709551616 * turns).natAbs
    (Int.natAbs_pos.mpr nonzero)
  rw [divided, mul_comm right left] at parts
  simp only [InRange, least, greatest] at rightInside
  omega

/-- Only one division of words goes around. -/
theorem toInt_div {left right : Int64} (ordinary : right ≠ -1 ∨ left ≠ .minValue) :
    (left / right).toInt = left.toInt.tdiv right.toInt :=
  ordinary.elim (Int64.toInt_div_of_ne_right left right) (Int64.toInt_div_of_ne_left left right)

/-- The opposite of a number that has one is not the least number. -/
theorem mul_neg_one_ne {left : Int64} (other : left ≠ .minValue) : left * -1 ≠ .minValue := by
  have apart := toInt_ne_of_ne other
  have inside := inRange_toInt left
  have product := Int64.toInt_mul left (-1)
  rw [Int64.toInt_minValue] at apart
  rw [show (-1 : Int64).toInt = -1 from rfl] at product
  simp only [InRange, least, greatest] at inside
  rw [bmod_of_inRange] at product
  · intro same
    rw [same, Int64.toInt_minValue] at product
    omega
  · simp only [InRange, least, greatest]
    omega

theorem mul?_eq (left right : Int64) : mul? left right = fit? (left.toInt * right.toInt) := by
  rw [mul?]
  split
  next zero =>
    have product : left.toInt * right.toInt = (0 : Int64).toInt := by
      obtain rfl | rfl := zero
      · exact Int.zero_mul _
      · exact Int.mul_zero _
    exact (fit?_eq_some product.symm).symm
  next nonzero =>
  rw [not_or] at nonzero
  split
  next lowest =>
    obtain ⟨rfl, rfl⟩ | ⟨rfl, rfl⟩ := lowest
    · decide
    · decide
  next ordinary =>
  have nonzeroRight : right.toInt ≠ 0 := toInt_ne_of_ne nonzero.2
  have quotient : (left * right / right).toInt = (left * right).toInt.tdiv right.toInt := by
    refine toInt_div (or_iff_not_imp_left.mpr fun negative => ?_)
    rw [not_not] at negative
    subst negative
    exact mul_neg_one_ne fun lowest => ordinary (.inr ⟨rfl, lowest⟩)
  have product := Int64.toInt_mul left right
  dsimp only
  split
  next divided =>
    obtain ⟨turns, off⟩ := exists_bmod (left.toInt * right.toInt)
    rw [off] at product
    rw [divided, product] at quotient
    have none : turns = 0 := eq_zero_of_tdiv (inRange_toInt right) nonzeroRight quotient.symm
    rw [none, mul_zero, add_zero] at product
    exact (fit?_eq_some product).symm
  next apart =>
    refine (fit?_of_not fun inside => apart ?_).symm
    rw [bmod_of_inRange inside] at product
    rw [product, Int.mul_tdiv_cancel _ nonzeroRight] at quotient
    exact Int64.toInt_inj.mp quotient

/-! ### Powers -/

/-- A positive factor does not bring a number back into the range. -/
theorem not_inRange_mul {n factor : Int} (outside : ¬ InRange n) (positive : 0 < factor) :
    ¬ InRange (n * factor) := by
  simp only [InRange, least, greatest, not_and_or, not_le] at outside ⊢
  obtain below | above := outside
  · left
    nlinarith
  · right
    nlinarith

/-- No square is 2 ^ 63, so one that does not fit exceeds it. -/
theorem lt_square_of_not_inRange {n : Int} (outside : ¬ InRange (n * n)) :
    9223372036854775808 < n * n := by
  have positive := mul_self_nonneg n
  simp only [InRange, least, greatest, not_and_or, not_le] at outside
  have other : n * n ≠ 9223372036854775808 := by
    intro same
    have high : n < 3037000500 := by nlinarith
    have low : -3037000500 < n := by nlinarith
    nlinarith
  omega

/-- A factor beyond 2 ^ 63 leaves only zero in the range. -/
theorem not_inRange_mul_of_lt {n factor : Int} (nonzero : n ≠ 0)
    (large : 9223372036854775808 < factor) : ¬ InRange (n * factor) := by
  simp only [InRange, least, greatest, not_and_or, not_le]
  obtain negative | positive := lt_or_gt_of_ne nonzero
  · left
    nlinarith
  · right
    nlinarith

/-- What the lowest digit of the exponent contributes to the power. -/
def digitFactor (base : Int) (exponent : Nat) : Int :=
  if exponent % 2 = 1 then base else 1

theorem pow_eq_digitFactor_mul (base : Int) (exponent : Nat) :
    base ^ exponent = digitFactor base exponent * (base * base) ^ (exponent / 2) := by
  have digits := Nat.div_add_mod exponent 2
  rw [digitFactor, ← pow_two, ← pow_mul]
  split
  next odd =>
    rw [← pow_succ', ← odd, digits]
  next even =>
    rw [one_mul, ← Nat.add_zero (2 * _), ← Nat.mod_two_ne_one.mp even, digits]

theorem digitFactor_ne_zero {base : Int} (nonzero : base ≠ 0) (exponent : Nat) :
    digitFactor base exponent ≠ 0 := by
  rw [digitFactor]
  split
  · exact nonzero
  · exact one_ne_zero

theorem multiplied?_eq (result base : Int64) (exponent : Nat) :
    (if exponent % 2 = 1 then mul? result base else some result) =
      fit? (result.toInt * digitFactor base.toInt exponent) := by
  rw [digitFactor]
  split
  · exact mul?_eq result base
  · rw [mul_one, fit?_toInt]

/-- Where the result so far is zero, the base is zero as well. So while the base is not zero, every
square of it is a factor of a power that is not zero. -/
theorem powFrom?_eq (result base : Int64) (exponent : Nat)
    (kept : result.toInt = 0 → base.toInt = 0) :
    powFrom? result base exponent = fit? (result.toInt * base.toInt ^ exponent) := by
  fun_induction powFrom? result base exponent with
  | case1 result base => rw [pow_zero, mul_one, fit?_toInt]
  | case2 result base exponent _ refused =>
    have outside : ¬ InRange (result.toInt * digitFactor base.toInt exponent) :=
      (fit?_eq_none_iff _).mp ((multiplied?_eq result base exponent).symm.trans refused)
    have nonzero : base.toInt ≠ 0 := by
      intro zero
      refine outside ?_
      rw [zero, digitFactor]
      split
      · rw [mul_zero]
        decide
      · rw [mul_one]
        exact inRange_toInt result
    refine (fit?_of_not ?_).symm
    rw [pow_eq_digitFactor_mul, ← mul_assoc]
    exact not_inRange_mul outside (pow_pos (mul_self_pos.mpr nonzero) _)
  | case3 result base exponent _ product multiplied last =>
    have exact_ := toInt_of_fit? ((multiplied?_eq result base exponent).symm.trans multiplied)
    rw [pow_eq_digitFactor_mul, last, pow_zero, mul_one]
    exact (fit?_eq_some exact_).symm
  | case4 result base exponent _ product multiplied more refused =>
    rw [mul?_eq, fit?_eq_none_iff] at refused
    have large := lt_square_of_not_inRange refused
    have larger : 9223372036854775808 < (base.toInt * base.toInt) ^ (exponent / 2) :=
      large.trans_le (le_self_pow₀ (by omega) more)
    have nonzero : base.toInt ≠ 0 := by
      intro zero
      rw [zero] at large
      exact absurd large (by decide)
    refine (fit?_of_not ?_).symm
    rw [pow_eq_digitFactor_mul, ← mul_assoc]
    exact not_inRange_mul_of_lt
      (mul_ne_zero (fun zero => nonzero (kept zero)) (digitFactor_ne_zero nonzero exponent)) larger
  | case5 result base exponent _ product multiplied more square squared inductionHypothesis =>
    have exact_ := toInt_of_fit? ((multiplied?_eq result base exponent).symm.trans multiplied)
    have exactSquare := toInt_of_fit? ((mul?_eq base base).symm.trans squared)
    rw [inductionHypothesis, exact_, exactSquare, mul_assoc, ← pow_eq_digitFactor_mul]
    rw [exact_, exactSquare, mul_self_eq_zero, mul_eq_zero]
    rintro (zero | zero)
    · exact kept zero
    · by_contra nonzero
      exact digitFactor_ne_zero nonzero exponent zero

/-- A power is exact or refused; no square on the way is refused if the power fits. -/
theorem pow?_eq (base : Int64) (exponent : Nat) :
    pow? base exponent = fit? (base.toInt ^ exponent) := by
  rw [pow?, powFrom?_eq 1 base exponent (fun impossible => absurd impossible (by decide)),
    Int64.toInt_one, one_mul]

/-! ### Remainders -/

/-- The remainder differs from the number by a multiple of the divisor, and lies between zero and
the divisor. -/
theorem floorMod_spec (left : Int64) {right : Int64} (nonzero : right.toInt ≠ 0) :
    right.toInt ∣ left.toInt - (floorMod left right).toInt ∧
      (0 ≤ (floorMod left right).toInt ∧ (floorMod left right).toInt < right.toInt ∨
        right.toInt < (floorMod left right).toInt ∧ (floorMod left right).toInt ≤ 0) := by
  have rest := Int64.toInt_mod left right
  have multiple : right.toInt ∣ left.toInt - (left % right).toInt := by
    rw [rest]
    exact Int.dvd_self_sub_tmod
  have size := Int.natAbs_tmod left.toInt right.toInt
  have small := Nat.mod_lt left.toInt.natAbs (Int.natAbs_pos.mpr nonzero)
  rw [← rest] at size
  have rightInside := inRange_toInt right
  simp only [InRange, least, greatest] at rightInside
  simp only [floorMod, ne_eq, ← Int64.toInt_inj, Int64.lt_iff_toInt_lt, Int64.toInt_zero]
  split
  next opposite =>
    have sum := Int64.toInt_add (left % right) right
    rw [bmod_of_inRange (by simp only [InRange, least, greatest]; omega)] at sum
    rw [sum]
    refine ⟨?_, by omega⟩
    rw [← sub_sub]
    exact Int.dvd_sub multiple (Int.dvd_refl _)
  next same =>
    exact ⟨multiple, by omega⟩

end Offside.Number
