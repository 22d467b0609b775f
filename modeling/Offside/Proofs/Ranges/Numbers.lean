/-
This file compares the numbers that a range lists with the progression that it means. A
range counts its numbers in words: the distance of its bounds and the size of its step are
added, and the sum is divided by the step.

The count is exact as long as the sum is a word. If the sum goes around once, it is below
zero, and so is the count; if it goes around twice, it is less than one step, and the count
is zero. So a range that is not exact has no numbers at all. The step of the least word,
which has no opposite, is special: its sum always goes around, and what comes out is right
only where the range has one number.

Whatever the bounds are, the way from the first number of a range to any other one is a
word. For this reason no number comes twice, and a number can be found by dividing its
distance from the start.
-/

import Mathlib.Data.List.Nodup
import Offside.Library.Ranges
import Offside.Proofs.Slicing

namespace Offside.Library

open Exec Number

/-! ### Counting steps -/

/-- How many steps of a size it takes from one number to the other, as words count them. -/
def steps (near far stride : Int64) : Int64 :=
  (far - near + stride - 1) / stride

/-- What is divided is off by a multiple of 2 ^ 64. -/
theorem exists_turns (near far stride : Int64) :
    ∃ turns : Int, (far - near + stride - 1).toInt =
      far.toInt - near.toInt + stride.toInt - 1 + 18446744073709551616 * turns := by
  obtain ⟨first, off⟩ := exists_bmod (far.toInt - near.toInt)
  rw [← Int64.toInt_sub] at off
  obtain ⟨second, offSum⟩ := exists_bmod ((far - near).toInt + stride.toInt)
  rw [← Int64.toInt_add] at offSum
  obtain ⟨third, offLast⟩ := exists_bmod ((far - near + stride).toInt - (1 : Int64).toInt)
  rw [← Int64.toInt_sub] at offLast
  refine ⟨first + second + third, ?_⟩
  rw [offLast, offSum, off, Int64.toInt_one]
  ring

theorem ne_neg_one_of_pos {stride : Int64} (positive : 0 < stride.toInt) : stride ≠ -1 := by
  rintro rfl
  exact absurd positive (by decide)

/-- All steps together are no larger than a word. -/
theorem natAbs_steps_mul_le (near far : Int64) {stride : Int64} (ordinary : stride ≠ -1) :
    (steps near far stride).toInt.natAbs * stride.toInt.natAbs ≤ 2 ^ 63 := by
  have inside := inRange_toInt (far - near + stride - 1)
  simp only [InRange, least, greatest] at inside
  rw [steps, toInt_div (.inl ordinary), Int.natAbs_tdiv]
  exact (Nat.div_mul_le_self _ _).trans (by omega)

section Counting

variable {near far stride : Int64} (apart : near.toInt < far.toInt)

include apart

/-- The count is exact as long as the distance and the step together are a word. -/
theorem toInt_steps (positive : 0 < stride.toInt)
    (fits : InRange (far.toInt - near.toInt + stride.toInt - 1)) :
    (steps near far stride).toInt =
      (far.toInt - near.toInt + stride.toInt - 1) / stride.toInt := by
  obtain ⟨turns, off⟩ := exists_turns near far stride
  have inside := inRange_toInt (far - near + stride - 1)
  simp only [InRange, least, greatest] at fits inside
  have none : turns = 0 := by omega
  rw [none, mul_zero, add_zero] at off
  rw [steps, toInt_div (.inl (ne_neg_one_of_pos positive)), off,
    Int.tdiv_eq_ediv_of_nonneg (by omega)]

/-- So it counts the steps that end before the other number. -/
theorem lt_steps_iff (positive : 0 < stride.toInt)
    (fits : InRange (far.toInt - near.toInt + stride.toInt - 1)) (place : Nat) :
    place < (steps near far stride).toInt.toNat ↔
      near.toInt + place * stride.toInt < far.toInt := by
  have counted : place < (steps near far stride).toInt.toNat ↔
      (place : Int) + 1 ≤ (far.toInt - near.toInt + stride.toInt - 1) / stride.toInt := by
    rw [← toInt_steps apart positive fits]
    omega
  rw [counted, Int.le_ediv_iff_mul_le positive, add_mul, one_mul]
  omega

/-- If they are not, the count goes around to below zero, or further to less than one step. -/
theorem toInt_steps_nonpos (positive : 0 < stride.toInt)
    (unfit : ¬ InRange (far.toInt - near.toInt + stride.toInt - 1)) :
    (steps near far stride).toInt ≤ 0 := by
  obtain ⟨turns, off⟩ := exists_turns near far stride
  have inside := inRange_toInt (far - near + stride - 1)
  have nearInside := inRange_toInt near
  have farInside := inRange_toInt far
  have strideInside := inRange_toInt stride
  simp only [InRange, least, greatest] at unfit inside nearInside farInside strideInside
  rw [steps, toInt_div (.inl (ne_neg_one_of_pos positive))]
  obtain negative | ⟨low, high⟩ : (far - near + stride - 1).toInt ≤ 0 ∨
      0 ≤ (far - near + stride - 1).toInt ∧ (far - near + stride - 1).toInt < stride.toInt := by
    omega
  · have opposite := Int.tdiv_nonneg (Int.neg_nonneg_of_nonpos negative) positive.le
    rw [Int.neg_tdiv] at opposite
    omega
  · rw [Int.tdiv_eq_zero_of_lt low high]

/-- A step of the least word, which has no opposite, is counted only where it is the first one. -/
theorem toInt_steps_minValue :
    (steps near far .minValue).toInt = if far.toInt - near.toInt = 1 then 1 else 0 := by
  obtain ⟨turns, off⟩ := exists_turns near far .minValue
  have inside := inRange_toInt (far - near + .minValue - 1)
  have nearInside := inRange_toInt near
  have farInside := inRange_toInt far
  simp only [InRange, least, greatest] at inside nearInside farInside
  rw [Int64.toInt_minValue] at off
  rw [steps, toInt_div (.inl (by decide)), Int64.toInt_minValue]
  generalize (far - near + Int64.minValue - 1).toInt = total at off inside
  split
  next one =>
    have same : total = -2 ^ 63 := by omega
    rw [same]
    decide
  next more =>
    have small : total.natAbs < (-2 ^ 63 : Int).natAbs := by
      rw [show (-2 ^ 63 : Int).natAbs = 2 ^ 63 from rfl]
      omega
    rw [← Int.natAbs_eq_zero, Int.natAbs_tdiv]
    exact Nat.div_eq_of_lt small

end Counting

/-! ### The numbers of a range -/

namespace Progression

variable (range : Progression)

/-- The distance of the bounds, which a range goes through. -/
def spread : Int :=
  if 0 < range.step then range.stop.toInt - range.start.toInt
  else range.start.toInt - range.stop.toInt

/-- The number at each place of the range. -/
def numbers : List Int64 :=
  (List.range range.length.toInt.toNat).map fun place => range.number (Int64.ofNat place)

variable {range}

theorem length_upwards (upwards : 0 < range.step) (apart : range.start < range.stop) :
    range.length = steps range.start range.stop range.step := by
  rw [length, rangeLength, if_pos (by simp [upwards, apart])]
  rfl

/-- Only the least word has no opposite, and then it is of the same size. -/
theorem natAbs_toInt_neg (word : Int64) : (-word).toInt.natAbs = word.toInt.natAbs := by
  have inside := inRange_toInt word
  simp only [InRange, least, greatest] at inside
  rw [Int64.toInt_neg]
  by_cases lowest : word.toInt = -9223372036854775808
  · rw [lowest]
    decide
  · rw [bmod_of_inRange (by simp only [InRange, least, greatest]; omega), Int.natAbs_neg]

theorem length_downwards (downwards : range.step < 0) (apart : range.stop < range.start) :
    range.length = steps range.stop range.start (-range.step) := by
  have notUpwards : ¬ 0 < range.step := fun upwards => by
    rw [Int64.lt_iff_toInt_lt] at downwards upwards
    omega
  rw [length, rangeLength, if_neg (by simp [notUpwards]), if_pos (by simp [downwards, apart]),
    steps, Int64.sub_eq_add_neg (range.start - range.stop)]

theorem length_of_not_before
    (past : ¬ Before range.step.toInt range.start.toInt range.stop.toInt) : range.length = 0 := by
  simp only [Before, ← Int64.toInt_zero, ← Int64.lt_iff_toInt_lt, not_or] at past
  rw [length, rangeLength, if_neg (by simpa using past.1), if_neg (by simpa using past.2)]

/-- The way from the first number to the last is a word. -/
theorem length_mul_le (range : Progression) :
    range.length.toInt.toNat * range.step.toInt.natAbs ≤ 2 ^ 63 := by
  have least_ {count : Nat} {word : Int64} (bounded : word.toInt.natAbs * count ≤ 2 ^ 63) :
      word.toInt.toNat * count ≤ 2 ^ 63 :=
    (Nat.mul_le_mul_right count (by omega)).trans bounded
  by_cases before : Before range.step.toInt range.start.toInt range.stop.toInt
  · simp only [Before, ← Int64.toInt_zero, ← Int64.lt_iff_toInt_lt] at before
    obtain ⟨upwards, apart⟩ | ⟨downwards, apart⟩ := before
    · rw [length_upwards upwards apart]
      exact least_ (natAbs_steps_mul_le _ _ (ne_neg_one_of_pos (Int64.lt_iff_toInt_lt.mp upwards)))
    · have ordinary : -range.step ≠ -1 := by
        intro same
        rw [Int64.neg_inj.mp same] at downwards
        exact absurd downwards (by decide)
      rw [length_downwards downwards apart, ← natAbs_toInt_neg]
      exact least_ (natAbs_steps_mul_le _ _ ordinary)
  · rw [length_of_not_before before, Int64.toInt_zero, Int.toNat_zero, Nat.zero_mul]
    exact Nat.zero_le _

section Places

variable {place : Nat} (inside : place < range.length.toInt.toNat)

include inside

theorem toInt_place : (Int64.ofNat place).toInt = place :=
  Int64.toInt_ofNat_of_lt (by have := range.length.toInt_lt; omega)

theorem toInt_step_ne_zero : range.step.toInt ≠ 0 := by
  intro zero
  have past : ¬ Before range.step.toInt range.start.toInt range.stop.toInt := by
    simp [Before, zero]
  rw [length_of_not_before past] at inside
  exact absurd inside (Nat.not_lt_zero _)

/-- So is the way to every number. -/
theorem inRange_place : InRange (place * range.step.toInt) := by
  have whole := range.length_mul_le
  have part := Nat.mul_le_mul_right range.step.toInt.natAbs (Nat.succ_le_of_lt inside)
  have size : (place * range.step.toInt : Int).natAbs = place * range.step.toInt.natAbs := by
    rw [Int.natAbs_mul, Int.natAbs_natCast]
  have nonzero := toInt_step_ne_zero inside
  rw [Nat.succ_mul] at part
  simp only [InRange, least, greatest]
  omega

theorem toInt_way : (Int64.ofNat place * range.step).toInt = place * range.step.toInt := by
  rw [Int64.toInt_mul, toInt_place inside, bmod_of_inRange (inRange_place inside)]

theorem toInt_offset :
    (range.number (Int64.ofNat place) - range.start).toInt = place * range.step.toInt := by
  rw [number, Int64.add_comm, Int64.add_sub_cancel, toInt_way inside]

/-- The number at a place is found, and the place is how many steps lead there. -/
theorem holds_number : range.holds (range.number (Int64.ofNat place)) = true := by
  have offset := toInt_offset inside
  have nonzero := toInt_step_ne_zero inside
  have bound := range.length.toInt_lt
  have ordinary : range.step ≠ -1 ∨ range.number (Int64.ofNat place) - range.start ≠ .minValue := by
    refine or_iff_not_imp_left.mpr fun negative lowest => ?_
    rw [lowest, not_not.mp negative, Int64.toInt_minValue,
      show (-1 : Int64).toInt = -1 from rfl] at offset
    omega
  have quotient := toInt_div ordinary
  rw [offset, Int.mul_tdiv_cancel _ nonzero] at quotient
  have rest := Int64.toInt_mod (range.number (Int64.ofNat place) - range.start) range.step
  rw [offset, Int.mul_tmod_left, ← Int64.toInt_zero, Int64.toInt_inj] at rest
  simp only [holds, rest, beq_self_eq_true, Bool.true_and, Bool.and_eq_true, decide_eq_true_eq,
    Int64.le_iff_toInt_le, Int64.lt_iff_toInt_lt, quotient, Int64.toInt_zero]
  omega

end Places

/-- What is found is the number at a place. -/
theorem exists_place {number : Int64} (found : range.holds number = true) :
    ∃ place < range.length.toInt.toNat, range.number (Int64.ofNat place) = number := by
  simp only [holds, Bool.and_eq_true, decide_eq_true_eq, beq_iff_eq] at found
  obtain ⟨⟨whole, natural⟩, inside⟩ := found
  rw [Int64.le_iff_toInt_le, Int64.toInt_zero] at natural
  rw [Int64.lt_iff_toInt_lt] at inside
  generalize offset_ : number - range.start = offset at whole natural inside
  have ordinary : range.step ≠ -1 ∨ offset ≠ .minValue := by
    refine or_iff_not_imp_left.mpr fun negative lowest => ?_
    rw [not_not.mp negative, lowest] at natural
    exact absurd natural (by decide)
  have multiple : offset.toInt.tmod range.step.toInt = 0 := by
    rw [← Int64.toInt_mod, whole, Int64.toInt_zero]
  have way : offset / range.step * range.step = offset := by
    rw [← Int64.toInt_inj, Int64.toInt_mul, toInt_div ordinary,
      Int.tdiv_mul_cancel_of_tmod_eq_zero multiple, bmod_of_inRange (inRange_toInt offset)]
  have place : Int64.ofNat (offset / range.step).toInt.toNat = offset / range.step :=
    Int64.ofNat_toNatClampNeg _ (Int64.le_iff_toInt_le.mpr natural)
  refine ⟨(offset / range.step).toInt.toNat, by omega, ?_⟩
  rw [Progression.number, place, way, ← offset_, Int64.add_comm, Int64.sub_add_cancel]

/-- No number comes twice: the ways to the numbers are words, so none has gone around. -/
theorem nodup_numbers (range : Progression) : range.numbers.Nodup := by
  refine List.Nodup.map_on (fun first insideFirst second insideSecond same => ?_)
    List.nodup_range
  rw [List.mem_range] at insideFirst insideSecond
  have ways := toInt_offset insideFirst
  rw [same, toInt_offset insideSecond] at ways
  exact Int.natCast_inj.mp (mul_right_cancel₀ (toInt_step_ne_zero insideFirst) ways).symm

/-- A number is found exactly if it is listed. -/
theorem holds_eq (range : Progression) (number : Int64) :
    range.holds number = decide (number ∈ range.numbers) := by
  rw [Bool.eq_iff_iff, decide_eq_true_eq, numbers, List.mem_map]
  constructor
  · intro found
    obtain ⟨place, inside, same⟩ := exists_place found
    exact ⟨place, List.mem_range.mpr inside, same⟩
  · rintro ⟨place, inside, rfl⟩
    exact holds_number (List.mem_range.mp inside)

theorem length_numbers (range : Progression) :
    range.numbers.length = range.length.toInt.toNat := by
  rw [numbers, List.length_map, List.length_range]

theorem getElem_numbers {place : Nat} (inside : place < range.numbers.length) :
    range.numbers[place] = range.number (Int64.ofNat place) := by
  simp [numbers]

/-! ### Exact ranges -/

/-- The distance of the bounds and the size of the step together are a word, or there is only the
first number. -/
def Fits (range : Progression) : Prop :=
  InRange (range.spread + range.step.toInt.natAbs - 1) ∨ range.spread = 1

/-- Only a step of the least word has no opposite. -/
theorem toInt_neg_step (other : range.step ≠ .minValue) :
    (-range.step).toInt = -range.step.toInt := by
  have apart := toInt_ne_of_ne other
  have inside := inRange_toInt range.step
  rw [Int64.toInt_minValue] at apart
  simp only [InRange, least, greatest] at inside
  rw [Int64.toInt_neg, bmod_of_inRange]
  simp only [InRange, least, greatest]
  omega

/-- In an exact range, a place is one of the range as long as its number is before the bound. -/
theorem lt_length_iff (fits : range.Fits)
    (before : Before range.step.toInt range.start.toInt range.stop.toInt) (place : Nat) :
    place < range.length.toInt.toNat ↔
      Before range.step.toInt (range.start.toInt + place * range.step.toInt) range.stop.toInt := by
  have stepInside := inRange_toInt range.step
  simp only [Fits, spread, Int64.lt_iff_toInt_lt, Int64.toInt_zero] at fits
  simp only [InRange, least, greatest] at fits stepInside
  obtain ⟨upwards, apart⟩ | ⟨downwards, apart⟩ := before
  · rw [length_upwards (Int64.lt_iff_toInt_lt.mpr upwards) (Int64.lt_iff_toInt_lt.mpr apart),
      lt_steps_iff apart upwards (by simp only [InRange, least, greatest]; omega)]
    simp only [Before]
    omega
  · rw [length_downwards (Int64.lt_iff_toInt_lt.mpr downwards) (Int64.lt_iff_toInt_lt.mpr apart)]
    by_cases lowest : range.step = .minValue
    · have stepLeast : range.step.toInt = -9223372036854775808 := by rw [lowest]; rfl
      have single : range.start.toInt - range.stop.toInt = 1 := by omega
      rw [lowest, show -Int64.minValue = .minValue from rfl, toInt_steps_minValue apart,
        if_pos single, ← lowest, stepLeast]
      simp only [Before]
      omega
    · have opposite := toInt_neg_step lowest
      have other := toInt_ne_of_ne lowest
      rw [Int64.toInt_minValue] at other
      rw [lt_steps_iff apart (by omega) (by simp only [InRange, least, greatest]; omega), opposite]
      simp only [Before]
      rw [mul_neg]
      omega

/-- An exact range lists the progression from its start, as far as it is before the bound. -/
theorem isProgression_numbers (fits : range.Fits)
    (before : Before range.step.toInt range.start.toInt range.stop.toInt) :
    IsProgression range.start.toInt range.stop.toInt range.step.toInt
      (range.numbers.map Int64.toInt) where
  item place inside := by
    have placed := inside
    rw [List.length_map] at placed
    rw [List.getElem_map, getElem_numbers placed]
    rw [length_numbers] at placed
    have reached := (lt_length_iff fits before place).mp placed
    have startInside := inRange_toInt range.start
    have stopInside := inRange_toInt range.stop
    rw [number, Int64.toInt_add, toInt_way placed, bmod_of_inRange]
    simp only [Before, InRange, least, greatest] at before reached startInside stopInside ⊢
    obtain ⟨upwards, -⟩ | ⟨downwards, -⟩ := before
    · have forward : 0 ≤ place * range.step.toInt := by positivity
      omega
    · have backward : place * range.step.toInt ≤ 0 :=
        mul_nonpos_of_nonneg_of_nonpos (Int.natCast_nonneg place) downwards.le
      omega
  inside_iff place := by
    rw [List.length_map, length_numbers, lt_length_iff fits before]

/-- A range that is not exact is empty. -/
theorem length_nonpos (unfit : ¬ range.Fits)
    (before : Before range.step.toInt range.start.toInt range.stop.toInt) :
    range.length.toInt ≤ 0 := by
  have stepInside := inRange_toInt range.step
  simp only [Fits, spread, Int64.lt_iff_toInt_lt, Int64.toInt_zero, not_or] at unfit
  simp only [InRange, least, greatest] at unfit stepInside
  obtain ⟨upwards, apart⟩ | ⟨downwards, apart⟩ := before
  · rw [length_upwards (Int64.lt_iff_toInt_lt.mpr upwards) (Int64.lt_iff_toInt_lt.mpr apart)]
    exact toInt_steps_nonpos apart upwards (by simp only [InRange, least, greatest]; omega)
  · rw [length_downwards (Int64.lt_iff_toInt_lt.mpr downwards) (Int64.lt_iff_toInt_lt.mpr apart)]
    by_cases lowest : range.step = .minValue
    · rw [lowest, show -Int64.minValue = .minValue from rfl, toInt_steps_minValue apart,
        if_neg (by omega)]
    · have opposite := toInt_neg_step lowest
      exact toInt_steps_nonpos apart (by omega) (by simp only [InRange, least, greatest]; omega)

end Progression

end Offside.Library
