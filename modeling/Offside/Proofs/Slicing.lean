/-
This file compares what a slice selects with the progression that it means. The bounds
are brought between the ends of the sequence, and from there on the progression goes in
whole numbers, as far as it is before the second bound. All of it lies in the sequence.

The selection counts in words. It is the progression as long as the first position behind
it still is a word. Downwards that is always so: a position of the progression is not
below zero, and there is room for any step below it. Upwards a large step can go around.
Then the counter comes back below zero, which is before the second bound again, and the
selection goes on with positions that the sequence does not have.
-/

import Offside.Eval.Beginning
import Offside.Library.Positions
import Offside.Proofs.Exactness

namespace Offside.Library

open Exec Number

/-! ### Progressions -/

/-- The position comes before the bound on a walk with this step. -/
def Before (step position bound : Int) : Prop :=
  0 < step ∧ position < bound ∨ step < 0 ∧ bound < position

/-- All numbers of the progression from `start` on that come before the bound, in their order. -/
structure IsProgression (start stop step : Int) (positions : List Int) : Prop where
  item : ∀ (place : Nat) (inside : place < positions.length),
    positions[place] = start + place * step
  inside_iff : ∀ place : Nat, place < positions.length ↔ Before step (start + place * step) stop

instance (step position bound : Int) : Decidable (Before step position bound) :=
  inferInstanceAs (Decidable (_ ∨ _))

section Progressions

variable {start stop step : Int} {positions : List Int}

theorem before_add (place : Nat) (later : Before step (start + (place + 1 : Nat) * step) stop) :
    Before step (start + place * step) stop := by
  rw [Int.natCast_succ, add_mul, one_mul] at later
  simp only [Before] at later ⊢
  omega

/-- What is not before the bound stays so. -/
theorem isProgression_nil (past : ¬ Before step start stop) :
    IsProgression start stop step [] where
  item _ inside := absurd inside (Nat.not_lt_zero _)
  inside_iff place := by
    refine iff_of_false (Nat.not_lt_zero _) ?_
    induction place with
    | zero => simpa using past
    | succ place inductionHypothesis =>
      exact fun later => inductionHypothesis (before_add place later)

theorem add_succ_mul (start step : Int) (place : Nat) :
    start + (place + 1 : Nat) * step = start + step + place * step := by
  rw [Int.natCast_succ, add_mul, one_mul, add_assoc, add_comm step]

theorem isProgression_cons (before : Before step start stop) :
    IsProgression start stop step (start :: positions) ↔
      IsProgression (start + step) stop step positions := by
  refine ⟨fun whole => ⟨fun place inside => ?_, fun place => ?_⟩,
    fun rest => ⟨fun place inside => ?_, fun place => ?_⟩⟩
  · rw [← add_succ_mul, ← whole.item (place + 1) (Nat.succ_lt_succ inside)]
    rfl
  · rw [← add_succ_mul, ← whole.inside_iff, List.length_cons, Nat.succ_lt_succ_iff]
  · cases place with
    | zero => simp
    | succ place => rw [add_succ_mul, ← rest.item place (Nat.lt_of_succ_lt_succ inside)]; rfl
  · cases place with
    | zero => simpa using before
    | succ place => rw [add_succ_mul, ← rest.inside_iff, List.length_cons, Nat.succ_lt_succ_iff]

/-- A progression is at its end, or it begins with its start and goes on one step further. -/
theorem IsProgression.cases (progression : IsProgression start stop step positions) :
    positions = [] ∧ ¬ Before step start stop ∨
      ∃ rest, positions = start :: rest ∧ Before step start stop ∧
        IsProgression (start + step) stop step rest := by
  have first := progression.inside_iff 0
  rw [Int.natCast_zero, zero_mul, add_zero] at first
  cases positions with
  | nil => exact .inl ⟨rfl, fun before => Nat.not_lt_zero _ (first.mpr before)⟩
  | cons head rest =>
    have before := first.mp (Nat.succ_pos _)
    have starts : head = start := by simpa using progression.item 0 (Nat.succ_pos _)
    subst starts
    exact .inr ⟨rest, rfl, before, (isProgression_cons before).mp progression⟩

/-- Progressions are taken apart position by position. -/
@[elab_as_elim]
theorem IsProgression.induct
    {motive : ∀ start positions, IsProgression start stop step positions → Prop}
    (ended : ∀ start (past : ¬ Before step start stop), motive start [] (isProgression_nil past))
    (further : ∀ start rest (before : Before step start stop)
      (progression : IsProgression (start + step) stop step rest),
      motive (start + step) rest progression →
      motive start (start :: rest) ((isProgression_cons before).mpr progression))
    {start : Int} {positions : List Int} (progression : IsProgression start stop step positions) :
    motive start positions progression := by
  induction positions generalizing start with
  | nil =>
    obtain ⟨-, past⟩ | ⟨rest, impossible, -⟩ := progression.cases
    · exact ended start past
    · cases impossible
  | cons head rest inductionHypothesis =>
    obtain ⟨impossible, -⟩ | ⟨others, same, before, progression⟩ := progression.cases
    · cases impossible
    · cases same
      exact further head rest before progression (inductionHypothesis progression)

/-- There is only one progression with these bounds. -/
theorem IsProgression.unique (progression : IsProgression start stop step positions)
    {others : List Int} (other : IsProgression start stop step others) : positions = others := by
  induction progression using IsProgression.induct generalizing others with
  | ended start past =>
    obtain ⟨rfl, -⟩ | ⟨rest, -, before, -⟩ := other.cases
    · rfl
    · exact absurd before past
  | further start rest before progression inductionHypothesis =>
    obtain ⟨-, past⟩ | ⟨rest, rfl, -, furtherToo⟩ := other.cases
    · exact absurd before past
    · rw [inductionHypothesis furtherToo]

theorem exists_isProgression (start stop : Int) (nonzero : step ≠ 0) :
    ∃ positions, IsProgression start stop step positions := by
  by_cases before : Before step start stop
  · obtain ⟨rest, progression⟩ := exists_isProgression (start + step) stop nonzero
    exact ⟨start :: rest, (isProgression_cons before).mpr progression⟩
  · exact ⟨[], isProgression_nil before⟩
termination_by if 0 < step then (stop - start).toNat else (start - stop).toNat
decreasing_by
  simp only [Before] at before
  split <;> omega

/-- The positions of a progression lie between its start and the bound. -/
theorem IsProgression.between (progression : IsProgression start stop step positions)
    {position : Int} (inside : position ∈ positions) :
    Before step position stop ∧ (position = start ∨ Before step start position) := by
  induction progression using IsProgression.induct with
  | ended => cases inside
  | further start rest before progression inductionHypothesis =>
    obtain rfl | later := List.mem_cons.mp inside
    · exact ⟨before, .inl rfl⟩
    · have apart := inductionHypothesis later
      simp only [Before] at apart before ⊢
      omega

/-- Later positions of a progression are further on its way. -/
theorem IsProgression.pairwise (progression : IsProgression start stop step positions) :
    positions.Pairwise (Before step) := by
  induction progression using IsProgression.induct with
  | ended => exact .nil
  | further start rest before progression inductionHypothesis =>
    refine .cons (fun position later => ?_) inductionHypothesis
    have apart := (progression.between later).2
    simp only [Before] at apart before ⊢
    omega

theorem IsProgression.length_le (progression : IsProgression start stop step positions) :
    positions.length ≤ (if 0 < step then stop - start else start - stop).toNat := by
  induction progression using IsProgression.induct with
  | ended => exact Nat.zero_le _
  | further start rest before progression inductionHypothesis =>
    rw [List.length_cons]
    simp only [Before] at before
    split at inductionHypothesis <;> split <;> omega

end Progressions

/-! ### Bounds -/

section Bounds

variable (length : Nat) (step : Int)

/-- The lowest position that a bound can mean: a walk downwards may stop before the sequence. -/
def lowest : Int :=
  if step < 0 then -1 else 0

/-- The highest position that a bound can mean: a walk upwards may stop behind the sequence. -/
def highest : Int :=
  if step < 0 then length - 1 else length

/-- What a bound means: one below zero counts from the end, and none goes further than the lowest
and the highest. -/
def resolved (otherwise : Int) : Option Int64 → Int
  | none => otherwise
  | some value => max (lowest step)
      (min (highest length step) (if value.toInt < 0 then value.toInt + length else value.toInt))

/-- Where a selection begins: at the end that the walk comes from, if the bound is left out. -/
def firstPosition (start : Option Int64) : Int :=
  resolved length step (if step < 0 then highest length step else lowest step) start

/-- Where a selection stops: at the end that the walk goes to, if the bound is left out. -/
def lastPosition (stop : Option Int64) : Int :=
  resolved length step (if step < 0 then lowest step else highest length step) stop

variable {length step}

theorem resolved_between {otherwise : Int} (low : lowest step ≤ otherwise)
    (high : otherwise ≤ highest length step) (bound : Option Int64) :
    lowest step ≤ resolved length step otherwise bound ∧
      resolved length step otherwise bound ≤ highest length step := by
  cases bound with
  | none => exact ⟨low, high⟩
  | some value => exact ⟨le_max_left _ _, max_le (low.trans high) (min_le_left _ _)⟩

theorem lowest_le_highest (length : Nat) (step : Int) : lowest step ≤ highest length step := by
  unfold lowest highest
  split <;> omega

theorem firstPosition_between (length : Nat) (step : Int) (start : Option Int64) :
    lowest step ≤ firstPosition length step start ∧
      firstPosition length step start ≤ highest length step := by
  have ends := lowest_le_highest length step
  refine resolved_between ?_ ?_ start <;> split <;> omega

theorem lastPosition_between (length : Nat) (step : Int) (stop : Option Int64) :
    lowest step ≤ lastPosition length step stop ∧
      lastPosition length step stop ≤ highest length step := by
  have ends := lowest_le_highest length step
  refine resolved_between ?_ ?_ stop <;> split <;> omega

/-- The progression between two bounds lies in the sequence. -/
theorem IsProgression.inside {start stop : Option Int64} {positions : List Int}
    (progression : IsProgression (firstPosition length step start) (lastPosition length step stop)
      step positions) {position : Int} (inside : position ∈ positions) :
    0 ≤ position ∧ position < length := by
  have first := firstPosition_between length step start
  have last := lastPosition_between length step stop
  have between := progression.between inside
  simp only [lowest, highest, Before] at first last between
  omega

/-- The number behind the progression is one step further than a position of the sequence, unless it
is the first position. -/
theorem IsProgression.behind {start stop : Option Int64} {positions : List Int}
    (progression : IsProgression (firstPosition length step start) (lastPosition length step stop)
      step positions) :
    positions = [] ∨ ∃ position : Int, 0 ≤ position ∧ position < length ∧
      firstPosition length step start + positions.length * step = position + step := by
  cases positions with
  | nil => exact .inl rfl
  | cons head rest =>
    have last := progression.item rest.length (Nat.lt_succ_self _)
    obtain ⟨low, high⟩ := progression.inside (List.getElem_mem (Nat.lt_succ_self rest.length))
    refine .inr ⟨(head :: rest)[rest.length], low, high, ?_⟩
    rw [last, List.length_cons, add_succ_mul, add_right_comm]

/-- There are no more positions than elements. -/
theorem IsProgression.length_le_length {start stop : Option Int64} {positions : List Int}
    (progression : IsProgression (firstPosition length step start) (lastPosition length step stop)
      step positions) : positions.length ≤ length := by
  have first := firstPosition_between length step start
  have last := lastPosition_between length step stop
  have short := progression.length_le
  simp only [lowest, highest] at first last
  split at short <;> omega

end Bounds

/-! ### Words -/

section Words

variable {length : Nat} {stop step position : Int64}

theorem before_iff : ((0 < step && position < stop) || (step < 0 && stop < position)) = true ↔
    Before step.toInt position.toInt stop.toInt := by
  simp [Before, Int64.lt_iff_toInt_lt]

theorem toInt_size (fits : length < 2 ^ 63) : (Int64.ofNat length).toInt = length :=
  Int64.toInt_ofNat_of_lt fits

theorem toInt_add_of_inRange {left right : Int64} (inside : InRange (left.toInt + right.toInt)) :
    (left + right).toInt = left.toInt + right.toInt := by
  rw [Int64.toInt_add, bmod_of_inRange inside]

theorem toInt_size_sub (fits : length < 2 ^ 63) : (Int64.ofNat length - 1).toInt = length - 1 := by
  rw [Int64.toInt_sub, toInt_size fits]
  refine bmod_of_inRange ?_
  simp only [InRange, least, greatest]
  have one : (1 : Int64).toInt = 1 := rfl
  rw [one]
  omega

theorem toInt_clampBound (fits : length < 2 ^ 63) (value : Int64) (otherwise : Int) :
    (clampBound (Int64.ofNat length) step value).toInt =
      resolved length step.toInt otherwise (some value) := by
  have size := toInt_size fits
  have below := toInt_size_sub fits
  have inside := inRange_toInt value
  have zero : (0 : Int64).toInt = 0 := rfl
  have minusOne : (-1 : Int64).toInt = -1 := rfl
  simp only [InRange, least, greatest] at inside
  have fromEnd (negative : value.toInt < 0) :
      (value + Int64.ofNat length).toInt = value.toInt + length := by
    rw [toInt_add_of_inRange, size]
    simp only [InRange, least, greatest, size]
    omega
  simp only [clampBound, resolved, lowest, highest, Int64.lt_iff_toInt_lt, Int64.le_iff_toInt_le,
    zero, size]
  by_cases negative : value.toInt < 0
  · rw [if_pos negative, if_pos negative, fromEnd negative]
    split_ifs <;> simp only [fromEnd negative, zero, minusOne] <;> omega
  · rw [if_neg negative, if_neg negative]
    split_ifs <;> omega

/-! ### The walk -/

theorem walk_of_not_before (past : ¬ Before step.toInt position.toInt stop.toInt) (fuel : Nat) :
    walk stop step fuel position = [] := by
  cases fuel with
  | zero => rfl
  | succ fuel => rw [walk, if_neg (before_iff.not.mpr past)]

theorem walk_of_before (before : Before step.toInt position.toInt stop.toInt) (fuel : Nat) :
    walk stop step (fuel + 1) position = position :: walk stop step fuel (position + step) := by
  rw [walk, if_pos (before_iff.mpr before)]

/-- The walk passes the whole progression. Behind it comes the next number, as far as that is a
word. -/
theorem walk_progression {exact_ : List Int}
    (progression : IsProgression position.toInt stop.toInt step.toInt exact_) :
    ∃ passed next, passed.map Int64.toInt = exact_ ∧
      next.toInt = (position.toInt + exact_.length * step.toInt).bmod (2 ^ 64) ∧
      ∀ fuel, walk stop step (exact_.length + fuel) position =
        passed ++ walk stop step fuel next := by
  induction exact_ generalizing position with
  | nil =>
    refine ⟨[], position, rfl, ?_, fun fuel => by simp⟩
    rw [List.length_nil, Int.natCast_zero, zero_mul, add_zero, bmod_of_inRange (inRange_toInt _)]
  | cons head rest inductionHypothesis =>
    obtain ⟨impossible, -⟩ | ⟨others, same, before, further⟩ := progression.cases
    · cases impossible
    · cases same
      cases rest with
      | nil =>
        refine ⟨[position], position + step, rfl, ?_, fun fuel => ?_⟩
        · rw [Int64.toInt_add, List.length_singleton, Int.natCast_one, one_mul]
        · rw [List.length_singleton, add_comm, walk_of_before before]
          rfl
      | cons second rest =>
        -- The second position lies between the first one and the bound, so it is a word.
        have inside : InRange (position.toInt + step.toInt) := by
          have beforeNext := (further.inside_iff 0).mp (Nat.succ_pos _)
          have low := inRange_toInt position
          have high := inRange_toInt stop
          simp only [Before, InRange, Int.natCast_zero, zero_mul] at before beforeNext low high ⊢
          omega
        have added := toInt_add_of_inRange inside
        rw [← added] at further
        obtain ⟨passed, next, listed, reached, walked⟩ := inductionHypothesis further
        refine ⟨position :: passed, next, ?_, ?_, fun fuel => ?_⟩
        · rw [List.map_cons, listed]
        · rw [reached, added, ← add_succ_mul]
          rfl
        · rw [List.length_cons, Nat.add_right_comm, walk_of_before before, walked]
          rfl

/-- Stepping from a position ends by itself after these positions. -/
inductive Walks (stop : Int) (step : Int64) : Int64 → List Int64 → Prop where
  | finished {position : Int64} (ends : ¬ Before step.toInt position.toInt stop) :
      Walks stop step position []
  | next {position : Int64} {rest : List Int64} (before : Before step.toInt position.toInt stop)
      (walks : Walks stop step (position + step) rest) : Walks stop step position (position :: rest)

/-- A walk that does not use up its fuel ends by itself. -/
theorem walks_of_length_lt {fuel : Nat} (short : (walk stop step fuel position).length < fuel) :
    Walks stop.toInt step position (walk stop step fuel position) := by
  induction fuel generalizing position with
  | zero => exact absurd short (Nat.not_lt_zero _)
  | succ fuel inductionHypothesis =>
    by_cases before : Before step.toInt position.toInt stop.toInt
    · rw [walk_of_before before] at short ⊢
      exact .next before (inductionHypothesis (Nat.lt_of_succ_lt_succ short))
    · rw [walk_of_not_before before]
      exact .finished before

/-- A sum is exact, or it went around by 2 ^ 64. -/
theorem toInt_add_cases (left right : Int64) :
    least ≤ (left + right).toInt ∧ (left + right).toInt ≤ greatest ∧
      ((left + right).toInt = left.toInt + right.toInt ∨
        (left + right).toInt = left.toInt + right.toInt - 18446744073709551616 ∨
        (left + right).toInt = left.toInt + right.toInt + 18446744073709551616) := by
  have leftInside := inRange_toInt left
  have rightInside := inRange_toInt right
  obtain ⟨low, high⟩ := inRange_toInt (left + right)
  obtain ⟨turns, off⟩ := exists_bmod (left.toInt + right.toInt)
  rw [← Int64.toInt_add] at off
  simp only [InRange, least, greatest] at leftInside rightInside low high ⊢
  omega

/-- A step that is this much below 2 ^ 63 takes two positions to go around, the second of which is
twice as much below the first one. -/
theorem length_walk_le {lack : Int} (large : step.toInt = 9223372036854775808 - lack)
    (positive : 0 < lack) (small : lack ≤ 2 ^ 61) (low : 0 ≤ stop.toInt)
    (high : stop.toInt ≤ 2 ^ 61) (above : -lack ≤ position.toInt) (below : position.toInt ≤ 2 ^ 61)
    (fuel : Nat) :
    ((walk stop step fuel position).length : Int) ≤ max 1 (position.toInt + 2) := by
  induction fuel using Nat.strongRecOn generalizing position with
  | ind fuel inductionHypothesis =>
    cases fuel with
    | zero => simp [walk]
    | succ fuel =>
      by_cases before : Before step.toInt position.toInt stop.toInt
      · have after := toInt_add_cases position step
        have afterTwo := toInt_add_cases (position + step) step
        simp only [least, greatest] at after afterTwo
        rw [walk_of_before before, List.length_cons]
        by_cases around : lack ≤ position.toInt
        · cases fuel with
          | zero => simp [walk]
          | succ fuel =>
            have beforeAgain : Before step.toInt (position + step).toInt stop.toInt := by
              simp only [Before]
              omega
            have rest := inductionHypothesis fuel (by omega)
              (show -lack ≤ (position + step + step).toInt by omega) (by omega)
            rw [walk_of_before beforeAgain, List.length_cons]
            omega
        · have ends : ¬ Before step.toInt (position + step).toInt stop.toInt := by
            simp only [Before]
            omega
          rw [walk_of_not_before ends]
          simp
      · rw [walk_of_not_before before]
        simp

end Words

/-! ### Selections -/

/-- What a bound of a slice says: a number, or nothing. -/
def boundValue? : Payload → Option (Option Int64)
  | .none => some none
  | payload => (indexValue? payload).map some

section Selections

variable {world : World} {bound : Ref}

theorem boundPosition_eq {value : Option Int64}
    (given : boundValue? (world.payload bound) = some value) (length step otherwise : Int64) :
    boundPosition bound length step otherwise world =
      .ok (value.elim otherwise (clampBound length step)) world := by
  rw [boundPosition, read_bind]
  cases held : world.payload bound <;> rw [held] at given <;> cases given <;> rfl

theorem stepOf_eq {value : Option Int64}
    (given : boundValue? (world.payload bound) = some value) (nonzero : value ≠ some 0) :
    stepOf bound world = .ok (value.getD 1) world := by
  rw [stepOf, read_bind]
  cases held : world.payload bound <;> rw [held] at given <;> cases given
  case none => rfl
  case int value =>
    have other : (value == 0) = false := beq_false_of_ne fun same => nonzero (congrArg some same)
    dsimp only [indexValue?]
    rw [other]
    rfl
  case bool value =>
    cases value with
    | false => exact absurd rfl nonzero
    | true => rfl

theorem select_eq {bounds : Bounds} {length : Nat} (fits : length < 2 ^ 63)
    {start stop step : Option Int64}
    (startGiven : boundValue? (world.payload bounds.start) = some start)
    (stopGiven : boundValue? (world.payload bounds.stop) = some stop)
    (stepGiven : boundValue? (world.payload bounds.step) = some step) (nonzero : step ≠ some 0) :
    ∃ first last : Int64, first.toInt = firstPosition length (step.getD 1).toInt start ∧
      last.toInt = lastPosition length (step.getD 1).toInt stop ∧
      select bounds length world = .ok
        ⟨first, step.getD 1, walk last (step.getD 1) (2 * length + 4) first⟩ world := by
  have read := stepOf_eq stepGiven nonzero
  generalize step.getD 1 = stride at read ⊢
  refine ⟨start.elim (if stride < 0 then Int64.ofNat length - 1 else 0)
      (clampBound (Int64.ofNat length) stride),
    stop.elim (if stride < 0 then -1 else Int64.ofNat length)
      (clampBound (Int64.ofNat length) stride), ?_, ?_, ?_⟩
  · cases start with
    | some value => exact toInt_clampBound fits value _
    | none =>
      simp only [Option.elim, firstPosition, resolved, highest, lowest, Int64.lt_iff_toInt_lt,
        Int64.toInt_zero]
      split
      · exact toInt_size_sub fits
      · rfl
  · cases stop with
    | some value => exact toInt_clampBound fits value _
    | none =>
      simp only [Option.elim, lastPosition, resolved, highest, lowest, Int64.lt_iff_toInt_lt,
        Int64.toInt_zero]
      split
      · rfl
      · exact toInt_size fits
  · simp only [select]
    rw [bind_of_ok read, bind_of_ok (boundPosition_eq startGiven _ _ _),
      bind_of_ok (boundPosition_eq stopGiven _ _ _)]
    rfl

/-- The progression that a slice means, for a sequence of this length. -/
structure Selection.Means (selection : Selection) (length : Nat) (start stop : Option Int64)
    (exact_ : List Int) : Prop where
  begins : selection.start.toInt = firstPosition length selection.step.toInt start
  progression : IsProgression (firstPosition length selection.step.toInt start)
    (lastPosition length selection.step.toInt stop) selection.step.toInt exact_
  inside : ∀ position ∈ exact_, 0 ≤ position ∧ position < length
  monotone : exact_.Pairwise (Before selection.step.toInt)

/-- The selection is made by steps that end by themselves, before the bound of the slice. -/
def Selection.Ends (selection : Selection) (length : Nat) (stop : Option Int64) : Prop :=
  Walks (lastPosition length selection.step.toInt stop) selection.step selection.start
    selection.positions

section Stepping

variable {length : Nat} {start stop : Option Int64} {first last stride : Int64}
  {exact_ : List Int} (firstMeant : first.toInt = firstPosition length stride.toInt start)
  (lastMeant : last.toInt = lastPosition length stride.toInt stop)
  (progression : IsProgression (firstPosition length stride.toInt start)
    (lastPosition length stride.toInt stop) stride.toInt exact_)

include firstMeant lastMeant progression

/-- Stepping selects the progression, if the number behind it is a word. -/
theorem walk_exact (inside : InRange (first.toInt + exact_.length * stride.toInt)) :
    (walk last stride (2 * length + 4) first).map Int64.toInt = exact_ ∧
      Walks last.toInt stride first (walk last stride (2 * length + 4) first) := by
  have short := progression.length_le_length
  rw [← firstMeant, ← lastMeant] at progression
  obtain ⟨passed, next, listed, reached, walked⟩ := walk_progression progression
  rw [bmod_of_inRange inside] at reached
  have past : ¬ Before stride.toInt next.toInt last.toInt := by
    rw [reached, ← progression.inside_iff]
    exact Nat.lt_irrefl _
  obtain ⟨spare, enough⟩ := Nat.exists_eq_add_of_le (show exact_.length ≤ 2 * length + 4 by omega)
  have selected : walk last stride (2 * length + 4) first = passed := by
    rw [enough, walked, walk_of_not_before past, List.append_nil]
  refine ⟨selected ▸ listed, walks_of_length_lt ?_⟩
  rw [selected, ← List.length_map Int64.toInt, listed]
  omega

/-- If it is none, the step is one upwards that goes around, to a position below zero. -/
theorem walk_around (fits : length < 2 ^ 63)
    (outside : ¬ InRange (first.toInt + exact_.length * stride.toInt)) :
    0 < stride ∧ ∃ position ∈ walk last stride (2 * length + 4) first, position < 0 := by
  have short := progression.length_le_length
  have behind := progression.behind
  have bound := lastPosition_between length stride.toInt stop
  rw [← lastMeant] at bound
  rw [← firstMeant, ← lastMeant] at progression
  rw [← firstMeant] at behind
  obtain ⟨passed, next, listed, reached, walked⟩ := walk_progression progression
  obtain rfl | ⟨position, low, high, same⟩ := behind
  · rw [List.length_nil, Int.natCast_zero, zero_mul, add_zero] at outside
    exact absurd (inRange_toInt first) outside
  · rw [same] at outside reached
    obtain ⟨turns, off⟩ := exists_bmod (position + stride.toInt)
    rw [← reached] at off
    have strideInside := inRange_toInt stride
    have nextInside := inRange_toInt next
    simp only [InRange, least, greatest] at outside strideInside nextInside
    have upwards : 0 < stride.toInt := by omega
    have negative : next.toInt < 0 := by omega
    have before : Before stride.toInt next.toInt last.toInt := by
      simp only [lowest, if_neg (Int.lt_asymm upwards)] at bound
      exact .inl ⟨upwards, by omega⟩
    refine ⟨Int64.lt_iff_toInt_lt.mpr upwards, next, ?_, Int64.lt_iff_toInt_lt.mpr negative⟩
    obtain ⟨spare, enough⟩ := Nat.exists_eq_add_of_lt
      (show exact_.length < 2 * length + 4 by omega)
    rw [enough, Nat.add_assoc, walked, walk_of_before before]
    exact List.mem_append_right _ List.mem_cons_self

/-- In a sequence of ordinary length, also a walk that goes around ends by itself. -/
theorem walk_ends (ordinary : length ≤ 2 ^ 61) :
    Walks last.toInt stride first (walk last stride (2 * length + 4) first) := by
  by_cases inside : InRange (first.toInt + exact_.length * stride.toInt)
  · exact (walk_exact firstMeant lastMeant progression inside).2
  · have upwards := (walk_around firstMeant lastMeant progression (by omega) inside).1
    have fromBounds := firstPosition_between length stride.toInt start
    have toBounds := lastPosition_between length stride.toInt stop
    have behind := progression.behind
    rw [← firstMeant] at fromBounds behind
    rw [← lastMeant] at toBounds
    rw [Int64.lt_iff_toInt_lt] at upwards
    have strideInside := inRange_toInt stride
    obtain rfl | ⟨position, low, high, same⟩ := behind
    · exact absurd (inRange_toInt first) (by simpa using inside)
    · rw [same] at inside
      rw [Int64.toInt_zero] at upwards
      simp only [InRange, least, greatest, lowest, highest, if_neg (Int.lt_asymm upwards)]
        at inside strideInside fromBounds toBounds
      obtain ⟨lack, large⟩ : ∃ lack : Int, stride.toInt = 9223372036854775808 - lack :=
        ⟨9223372036854775808 - stride.toInt, by omega⟩
      have short := length_walk_le large (by omega) (by omega) (show 0 ≤ last.toInt by omega)
        (by omega) (show -lack ≤ first.toInt by omega) (by omega) (2 * length + 4)
      refine walks_of_length_lt ?_
      omega

end Stepping

/-- What a slice selects is found by stepping from the beginning of a progression. -/
theorem select_progression {bounds : Bounds} {length : Nat} (fits : length < 2 ^ 63)
    {start stop step : Option Int64}
    (startGiven : boundValue? (world.payload bounds.start) = some start)
    (stopGiven : boundValue? (world.payload bounds.stop) = some stop)
    (stepGiven : boundValue? (world.payload bounds.step) = some step) (nonzero : step ≠ some 0) :
    ∃ (first last : Int64) (exact_ : List Int),
      first.toInt = firstPosition length (step.getD 1).toInt start ∧
      last.toInt = lastPosition length (step.getD 1).toInt stop ∧
      IsProgression (firstPosition length (step.getD 1).toInt start)
        (lastPosition length (step.getD 1).toInt stop) (step.getD 1).toInt exact_ ∧
      select bounds length world = .ok
        ⟨first, step.getD 1, walk last (step.getD 1) (2 * length + 4) first⟩ world := by
  obtain ⟨first, last, firstMeant, lastMeant, selected⟩ :=
    select_eq fits startGiven stopGiven stepGiven nonzero
  have turning : (step.getD 1).toInt ≠ 0 := by
    rw [ne_eq, ← Int64.toInt_zero, Int64.toInt_inj]
    cases step with
    | none => decide
    | some value => exact fun same => nonzero (congrArg some same)
  obtain ⟨exact_, progression⟩ := exists_isProgression
    (firstPosition length (step.getD 1).toInt start)
    (lastPosition length (step.getD 1).toInt stop) turning
  exact ⟨first, last, exact_, firstMeant, lastMeant, progression, selected⟩

/-- A selection that begins where a progression does means this progression. -/
theorem Selection.means_of_progression {selection : Selection} {length : Nat}
    {start stop : Option Int64} {exact_ : List Int}
    (begins : selection.start.toInt = firstPosition length selection.step.toInt start)
    (progression : IsProgression (firstPosition length selection.step.toInt start)
      (lastPosition length selection.step.toInt stop) selection.step.toInt exact_) :
    selection.Means length start stop exact_ :=
  ⟨begins, progression, fun _ => progression.inside, progression.pairwise⟩

/-- A slice with bounds that are integers or left out, and with a step that is not zero, means a
progression of positions of the sequence, which goes strictly upwards or downwards. That is what is
selected, as long as the number behind the progression is an integer of the language; for steps
downwards it always is. If it is not, a position below zero is selected. -/
theorem select_exact_or_around (bounds : Bounds) {length : Nat} (fits : length < 2 ^ 63)
    {start stop step : Option Int64}
    (startGiven : boundValue? (world.payload bounds.start) = some start)
    (stopGiven : boundValue? (world.payload bounds.stop) = some stop)
    (stepGiven : boundValue? (world.payload bounds.step) = some step) (nonzero : step ≠ some 0) :
    ∃ selection exact_, select bounds length world = .ok selection world ∧
      selection.step = step.getD 1 ∧ selection.Means length start stop exact_ ∧
      (InRange (selection.start.toInt + exact_.length * selection.step.toInt) →
        selection.positions.map Int64.toInt = exact_ ∧ selection.Ends length stop) ∧
      (¬ InRange (selection.start.toInt + exact_.length * selection.step.toInt) →
        0 < selection.step ∧ ∃ position ∈ selection.positions, position < 0) ∧
      (length ≤ 2 ^ 61 → selection.Ends length stop) := by
  obtain ⟨first, last, exact_, firstMeant, lastMeant, progression, selected⟩ :=
    select_progression fits startGiven stopGiven stepGiven nonzero
  refine ⟨_, exact_, selected, rfl, Selection.means_of_progression firstMeant progression,
    fun inside => ?_, fun outside => ?_, fun ordinary => ?_⟩
  · obtain ⟨selection, ends⟩ := walk_exact firstMeant lastMeant progression inside
    rw [lastMeant] at ends
    exact ⟨selection, ends⟩
  · exact walk_around firstMeant lastMeant progression fits outside
  · have ends := walk_ends firstMeant lastMeant progression ordinary
    rw [lastMeant] at ends
    exact ends

/-- Every second element of five, from the last one backwards; and a step from the fourth element
that goes around. -/
theorem select_backwards_and_around :
    let start := World.bare { files := ⟨"/", []⟩, input := "", output := "" } []
    let world : World := { start with
      objects := start.objects ++ #[⟨BuiltinClass.int.ref, none, .int (-2), none⟩,
        ⟨BuiltinClass.int.ref, none, .int 3, none⟩,
        ⟨BuiltinClass.int.ref, none, .int .maxValue, none⟩] }
    (∃ selection, select ⟨noneRef, noneRef, ⟨29⟩⟩ 5 world = .ok selection world ∧
      selection.positions.map Int64.toInt = [4, 2, 0]) ∧
    ∃ selection, select ⟨⟨30⟩, noneRef, ⟨31⟩⟩ 5 world = .ok selection world ∧
      ∃ position ∈ selection.positions, position < 0 := by
  intro start world
  have without : boundValue? (world.payload noneRef) = some none := rfl
  have backwards : boundValue? (world.payload ⟨29⟩) = some (some (-2)) := rfl
  have fourth : boundValue? (world.payload ⟨30⟩) = some (some 3) := rfl
  have far : boundValue? (world.payload ⟨31⟩) = some (some .maxValue) := rfl
  refine ⟨?_, ?_⟩
  · obtain ⟨selection, exact_, selected, stride, means, exactly, -⟩ := select_exact_or_around
      ⟨noneRef, noneRef, ⟨29⟩⟩ (show 5 < 2 ^ 63 by decide) without without backwards (by decide)
    have meant : IsProgression 4 (-1) (-2) [4, 2, 0] :=
      (isProgression_cons (by decide)).mpr ((isProgression_cons (by decide)).mpr
        ((isProgression_cons (by decide)).mpr (isProgression_nil (by decide))))
    obtain ⟨begins, progression, -, -⟩ := means
    rw [stride] at begins progression exactly
    obtain rfl := progression.unique meant
    exact ⟨selection, selected, (exactly (by rw [begins]; decide)).1⟩
  · obtain ⟨selection, exact_, selected, stride, means, -, around, -⟩ := select_exact_or_around
      ⟨⟨30⟩, noneRef, ⟨31⟩⟩ (show 5 < 2 ^ 63 by decide) fourth without far (by decide)
    have meant : IsProgression 3 5 9223372036854775807 [3] :=
      (isProgression_cons (by decide)).mpr (isProgression_nil (by decide))
    obtain ⟨begins, progression, -, -⟩ := means
    rw [stride] at begins progression around
    obtain rfl := progression.unique meant
    exact ⟨selection, selected, (around (by rw [begins]; decide)).2⟩

end Selections

end Offside.Library
