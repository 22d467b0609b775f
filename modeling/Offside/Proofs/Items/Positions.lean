/-
This file says what reading, storing and deleting at the positions of a selection do to the
elements of a sequence. Reading picks the elements one by one. Storing overwrites them one
by one, so a position that came twice would keep the value that came last. Deleting goes
through all elements and leaves out the selected ones.

A selection that has no position outside of the sequence is the progression that the slice
means: a walk that goes around passes a position below zero. So no position comes twice,
and with a step of one the selection is an interval, which begins at the first bound even
if the second one is before it.
-/

import Offside.Library.Lists
import Offside.Proofs.Raising
import Offside.Proofs.Slicing

namespace Offside.Library

open Exec Number

/-! ### Slices that are resolved -/

section Resolved

variable {world after : World} {bound : Ref}

/-- A bound that is neither an integer nor left out is refused. -/
theorem boundPosition_refused (given : boundValue? (world.payload bound) = none)
    (length step otherwise : Int64) :
    Raises (boundPosition bound length step otherwise) world .typeError
      "slice indices must be integers or None" := by
  have refused := raises_complain (α := Int64)
    (show Complaint.boundNotInteger.message = some _ from rfl) world
  refine refused.of_eq ?_
  rw [boundPosition, read_bind]
  cases held : world.payload bound <;> rw [held] at given <;> cases given <;> rfl

/-- So is such a step. -/
theorem stepOf_refused (given : boundValue? (world.payload bound) = none) :
    Raises (stepOf bound) world .typeError "slice indices must be integers or None" := by
  have refused := raises_complain (α := Int64)
    (show Complaint.boundNotInteger.message = some _ from rfl) world
  refine refused.of_eq ?_
  rw [stepOf, read_bind]
  cases held : world.payload bound <;> rw [held] at given <;> cases given <;> rfl

theorem stepOf_zero (given : boundValue? (world.payload bound) = some (some 0)) :
    Raises (stepOf bound) world .valueError "slice step cannot be zero" := by
  have refused := raises_complain (α := Int64)
    (show Complaint.stepZero.message = some _ from rfl) world
  refine refused.of_eq ?_
  rw [stepOf, read_bind]
  cases held : world.payload bound <;> rw [held] at given
  case int value =>
    cases given
    rfl
  case bool value =>
    cases value with
    | false => rfl
    | true => exact absurd given (by decide)
  all_goals cases given

/-- A slice is resolved only if its bounds are integers or left out, and its step is not zero. -/
theorem bounds_of_select {bounds : Bounds} {length : Nat} {selection : Selection}
    (selected : select bounds length world = .ok selection after) :
    after = world ∧ ∃ start stop step, boundValue? (world.payload bounds.start) = some start ∧
      boundValue? (world.payload bounds.stop) = some stop ∧
      boundValue? (world.payload bounds.step) = some step ∧ step ≠ some 0 := by
  obtain ⟨stride, middle, stepped, selected⟩ := exists_of_bind_eq_ok selected
  obtain ⟨step, stepGiven⟩ : ∃ step, boundValue? (world.payload bounds.step) = some step :=
    Option.ne_none_iff_exists'.mp fun none => (stepOf_refused none).ne_ok _ stepped
  have nonzero : step ≠ some 0 := fun zero => (stepOf_zero (zero ▸ stepGiven)).ne_ok _ stepped
  cases (stepOf_eq stepGiven nonzero).symm.trans stepped
  obtain ⟨first, middle, begun, selected⟩ := exists_of_bind_eq_ok selected
  obtain ⟨start, startGiven⟩ : ∃ start, boundValue? (world.payload bounds.start) = some start :=
    Option.ne_none_iff_exists'.mp fun none => (boundPosition_refused none _ _ _).ne_ok _ begun
  cases (boundPosition_eq startGiven _ _ _).symm.trans begun
  obtain ⟨last, middle, stopped, selected⟩ := exists_of_bind_eq_ok selected
  obtain ⟨stop, stopGiven⟩ : ∃ stop, boundValue? (world.payload bounds.stop) = some stop :=
    Option.ne_none_iff_exists'.mp fun none => (boundPosition_refused none _ _ _).ne_ok _ stopped
  cases (boundPosition_eq stopGiven _ _ _).symm.trans stopped
  cases selected
  exact ⟨rfl, start, stop, step, startGiven, stopGiven, stepGiven, nonzero⟩

/-- What is selected depends on nothing but the bounds. -/
theorem select_congr {bounds : Bounds} {length : Nat} {selection : Selection} {later : World}
    (selected : select bounds length world = .ok selection after)
    (same : ∀ bound, boundValue? (later.payload bound) = boundValue? (world.payload bound)) :
    select bounds length later = .ok selection later := by
  obtain ⟨-, start, stop, step, startGiven, stopGiven, stepGiven, nonzero⟩ :=
    bounds_of_select selected
  simp only [select, bind_of_ok (stepOf_eq stepGiven nonzero),
    bind_of_ok (boundPosition_eq startGiven _ _ _),
    bind_of_ok (boundPosition_eq stopGiven _ _ _)] at selected
  rw [← same] at startGiven stopGiven stepGiven
  simp only [select, bind_of_ok (stepOf_eq stepGiven nonzero),
    bind_of_ok (boundPosition_eq startGiven _ _ _),
    bind_of_ok (boundPosition_eq stopGiven _ _ _)]
  cases selected
  rfl

/-- With a step of one, what is selected starts where the first bound is. -/
theorem boundPosition_of_select {bounds : Bounds} {length : Nat} {selection : Selection}
    (selected : select bounds length world = .ok selection after) (single : selection.step = 1) :
    boundPosition bounds.start (Int64.ofNat length) 1 0 world = .ok selection.start world := by
  obtain ⟨-, start, stop, step, startGiven, stopGiven, stepGiven, nonzero⟩ :=
    bounds_of_select selected
  simp only [select, bind_of_ok (stepOf_eq stepGiven nonzero),
    bind_of_ok (boundPosition_eq startGiven _ _ _),
    bind_of_ok (boundPosition_eq stopGiven _ _ _)] at selected
  cases selected
  dsimp only at single ⊢
  rw [single]
  exact boundPosition_eq startGiven _ _ _

end Resolved

/-! ### Selections inside of the sequence -/

/-- The positions are those of elements. -/
def Selection.Inside (selection : Selection) (length : Nat) : Prop :=
  ∀ position ∈ selection.positions, 0 ≤ position.toInt ∧ position.toInt < length

section Inside

variable {world after : World} {bounds : Bounds} {length : Nat} {selection : Selection}
  (fits : length < 2 ^ 63) (selected : select bounds length world = .ok selection after)
  (inside : selection.Inside length)

include fits selected inside

/-- A selection inside of the sequence is the progression that the slice means. -/
theorem means_of_inside : ∃ start stop,
    boundValue? (world.payload bounds.start) = some start ∧
    selection.Means length start stop (selection.positions.map Int64.toInt) := by
  obtain ⟨rfl, start, stop, step, startGiven, stopGiven, stepGiven, nonzero⟩ :=
    bounds_of_select selected
  obtain ⟨first, last, exact_, firstMeant, lastMeant, progression, foundToo⟩ :=
    select_progression fits startGiven stopGiven stepGiven nonzero
  cases selected.symm.trans foundToo
  have straight : InRange (first.toInt + exact_.length * (step.getD 1).toInt) := by
    by_contra outside
    obtain ⟨-, position, listed, negative⟩ :=
      walk_around firstMeant lastMeant progression fits outside
    have natural := (inside position listed).1
    rw [Int64.lt_iff_toInt_lt, Int64.toInt_zero] at negative
    omega
  rw [(walk_exact firstMeant lastMeant progression straight).1]
  exact ⟨start, stop, startGiven, Selection.means_of_progression firstMeant progression⟩

/-- No position comes twice. -/
theorem nodup_of_inside : (selection.positions.map Int64.toInt).Nodup := by
  obtain ⟨start, stop, -, means⟩ := means_of_inside fits selected inside
  refine means.monotone.imp fun apart same => ?_
  subst same
  simp only [Before] at apart
  omega

/-- A selection with a step of one is an interval that begins at the first bound. -/
theorem interval_of_inside (single : selection.step = 1) :
    ∃ start, ∃ first : Nat, boundValue? (world.payload bounds.start) = some start ∧
      (first : Int) = firstPosition length 1 start ∧ selection.start.toInt = first ∧
      first + selection.positions.length ≤ length := by
  obtain ⟨start, stop, startGiven, means⟩ := means_of_inside fits selected inside
  have first := firstPosition_between length 1 start
  have begins := means.begins
  have progression := means.progression
  simp only [single, Int64.toInt_one, lowest, highest] at first begins progression
  refine ⟨start, (firstPosition length 1 start).toNat, startGiven, by omega, by omega, ?_⟩
  cases listed : selection.positions with
  | nil =>
    rw [List.length_nil]
    omega
  | cons position rest =>
    have more : rest.length < (selection.positions.map Int64.toInt).length := by
      rw [List.length_map, listed]
      exact Nat.lt_succ_self _
    have last := progression.item rest.length more
    have bounded := (means.inside _ (List.getElem_mem more)).2
    rw [last] at bounded
    rw [List.length_cons]
    omega

end Inside

/-! ### Reading -/

section Reading

variable {α : Type}

theorem elementAt?_of_natural {position : Int64} (natural : 0 ≤ position.toInt)
    (elements : Array α) : elementAt? elements position = elements[position.toNatClampNeg]? := by
  have notBelow : ¬ position < 0 := by
    rw [Int64.lt_iff_toInt_lt, Int64.toInt_zero]
    omega
  rw [elementAt?, if_neg notBelow]

/-- Picking gives the elements at the positions, if they are all there. -/
theorem pick_eq {elements : Array α} {positions : List Int64} {values : List α}
    (there : positions.map (elementAt? elements) = values.map some) (world : World) :
    pick elements positions world = .ok values.toArray world := by
  obtain ⟨step, steps, picks⟩ : ∃ step : Array α → Int64 → Exec (Array α),
      (∀ found position element, elementAt? elements position = some element →
        step found position world = .ok (found.push element) world) ∧
      ∀ positions, pick elements positions = positions.foldlM step #[] := by
    refine ⟨_, fun found position element here => ?_, fun _ => rfl⟩
    simp only [here]
    rfl
  have picked (found : Array α) :
      positions.foldlM step found world = .ok (found ++ values.toArray) world := by
    induction positions generalizing values found with
    | nil =>
      obtain rfl := List.map_eq_nil_iff.mp there.symm
      simp [pure, EStateM.pure]
    | cons position positions inductionHypothesis =>
      cases values with
      | nil => cases there
      | cons value values =>
        obtain ⟨here, further⟩ := List.cons.inj there
        rw [List.foldlM_cons, bind_of_ok (steps _ _ _ here), inductionHypothesis further]
        simp
  rw [picks, picked, Array.empty_append]

end Reading

/-! ### Storing -/

/-- The elements with some positions overwritten, one by one. -/
def overwritten : List Int64 → List Ref → Array Ref → Array Ref
  | position :: positions, value :: values, elements =>
    overwritten positions values (elements.setIfInBounds position.toNatClampNeg value)
  | _, _, elements => elements

section Storing

variable {positions : List Int64} {values : List Ref} {elements : Array Ref}

theorem size_overwritten (positions : List Int64) (values : List Ref) (elements : Array Ref) :
    (overwritten positions values elements).size = elements.size := by
  fun_induction overwritten positions values elements with
  | case1 position positions value values elements inductionHypothesis =>
    rw [inductionHypothesis, Array.size_setIfInBounds]
  | case2 => rfl

/-- All other positions keep their elements. -/
theorem getElem?_overwritten {place : Nat}
    (spared : ∀ position ∈ positions, position.toNatClampNeg ≠ place) :
    (overwritten positions values elements)[place]? = elements[place]? := by
  fun_induction overwritten positions values elements with
  | case1 position positions value values elements inductionHypothesis =>
    obtain ⟨apart, spared⟩ := List.forall_mem_cons.mp spared
    rw [inductionHypothesis spared, Array.getElem?_setIfInBounds_ne apart]
  | case2 => rfl

/-- The positions hold the values, if none of them comes twice. -/
theorem map_elementAt?_overwritten (distinct : (positions.map Int64.toInt).Nodup)
    (inside : ∀ position ∈ positions, 0 ≤ position.toInt ∧ position.toInt < elements.size)
    (enough : values.length = positions.length) :
    positions.map (elementAt? (overwritten positions values elements)) = values.map some := by
  fun_induction overwritten positions values elements with
  | case1 position positions value values elements inductionHypothesis =>
    obtain ⟨⟨natural, bounded⟩, inside⟩ := List.forall_mem_cons.mp inside
    obtain ⟨fresh, distinct⟩ := List.nodup_cons.mp distinct
    have later : ∀ other ∈ positions, other.toNatClampNeg ≠ position.toNatClampNeg := by
      intro other listed same
      have otherNatural := (inside other listed).1
      refine fresh (List.mem_map.mpr ⟨other, listed, ?_⟩)
      rw [Int64.toNatClampNeg, Int64.toNatClampNeg] at same
      omega
    rw [List.map_cons, List.map_cons, elementAt?_of_natural natural, getElem?_overwritten later,
      Array.getElem?_setIfInBounds_self_of_lt (by rw [Int64.toNatClampNeg]; omega),
      inductionHypothesis distinct (by simpa using inside) (Nat.succ.inj enough)]
  | case2 positions values elements neither =>
    cases positions with
    | nil =>
      obtain rfl := List.length_eq_zero_iff.mp enough
      rfl
    | cons position positions =>
      cases values with
      | nil => cases enough
      | cons value values => exact (neither _ _ _ _ rfl rfl).elim

end Storing

/-! ### Replacing and deleting -/

/-- Replacing an interval of the elements keeps what is before and behind it. -/
theorem spliced_eq (start stop : Nat) (values elements : Array Ref) :
    spliced start stop values elements =
      elements.extract 0 start ++ values ++ elements.extract stop elements.size := by
  unfold spliced
  split
  next ended =>
    rw [Array.extract_empty_of_stop_le_start ended, Array.append_empty, Array.shrink_eq_take,
      Array.take_eq_extract]
  next => rfl

/-- What is left of some elements without those at the positions: the others, in their order. -/
def Remains (elements : Array Ref) (positions : List Int64) (rest : Array Ref) : Prop :=
  ∃ places : List Nat, places.Pairwise (· < ·) ∧
    (∀ place, place ∈ places ↔
      place < elements.size ∧ ∀ position ∈ positions, position.toInt ≠ place) ∧
    rest.toList.map some = places.map (elements[·]?)

theorem remains_withoutPositions {elements : Array Ref} (fits : elements.size < 2 ^ 63)
    (positions : List Int64) :
    Remains elements positions (withoutPositions positions elements) := by
  let spared (place : Nat) : Bool := !positions.contains (Int64.ofNat place)
  have spared_iff {place : Nat} (bounded : place < elements.size) :
      spared place = true ↔ ∀ position ∈ positions, position.toInt ≠ place := by
    have same := Int64.toInt_ofNat_of_lt (bounded.trans fits)
    simp only [spared, Bool.not_eq_true', List.contains_eq_mem, decide_eq_false_iff_not, ← same,
      ne_eq, Int64.toInt_inj]
    exact ⟨fun absent position listed found => absent (found ▸ listed),
      fun apart listed => apart _ listed rfl⟩
  refine ⟨(List.range elements.size).filter spared, List.pairwise_lt_range.filter _,
    fun place => ?_, ?_⟩
  · rw [List.mem_filter, List.mem_range]
    exact and_congr_right spared_iff
  · have places : List.range elements.size = elements.toList.zipIdx.map Prod.snd := by
      rw [List.zipIdx_map_snd, Array.length_toList, List.range_eq_range']
    rw [places, List.filter_map, List.map_map]
    simp only [withoutPositions, Array.toList_map, Array.toList_filter, Array.toList_zipIdx,
      List.map_map]
    refine List.map_congr_left fun ⟨element, place⟩ listed => ?_
    have found := (List.mem_zipIdx_iff_getElem?.mp (List.mem_filter.mp listed).1).symm
    rwa [Array.getElem?_toList] at found

end Offside.Library
