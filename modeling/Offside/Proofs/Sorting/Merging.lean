/-
This file shows that a sort orders its elements and keeps the order of equal ones. Elements
are put in order by a key; then elements are equal if their keys are, and that they keep
their order says that for every key the elements that have it are the same list before and
after. Such lists determine the elements, so nothing is lost or made up on the way.

The heart of it is one fact about two sorted runs that are divided into a beginning and a
rest each. Merging the beginnings and merging the rests is enough, if nothing in the left
beginning belongs behind the right rest, and everything in the right beginning belongs
before the left rest. Bisection finds such a division; for a single element it is the
place where the element goes.
-/

import Mathlib.Data.List.Count
import Mathlib.Data.List.Forall2
import Offside.Proofs.Sorting.Inquiry

namespace Offside

open Library

namespace Sorting

variable {key : Ref → Int}

/-! ### Order and stability -/

/-- No key is less than one before it. -/
def Ascends (key : Ref → Int) (elements : List Ref) : Prop :=
  elements.Pairwise fun first second => key first ≤ key second

theorem ascends_append {elements others : List Ref} :
    Ascends key (elements ++ others) ↔ Ascends key elements ∧ Ascends key others ∧
      ∀ element ∈ elements, ∀ other ∈ others, key element ≤ key other :=
  List.pairwise_append

theorem ascends_singleton (element : Ref) : Ascends key [element] :=
  List.pairwise_singleton _ element

/-- Elements with the same key are the same, and in the same order. -/
def Keeps (key : Ref → Int) (before after : List Ref) : Prop :=
  ∀ value, (after.filter fun element => key element = value) =
    before.filter fun element => key element = value

theorem Keeps.refl (elements : List Ref) : Keeps key elements elements :=
  fun _ => rfl

theorem Keeps.trans {before middle after : List Ref} (first : Keeps key before middle)
    (last : Keeps key middle after) : Keeps key before after :=
  fun value => (last value).trans (first value)

theorem Keeps.append {before after others rest : List Ref} (first : Keeps key before after)
    (last : Keeps key others rest) : Keeps key (before ++ others) (after ++ rest) := by
  intro value
  rw [List.filter_append, List.filter_append, first value, last value]

/-- Lists that share no key can change places. -/
theorem keeps_swap {elements others : List Ref}
    (apart : ∀ element ∈ elements, ∀ other ∈ others, key element ≠ key other) :
    Keeps key (elements ++ others) (others ++ elements) := by
  intro value
  rw [List.filter_append, List.filter_append]
  by_cases none : (elements.filter fun element => key element = value) = []
  · rw [none, List.append_nil, List.nil_append]
  · obtain ⟨element, inside⟩ := List.exists_mem_of_ne_nil _ none
    rw [List.mem_filter, decide_eq_true_iff] at inside
    have absent : (others.filter fun other => key other = value) = [] := by
      rw [List.filter_eq_nil_iff]
      intro other otherInside same
      rw [decide_eq_true_iff] at same
      exact apart element inside.1 other otherInside (inside.2.trans same.symm)
    rw [absent, List.append_nil, List.nil_append]

theorem Keeps.perm {before after : List Ref} (keeps : Keeps key before after) :
    after.Perm before := by
  rw [List.perm_iff_count]
  intro element
  have counted (elements : List Ref) :
      (elements.filter fun other => key other = key element).count element =
        elements.count element :=
    List.count_filter (by simp)
  rw [← counted after, ← counted before, keeps]

theorem Keeps.mem_iff {before after : List Ref} (keeps : Keeps key before after) {element : Ref} :
    element ∈ after ↔ element ∈ before :=
  keeps.perm.mem_iff

/-- The first list is a stable sort of the second one. -/
structure Sorts (key : Ref → Int) (before after : List Ref) : Prop where
  ascends : Ascends key after
  keeps : Keeps key before after

theorem Ascends.sorts {elements : List Ref} (ascends : Ascends key elements) :
    Sorts key elements elements :=
  ⟨ascends, .refl elements⟩

/-- Two runs can be merged by merging their beginnings and their rests. -/
theorem sorts_divided (left leftRest right rightRest : List Ref) {first rest : List Ref}
    (leftAscends : Ascends key (left ++ leftRest)) (rightAscends : Ascends key (right ++ rightRest))
    (sortsFirst : Sorts key (left ++ right) first)
    (sortsRest : Sorts key (leftRest ++ rightRest) rest)
    (most : ∀ element ∈ left, ∀ other ∈ rightRest, key element ≤ key other)
    (less : ∀ element ∈ right, ∀ other ∈ leftRest, key element < key other) :
    Sorts key ((left ++ leftRest) ++ (right ++ rightRest)) (first ++ rest) where
  ascends := by
    refine ascends_append.mpr ⟨sortsFirst.ascends, sortsRest.ascends, ?_⟩
    intro element inside other otherInside
    rw [sortsFirst.keeps.mem_iff, List.mem_append] at inside
    rw [sortsRest.keeps.mem_iff, List.mem_append] at otherInside
    obtain inside | inside := inside <;> obtain otherInside | otherInside := otherInside
    · exact (ascends_append.mp leftAscends).2.2 element inside other otherInside
    · exact most element inside other otherInside
    · exact (less element inside other otherInside).le
    · exact (ascends_append.mp rightAscends).2.2 element inside other otherInside
  keeps := by
    have swapped : Keeps key (leftRest ++ right) (right ++ leftRest) :=
      keeps_swap fun other otherInside element inside => (less element inside other otherInside).ne'
    have regrouped : Keeps key (left ++ (leftRest ++ right) ++ rightRest)
        (left ++ (right ++ leftRest) ++ rightRest) :=
      ((Keeps.refl left).append swapped).append (.refl rightRest)
    simp only [List.append_assoc] at regrouped ⊢
    refine regrouped.trans ?_
    rw [← List.append_assoc]
    exact sortsFirst.keeps.append sortsRest.keeps

/-- The elements are cut into sorted runs. -/
structure CutInto (key : Ref → Int) (elements : List Ref) (runs : List (Array Ref)) : Prop where
  ascends : ∀ run ∈ runs, Ascends key run.toList
  keeps : Keeps key elements (runs.flatMap Array.toList)

theorem cutInto_of_forall₂ {runs : List (List Ref)} {sorted : List (Array Ref)}
    (each : List.Forall₂ (fun run result => Sorts key run result.toList) runs sorted) :
    CutInto key runs.flatten sorted := by
  induction each with
  | nil => exact ⟨nofun, .refl _⟩
  | cons sorts _ inductionHypothesis =>
    refine ⟨List.forall_mem_cons.mpr ⟨sorts.ascends, inductionHypothesis.ascends⟩, ?_⟩
    rw [List.flatten_cons, List.flatMap_cons]
    exact sorts.keeps.append inductionHypothesis.keeps

/-! ### Elements of runs -/

theorem toList_extract_take (run : Array Ref) (count : Nat) :
    (run.extract 0 count).toList = run.toList.take count := by
  simp [List.extract]

theorem toList_extract_drop (run : Array Ref) (count : Nat) :
    (run.extract count run.size).toList = run.toList.drop count := by
  rw [Array.toList_extract, List.extract_eq_take_drop, List.take_of_length_le]
  rw [List.length_drop, Array.length_toList]

theorem runElement_eq {run : Array Ref} {position : Nat} (inside : position < run.size) :
    runElement run position = run.toList[position] := by
  rw [runElement, Array.getD_eq_getD_getElem?, Array.getElem?_eq_getElem inside]
  rfl

theorem runElement_mem {run : Array Ref} {position : Nat} (inside : position < run.size) :
    runElement run position ∈ run.toList := by
  rw [runElement_eq inside]
  exact List.getElem_mem _

theorem runElement_append_left {left right : Array Ref} {position : Nat}
    (inside : position < left.size) :
    runElement (left ++ right) position = runElement left position := by
  rw [runElement, runElement, Array.getD_eq_getD_getElem?, Array.getD_eq_getD_getElem?,
    Array.getElem?_append_left inside]

theorem runElement_append_right (left right : Array Ref) (position : Nat) :
    runElement (left ++ right) (left.size + position) = runElement right position := by
  rw [runElement, runElement, Array.getD_eq_getD_getElem?, Array.getD_eq_getD_getElem?,
    Array.getElem?_append_right (Nat.le_add_right _ _), Nat.add_sub_cancel_left]

theorem mem_take {run : Array Ref} {count : Nat} {element : Ref}
    (inside : element ∈ run.toList.take count) :
    ∃ position < run.size, position < count ∧ runElement run position = element := by
  obtain ⟨position, bound, rfl⟩ := List.mem_take_iff_getElem.mp inside
  rw [Nat.lt_min, Array.length_toList] at bound
  exact ⟨position, bound.2, bound.1, runElement_eq bound.2⟩

theorem mem_drop {run : Array Ref} {count : Nat} {element : Ref}
    (inside : element ∈ run.toList.drop count) :
    ∃ position < run.size, count ≤ position ∧ runElement run position = element := by
  obtain ⟨position, bound, rfl⟩ := List.mem_drop_iff_getElem.mp inside
  rw [Array.length_toList] at bound
  exact ⟨position + count, by omega, by omega, by rw [runElement_eq (by omega)]; congr 1; omega⟩

theorem Ascends.le {run : Array Ref} (ascends : Ascends key run.toList) {first second : Nat}
    (ordered : first ≤ second) (inside : second < run.size) :
    key (runElement run first) ≤ key (runElement run second) := by
  rw [runElement_eq (Nat.lt_of_le_of_lt ordered inside), runElement_eq inside]
  obtain rfl | less := Nat.eq_or_lt_of_le ordered
  · exact le_rfl
  · exact List.pairwise_iff_getElem.mp ascends first second _ _ less

theorem Ascends.parts {elements : List Ref} (ascends : Ascends key elements) (count : Nat) :
    Ascends key (elements.take count ++ elements.drop count) := by
  rwa [List.take_append_drop]

/-! ### Asking -/

variable {known : Ref → Prop} {order : Ref → Ref → Bool}

/-- An element is asked to come before another one if its key is less. -/
def Compares (known : Ref → Prop) (order : Ref → Ref → Bool) (key : Ref → Int)
    (before : Ref → Ref → Inquiry Bool) : Prop :=
  ∀ first second, known first → known second →
    (before first second).Ensures known order fun answer => answer = decide (key first < key second)

/-- Bisection finds where a test begins to fail. -/
theorem bisect_ensures {test : Nat → Inquiry Bool} (holds : Nat → Prop) {low high : Nat}
    (ordered : low ≤ high)
    (tests : ∀ position, low ≤ position → position < high →
      (test position).Ensures known order fun answer => answer = true ↔ holds position)
    (falls : ∀ first second, low ≤ first → first ≤ second → second < high → holds second →
      holds first) :
    (bisect test low high).Ensures known order fun place => low ≤ place ∧ place ≤ high ∧
      (∀ position, low ≤ position → position < place → holds position) ∧
      ∀ position, place ≤ position → position < high → ¬ holds position := by
  induction low, high using bisect.induct with
  | case1 low high less middle upper lower =>
    rw [bisect, if_pos less, Inquiry.ensures_bind]
    have between : low ≤ middle ∧ middle < high := by omega
    refine (tests middle between.1 between.2).mono fun answer is => ?_
    cases answer with
    | true =>
      refine (upper (by omega) (fun position _ => tests position (by omega))
        fun first second _ => falls first second (by omega)).mono ?_
      rintro place ⟨above, below, passes, fails⟩
      refine ⟨by omega, below, fun position notLess inside => ?_, fails⟩
      obtain after | upTo := Nat.lt_or_ge middle position
      · exact passes position after inside
      · exact falls position middle notLess upTo between.2 (is.mp rfl)
    | false =>
      refine (lower (by omega) (fun position notLess inside => tests position notLess (by omega))
        fun first second notLess upTo inside => falls first second notLess upTo (by omega)).mono ?_
      rintro place ⟨above, below, passes, fails⟩
      refine ⟨above, by omega, passes, fun position notLess inside holdsThere => ?_⟩
      obtain before | from_ := Nat.lt_or_ge position middle
      · exact fails position notLess before holdsThere
      · exact Bool.false_ne_true
          (is.mpr (falls middle position between.1 from_ inside holdsThere))
  | case2 low high notLess =>
    rw [bisect, if_neg notLess]
    exact ⟨le_rfl, ordered, fun position _ _ => by omega, fun position _ _ => by omega⟩

/-- In a sorted run bisection separates the elements that pass a test from those that fail it, if
an element that fails has only failing ones behind it. -/
theorem bisect_run_ensures {test : Nat → Inquiry Bool} {run : Array Ref} (passes : Ref → Prop)
    (ascends : Ascends key run.toList)
    (tests : ∀ position < run.size,
      (test position).Ensures known order fun answer =>
        answer = true ↔ passes (runElement run position))
    (falls : ∀ element other, key element ≤ key other → passes other → passes element) :
    (bisect test 0 run.size).Ensures known order fun place =>
      (∀ other ∈ run.toList.take place, passes other) ∧
        ∀ other ∈ run.toList.drop place, ¬ passes other := by
  refine (bisect_ensures (fun position => passes (runElement run position)) (Nat.zero_le _)
    (fun position _ inside => tests position inside)
    fun first second _ ordered inside => falls _ _ (ascends.le ordered inside)).mono ?_
  rintro place ⟨-, -, below, above⟩
  refine ⟨fun other inside => ?_, fun other inside => ?_⟩
  · obtain ⟨position, -, before, rfl⟩ := mem_take inside
    exact below position (Nat.zero_le _) before
  · obtain ⟨position, bound, behind, rfl⟩ := mem_drop inside
    exact above position behind bound

/-! ### Insertion -/

section Comparing

variable {before : Ref → Ref → Inquiry Bool} (compares : Compares known order key before)

include compares

theorem insertFromEnd_ensures {element : Ref} (isKnown : known element) :
    ∀ {sorted : List Ref}, (∀ other ∈ sorted, known other) → Ascends key sorted.reverse →
      (insertFromEnd before element sorted).Ensures known order fun result =>
        Sorts key (sorted.reverse ++ [element]) result.reverse
  | [], _, _ => (ascends_singleton element).sorts
  | last :: rest, allKnown, ascends => by
    rw [List.forall_mem_cons] at allKnown
    rw [List.reverse_cons] at ascends
    obtain ⟨restAscends, -, upToLast⟩ := ascends_append.mp ascends
    rw [insertFromEnd, Inquiry.ensures_bind]
    refine (compares element last isKnown allKnown.1).mono ?_
    rintro _ rfl
    by_cases less : key element < key last
    · rw [decide_eq_true less, if_pos rfl, Inquiry.ensures_bind]
      refine (insertFromEnd_ensures isKnown allKnown.2 restAscends).mono fun inserted sorts => ?_
      have divided := sorts_divided rest.reverse [last] [element] [] ascends
        (ascends_singleton element) sorts (ascends_singleton last).sorts
        (fun _ _ => List.forall_mem_nil _) (by simpa using less)
      rwa [Inquiry.ensures_pure, List.reverse_cons, List.reverse_cons]
    · rw [decide_eq_false less, if_neg Bool.false_ne_true, Inquiry.ensures_pure]
      simp only [List.reverse_cons]
      refine (ascends_append.mpr ⟨ascends, ascends_singleton element, ?_⟩).sorts
      have most : key last ≤ key element := not_lt.mp less
      simp only [List.forall_mem_append, List.forall_mem_singleton] at upToLast ⊢
      exact ⟨fun other inside => (upToLast other inside).trans most, most⟩

theorem insertAll_ensures : ∀ {elements sorted : List Ref}, (∀ other ∈ sorted, known other) →
    (∀ other ∈ elements, known other) → Ascends key sorted.reverse →
      (insertAll before sorted elements).Ensures known order fun result =>
        Sorts key (sorted.reverse ++ elements) result
  | [], sorted, _, _, ascends => by
    rw [insertAll, Inquiry.ensures_pure, List.append_nil]
    exact ascends.sorts
  | element :: elements, sorted, sortedKnown, allKnown, ascends => by
    rw [List.forall_mem_cons] at allKnown
    rw [insertAll, Inquiry.ensures_bind]
    refine (insertFromEnd_ensures compares allKnown.1 sortedKnown ascends).mono
      fun inserted sorts => ?_
    have insertedKnown (other : Ref) (inside : other ∈ inserted) : known other := by
      rw [← List.mem_reverse, sorts.keeps.mem_iff] at inside
      simp at inside
      exact inside.elim (sortedKnown other) fun same => same ▸ allKnown.1
    refine (insertAll_ensures insertedKnown allKnown.2 sorts.ascends).mono fun result sortsAll => ?_
    refine ⟨sortsAll.ascends, Keeps.trans ?_ sortsAll.keeps⟩
    rw [List.append_cons]
    exact sorts.keeps.append (.refl elements)

/-! ### Merging -/

/-- The bisection along the line finds a division of both runs for which merging the beginnings and
the rests is enough. -/
theorem division_ensures {left right : Array Ref} (leftKnown : ∀ other ∈ left.toList, known other)
    (rightKnown : ∀ other ∈ right.toList, known other) (leftAscends : Ascends key left.toList)
    (rightAscends : Ascends key right.toList) {half low high : Nat} (ordered : low ≤ high)
    (least : half ≤ low + right.size) (greatest : high ≤ left.size ∧ high ≤ half)
    (fromStart : low = 0 ∨ low + right.size = half) (toEnd : high = half ∨ high = left.size) :
    (bisect (fun position => do
      return !(← before (runElement (left ++ right) (half + left.size - 1 - position))
        (runElement (left ++ right) position))) low high).Ensures known order fun start =>
      (∀ element ∈ left.toList.take start, ∀ other ∈ right.toList.drop (half - start),
        key element ≤ key other) ∧
      ∀ element ∈ right.toList.take (half - start), ∀ other ∈ left.toList.drop start,
        key element < key other := by
  refine (bisect_ensures (fun position =>
    key (runElement left position) ≤ key (runElement right (half - 1 - position)))
    ordered ?tests ?falls).mono ?divided
  case tests =>
    intro position notLess inside
    have opposite : half + left.size - 1 - position = left.size + (half - 1 - position) := by omega
    have inLeft : position < left.size := by omega
    have inRight : half - 1 - position < right.size := by omega
    rw [Inquiry.ensures_bind, opposite, runElement_append_left inLeft, runElement_append_right]
    refine (compares _ _ (rightKnown _ (runElement_mem inRight))
      (leftKnown _ (runElement_mem inLeft))).mono ?_
    rintro _ rfl
    rw [Inquiry.ensures_pure, Bool.not_eq_true', decide_eq_false_iff_not, not_lt]
  case falls =>
    intro first second notLess upTo inside most
    calc key (runElement left first) ≤ key (runElement left second) :=
          leftAscends.le upTo (by omega)
      _ ≤ key (runElement right (half - 1 - second)) := most
      _ ≤ key (runElement right (half - 1 - first)) := rightAscends.le (by omega) (by omega)
  case divided =>
    rintro start ⟨above, below, passes, fails⟩
    constructor
    · intro element inside other otherInside
      obtain ⟨place, bound, before, rfl⟩ := mem_take inside
      obtain ⟨position, otherBound, behind, rfl⟩ := mem_drop otherInside
      calc key (runElement left place) ≤ key (runElement left (start - 1)) :=
            leftAscends.le (by omega) (by omega)
        _ ≤ key (runElement right (half - 1 - (start - 1))) :=
          passes (start - 1) (by omega) (by omega)
        _ ≤ key (runElement right position) := rightAscends.le (by omega) otherBound
    · intro element inside other otherInside
      obtain ⟨position, otherBound, before, rfl⟩ := mem_take inside
      obtain ⟨place, bound, behind, rfl⟩ := mem_drop otherInside
      calc key (runElement right position) ≤ key (runElement right (half - 1 - start)) :=
            rightAscends.le (by omega) (by omega)
        _ < key (runElement left start) := not_le.mp (fails start le_rfl (by omega))
        _ ≤ key (runElement left place) := leftAscends.le behind bound

/-- Bisection finds the place of a single element in a run behind it: before the first element that
is not less. -/
theorem singleBefore_ensures {element : Ref} {run : Array Ref} (isKnown : known element)
    (runKnown : ∀ other ∈ run.toList, known other) (ascends : Ascends key run.toList) :
    (bisect (fun position => before (runElement run position) element) 0 run.size).Ensures known
      order fun place =>
        Sorts key ([element] ++ run.toList)
          (run.toList.take place ++ ([element] ++ run.toList.drop place)) := by
  refine (bisect_run_ensures (fun other => key other < key element) ascends ?tests
    fun _ _ => lt_of_le_of_lt).mono ?placed
  case tests =>
    intro position inside
    refine (compares _ element (runKnown _ (runElement_mem inside)) isKnown).mono ?_
    rintro _ rfl
    exact decide_eq_true_iff
  case placed =>
    rintro place ⟨less, notLess⟩
    have most (other : Ref) (inside : other ∈ run.toList.drop place) :
        key element ≤ key other := not_lt.mp (notLess other inside)
    have parts := ascends.parts place
    obtain ⟨takeAscends, dropAscends, -⟩ := ascends_append.mp parts
    have restAscends : Ascends key ([element] ++ run.toList.drop place) :=
      ascends_append.mpr ⟨ascends_singleton element, dropAscends, by simpa using most⟩
    have divided := sorts_divided [] [element] (run.toList.take place) (run.toList.drop place)
      (ascends_singleton element) parts takeAscends.sorts restAscends.sorts
      (List.forall_mem_nil _) (by simpa using less)
    rwa [List.nil_append, List.take_append_drop] at divided

/-- Bisection finds the place of a single element in a run before it: behind the last element that
is not greater. -/
theorem singleBehind_ensures {element : Ref} {run : Array Ref} (isKnown : known element)
    (runKnown : ∀ other ∈ run.toList, known other) (ascends : Ascends key run.toList) :
    (bisect (fun position => do return !(← before element (runElement run position)))
      0 run.size).Ensures known order fun place =>
        Sorts key (run.toList ++ [element])
          (run.toList.take place ++ ([element] ++ run.toList.drop place)) := by
  refine (bisect_run_ensures (fun other => key other ≤ key element) ascends ?tests
    fun _ _ => le_trans).mono ?placed
  case tests =>
    intro position inside
    rw [Inquiry.ensures_bind]
    refine (compares element _ isKnown (runKnown _ (runElement_mem inside))).mono ?_
    rintro _ rfl
    rw [Inquiry.ensures_pure, Bool.not_eq_true', decide_eq_false_iff_not, not_lt]
  case placed =>
    rintro place ⟨most, notMost⟩
    have less (other : Ref) (inside : other ∈ run.toList.drop place) :
        key element < key other := not_le.mp (notMost other inside)
    have parts := ascends.parts place
    obtain ⟨takeAscends, dropAscends, -⟩ := ascends_append.mp parts
    have firstAscends : Ascends key (run.toList.take place ++ [element]) :=
      ascends_append.mpr ⟨takeAscends, ascends_singleton element, by simpa using most⟩
    have divided := sorts_divided (run.toList.take place) (run.toList.drop place) [element] []
      parts (ascends_singleton element) firstAscends.sorts (by simpa using dropAscends.sorts)
      (fun _ _ => List.forall_mem_nil _) (by simpa using less)
    rwa [List.append_nil, List.take_append_drop, List.append_assoc] at divided

theorem mergeRuns_ensures (left right : Array Ref) (leftKnown : ∀ other ∈ left.toList, known other)
    (rightKnown : ∀ other ∈ right.toList, known other) (leftAscends : Ascends key left.toList)
    (rightAscends : Ascends key right.toList) :
    (mergeRuns before left right).Ensures known order fun result =>
      Sorts key (left.toList ++ right.toList) result.toList := by
  induction left, right using mergeRuns.induct with
  | case1 left right leftEmpty =>
    rw [mergeRuns, if_pos leftEmpty, Inquiry.ensures_pure, Array.eq_empty_of_size_eq_zero leftEmpty]
    exact rightAscends.sorts
  | case2 left right leftSome rightEmpty =>
    rw [mergeRuns, if_neg leftSome, if_pos rightEmpty, Inquiry.ensures_pure,
      Array.eq_empty_of_size_eq_zero rightEmpty, Array.toList_empty, List.append_nil]
    exact leftAscends.sorts
  | case3 left right leftSome rightSome single =>
    rw [mergeRuns, if_neg leftSome, if_neg rightSome, if_pos single, Inquiry.ensures_bind]
    obtain ⟨element, rfl⟩ := Array.size_eq_one_iff.mp single
    refine (singleBefore_ensures compares (leftKnown element (by simp)) rightKnown
      rightAscends).mono fun place sorts => ?_
    rwa [Inquiry.ensures_pure, Array.toList_append, Array.toList_append, toList_extract_take,
      toList_extract_drop, List.append_assoc]
  | case4 left right leftSome rightSome several single =>
    rw [mergeRuns, if_neg leftSome, if_neg rightSome, if_neg several, if_pos single,
      Inquiry.ensures_bind]
    obtain ⟨element, rfl⟩ := Array.size_eq_one_iff.mp single
    refine (singleBehind_ensures compares (rightKnown element (by simp)) leftKnown
      leftAscends).mono fun place sorts => ?_
    rwa [Inquiry.ensures_pure, Array.toList_append, Array.toList_append, toList_extract_take,
      toList_extract_drop, List.append_assoc]
  | case5 left right leftSome rightSome leftSeveral rightSeveral both half line low high bounds
      firstHalf secondHalf =>
    rw [mergeRuns, if_neg leftSome, if_neg rightSome, if_neg leftSeveral, if_neg rightSeveral]
    simp only [← dite_eq_ite]
    rw [bounds, Inquiry.ensures_bind]
    have middle : half = (left.size + right.size) / 2 := congrArg (· / 2) Array.size_append
    have limits : half < left.size ∧ low = half - right.size ∧ high = half ∨
        left.size ≤ half ∧ low = 0 ∧ high = left.size := by
      have shorter : line - both.size = half - right.size := by
        rw [show both.size = left.size + right.size from Array.size_append]
        omega
      split at bounds <;> cases bounds
      · exact .inl ⟨‹_›, shorter, rfl⟩
      · exact .inr ⟨not_lt.mp ‹_›, rfl, rfl⟩
    have few : ¬ left.size = 0 ∧ ¬ right.size = 0 := ⟨leftSome, rightSome⟩
    have division := division_ensures compares leftKnown rightKnown leftAscends rightAscends
      (show low ≤ high by omega) (show half ≤ low + right.size by omega)
      (show high ≤ left.size ∧ high ≤ half by omega) (by omega) (by omega)
    refine division.mono ?_
    rintro start ⟨most, less⟩
    obtain ⟨leftTake, leftDrop, -⟩ := ascends_append.mp (leftAscends.parts start)
    obtain ⟨rightTake, rightDrop, -⟩ := ascends_append.mp (rightAscends.parts (half - start))
    simp only [toList_extract_take, toList_extract_drop] at firstHalf secondHalf
    rw [Inquiry.ensures_bind]
    refine (firstHalf start (fun other inside => leftKnown other (List.mem_of_mem_take inside))
      (fun other inside => rightKnown other (List.mem_of_mem_take inside)) leftTake rightTake).mono
      fun first sortsFirst => ?_
    rw [Inquiry.ensures_bind]
    refine (secondHalf start (fun other inside => leftKnown other (List.mem_of_mem_drop inside))
      (fun other inside => rightKnown other (List.mem_of_mem_drop inside)) leftDrop rightDrop).mono
      fun rest sortsRest => ?_
    have divided := sorts_divided (left.toList.take start) (left.toList.drop start)
      (right.toList.take (half - start)) (right.toList.drop (half - start))
      (leftAscends.parts start) (rightAscends.parts (half - start)) sortsFirst sortsRest most less
    rw [List.take_append_drop, List.take_append_drop] at divided
    rwa [Inquiry.ensures_pure, Array.toList_append]

theorem mergePairs_ensures {runs : List (Array Ref)}
    (allKnown : ∀ other ∈ runs.flatMap Array.toList, known other)
    (ascends : ∀ run ∈ runs, Ascends key run.toList) :
    (mergePairs before runs).Ensures known order fun merged =>
      merged.length = (runs.length + 1) / 2 ∧ CutInto key (runs.flatMap Array.toList) merged := by
  induction runs using mergePairs.induct with
  | case1 first second rest inductionHypothesis =>
    simp only [List.flatMap_cons, List.forall_mem_append] at allKnown
    simp only [List.forall_mem_cons] at ascends
    rw [mergePairs, Inquiry.ensures_bind]
    refine (mergeRuns_ensures compares first second allKnown.1 allKnown.2.1 ascends.1
      ascends.2.1).mono fun merged sorts => ?_
    rw [Inquiry.ensures_bind]
    refine (inductionHypothesis allKnown.2.2 ascends.2.2).mono ?_
    rintro others ⟨half, cut⟩
    rw [Inquiry.ensures_pure]
    refine ⟨?_, List.forall_mem_cons.mpr ⟨sorts.ascends, cut.ascends⟩, ?_⟩
    · simp only [List.length_cons]
      omega
    · rw [List.flatMap_cons, List.flatMap_cons, List.flatMap_cons, ← List.append_assoc]
      exact sorts.keeps.append cut.keeps
  | case2 runs few =>
    rw [mergePairs]
    · refine ⟨?_, ascends, .refl _⟩
      obtain _ | ⟨first, _ | ⟨second, rest⟩⟩ := runs
      · rfl
      · exact (Nat.div_self (Nat.zero_lt_two)).symm
      · exact (few first second rest rfl).elim
    · exact few

/-- As many rounds as there are runs are enough. -/
theorem mergeRounds_ensures {rounds : Nat} {runs : List (Array Ref)} (enough : runs.length ≤ rounds)
    (allKnown : ∀ other ∈ runs.flatMap Array.toList, known other)
    (ascends : ∀ run ∈ runs, Ascends key run.toList) :
    (mergeRounds before rounds runs).Ensures known order fun result =>
      Sorts key (runs.flatMap Array.toList) result.toList := by
  induction rounds generalizing runs with
  | zero =>
    rw [List.length_eq_zero_iff.mp (Nat.le_zero.mp enough)]
    exact ⟨.nil, .refl _⟩
  | succ rounds inductionHypothesis =>
    match runs with
    | [] =>
      rw [mergeRounds]
      exact ⟨.nil, .refl _⟩
    | [run] =>
      rw [mergeRounds, Inquiry.ensures_pure, List.flatMap_singleton]
      exact (ascends run (List.mem_singleton_self run)).sorts
    | first :: second :: rest =>
      rw [mergeRounds, Inquiry.ensures_bind]
      on_goal 2 => exact List.cons_ne_nil _ _
      on_goal 2 => simp
      refine (mergePairs_ensures compares allKnown ascends).mono ?_
      rintro merged ⟨half, cut⟩
      have fewer : merged.length ≤ rounds := by
        simp only [List.length_cons] at half enough
        omega
      have mergedKnown (other : Ref) (inside : other ∈ merged.flatMap Array.toList) : known other :=
        allKnown other (cut.keeps.mem_iff.mp inside)
      exact (inductionHypothesis fewer mergedKnown cut.ascends).mono fun result sorts =>
        ⟨sorts.ascends, cut.keeps.trans sorts.keeps⟩

end Comparing

/-! ### Sorting -/

theorem length_cutRuns_le (fuel : Nat) (elements : List Ref) :
    (cutRuns fuel elements).length ≤ fuel := by
  induction fuel generalizing elements with
  | zero => exact Nat.le_refl 0
  | succ fuel inductionHypothesis =>
    cases elements with
    | nil => exact Nat.zero_le _
    | cons element rest => exact Nat.succ_le_succ (inductionHypothesis _)

theorem flatten_cutRuns {fuel : Nat} {elements : List Ref} (enough : elements.length ≤ fuel) :
    (cutRuns fuel elements).flatten = elements := by
  induction fuel generalizing elements with
  | zero => exact (List.length_eq_zero_iff.mp (Nat.le_zero.mp enough)).symm
  | succ fuel inductionHypothesis =>
    cases elements with
    | nil => rfl
    | cons element rest =>
      rw [cutRuns, List.flatten_cons, inductionHypothesis, List.take_append_drop]
      · simp only [List.length_drop, List.length_cons, runLength] at enough ⊢
        omega
      · exact nofun

theorem precedes_ensures (descending : Bool) {first second : Ref} (firstKnown : known first)
    (secondKnown : known second) :
    (precedes Inquiry.isLess descending first second).Ensures known order fun answer =>
      answer = if descending then order second first else order first second := by
  have asked {left right : Ref} (leftKnown : known left) (rightKnown : known right) :
      (precedes Inquiry.isLess false left right).Ensures known order fun answer =>
        answer = order left right := by
    refine ⟨leftKnown, rightKnown, ?_⟩
    cases less : order left right with
    | true => exact rfl
    | false => exact ⟨rightKnown, leftKnown, rfl⟩
  cases descending with
  | false => exact asked firstKnown secondKnown
  | true => exact asked secondKnown firstKnown

theorem mapM_ensures {α β : Type} {step : α → Inquiry β} {required : α → β → Prop} {inputs : List α}
    (each : ∀ input ∈ inputs, (step input).Ensures known order (required input)) :
    (inputs.mapM step).Ensures known order (List.Forall₂ required inputs) := by
  induction inputs with
  | nil => exact .nil
  | cons input rest inductionHypothesis =>
    rw [List.forall_mem_cons] at each
    simp only [List.mapM_cons, Inquiry.ensures_bind, Inquiry.ensures_pure]
    exact each.1.mono fun output is => (inductionHypothesis each.2).mono fun outputs are =>
      .cons is are

/-- The key of a sort that descends goes down where the key of the order goes up. -/
def directed (descending : Bool) (rank : Ref → Int) (element : Ref) : Int :=
  if descending then -rank element else rank element

theorem precedes_compares (descending : Bool) {rank : Ref → Int}
    (ranks : ∀ first second, known first → known second →
      order first second = decide (rank first < rank second)) :
    Compares known order (directed descending rank) (precedes Inquiry.isLess descending) := by
  intro first second firstKnown secondKnown
  refine (precedes_ensures descending firstKnown secondKnown).mono ?_
  rintro _ rfl
  cases descending with
  | false => exact ranks first second firstKnown secondKnown
  | true => simp [directed, ranks second first secondKnown firstKnown]

/-- A sort gives its elements in order, and those with the same key in the order they had. -/
theorem sortBy_ensures (descending : Bool) (elements : Array Ref)
    (allKnown : ∀ element ∈ elements.toList, known element) {rank : Ref → Int}
    (ranks : ∀ first second, known first → known second →
      order first second = decide (rank first < rank second)) :
    (sortBy Inquiry.isLess descending elements).Ensures known order fun result =>
      Sorts (directed descending rank) elements.toList result.toList := by
  have compares := precedes_compares descending ranks
  have whole : (cutRuns elements.size elements.toList).flatten = elements.toList :=
    flatten_cutRuns (Nat.le_of_eq Array.length_toList)
  have runsKnown (run : List Ref) (inside : run ∈ cutRuns elements.size elements.toList)
      (element : Ref) (elementInside : element ∈ run) : known element :=
    allKnown element (whole ▸ List.mem_flatten_of_mem inside elementInside)
  have inserted (run : List Ref) (inside : run ∈ cutRuns elements.size elements.toList) :
      (do return (← insertAll (precedes Inquiry.isLess descending) [] run).toArray :
        Inquiry (Array Ref)).Ensures known order fun result =>
        Sorts (directed descending rank) run result.toList := by
    rw [Inquiry.ensures_bind]
    exact (insertAll_ensures compares (List.forall_mem_nil known) (runsKnown run inside)
      List.Pairwise.nil).mono fun result sorts => sorts
  rw [sortBy, Inquiry.ensures_bind]
  refine (mapM_ensures inserted).mono fun runs sorted => ?_
  have cut := cutInto_of_forall₂ sorted
  rw [whole] at cut
  have enough : runs.length ≤ elements.size :=
    sorted.length_eq ▸ length_cutRuns_le elements.size elements.toList
  refine (mergeRounds_ensures compares enough (fun other inside =>
    allKnown other (cut.keeps.mem_iff.mp inside)) cut.ascends).mono fun result sorts => ?_
  exact ⟨sorts.ascends, cut.keeps.trans sorts.keeps⟩

end Sorting

end Offside
