/-
This file shows what sorting a list does. If the comparisons of its elements answer by a
strict weak order, and keep doing so, the list gets a permutation of its elements that
goes up in this order, or down; elements of which none is less than the other stay in the
order they had, in both directions. A strict weak order of finitely many elements is the
order of a key, the number of elements below, and so it is enough to sort by keys.

If a comparison fails, the sort fails with it, in the world that the comparison leaves.
The elements are moved in an array of its own, and only after the last comparison the list
is given a new buffer. So nothing but the comparisons can have changed the list.
-/

import Offside.Proofs.Comparing.Order
import Offside.Proofs.Sorting.Merging

namespace Offside

open Exec Library World

namespace Sorting

/-! ### Orders -/

/-- The answers are those of a strict weak order of the known objects. -/
structure IsStrictWeak (known : Ref → Prop) (order : Ref → Ref → Bool) : Prop where
  irrefl : ∀ first, known first → order first first = false
  trans : ∀ first second third, known first → known second → known third →
    order first second = true → order second third = true → order first third = true
  alike_trans : ∀ first second third, known first → known second → known third →
    order first second = false → order second first = false →
    order second third = false → order third second = false →
    order first third = false ∧ order third first = false

/-- None of two objects is less than the other one. -/
def alike (order : Ref → Ref → Bool) (first second : Ref) : Bool :=
  !order first second && !order second first

/-- The number of elements below an object. -/
def rank (order : Ref → Ref → Bool) (elements : List Ref) (object : Ref) : Nat :=
  elements.countP fun element => order element object

section Ranks

variable {order : Ref → Ref → Bool} {elements : List Ref}
  (strict : IsStrictWeak (· ∈ elements) order)

include strict

/-- What is not above another element is not above anything that the other one is below. -/
theorem IsStrictWeak.order_of_not {first second third : Ref} (firstInside : first ∈ elements)
    (secondInside : second ∈ elements) (thirdInside : third ∈ elements)
    (less : order third second = true) (notLess : order first second = false) :
    order third first = true := by
  by_contra notBelow
  rw [Bool.not_eq_true] at notBelow
  cases above : order first third with
  | true =>
    have := strict.trans first third second firstInside thirdInside secondInside above less
    exact Bool.false_ne_true (notLess.symm.trans this)
  | false =>
    cases below : order second first with
    | true =>
      have := strict.trans third second first thirdInside secondInside firstInside less below
      exact Bool.false_ne_true (notBelow.symm.trans this)
    | false =>
      have := strict.alike_trans third first second thirdInside firstInside secondInside notBelow
        above notLess below
      exact Bool.false_ne_true (this.1.symm.trans less)

theorem IsStrictWeak.order_eq {first second : Ref} (firstInside : first ∈ elements)
    (secondInside : second ∈ elements) :
    order first second =
      decide ((rank order elements first : Int) < rank order elements second) := by
  cases less : order first second with
  | true =>
    have below (element : Ref) (inside : element ∈ elements) (lower : order element first = true) :
        order element second = true :=
      strict.trans element first second inside firstInside secondInside lower less
    let lowers := elements.filter fun element => order element second
    have within : rank order elements first = rank order lowers first := by
      rw [rank, rank, List.countP_filter]
      refine List.countP_congr fun element inside => ?_
      rw [Bool.and_eq_true]
      exact ⟨fun lower => ⟨lower, below element inside lower⟩, And.left⟩
    have fewer : rank order lowers first < lowers.length :=
      List.countP_lt_length_iff.mpr
        ⟨first, List.mem_filter.mpr ⟨firstInside, less⟩, strict.irrefl first firstInside⟩
    have all : lowers.length = rank order elements second := List.countP_eq_length_filter.symm
    exact (decide_eq_true (by omega)).symm
  | false =>
    have above (element : Ref) (inside : element ∈ elements) (lower : order element second = true) :
        order element first = true :=
      strict.order_of_not firstInside secondInside inside lower less
    have most : rank order elements second ≤ rank order elements first :=
      List.countP_mono_left above
    exact (decide_eq_false (by omega)).symm

end Ranks

/-- A sorted list is ordered by a strict weak order, and what is alike in it kept its order. -/
structure IsStableSort (order : Ref → Ref → Bool) (descending : Bool) (before after : List Ref) :
    Prop where
  perm : after.Perm before
  ordered : after.Pairwise fun first second =>
    if descending then order first second = false else order second first = false
  stable : ∀ element ∈ before, after.filter (alike order element) =
    before.filter (alike order element)

theorem Sorts.isStableSort {order : Ref → Ref → Bool} {before after : List Ref} {descending : Bool}
    (strict : IsStrictWeak (· ∈ before) order)
    (sorts : Sorts (directed descending fun element => rank order before element) before after) :
    IsStableSort order descending before after := by
  have inside {element : Ref} (there : element ∈ after) : element ∈ before :=
    sorts.keeps.mem_iff.mp there
  refine ⟨sorts.keeps.perm, sorts.ascends.imp_of_mem fun {first second} there otherThere most => ?_,
    fun element there => ?_⟩
  · rw [strict.order_eq (inside there) (inside otherThere),
      strict.order_eq (inside otherThere) (inside there), decide_eq_false_iff_not,
      decide_eq_false_iff_not]
    cases descending with
    | true => simpa [directed] using most
    | false => simpa [directed] using most
  · have sameKey {other : Ref} (otherThere : other ∈ before) : alike order element other =
        decide (directed descending (fun element => rank order before element) other =
          directed descending (fun element => rank order before element) element) := by
      rw [alike, strict.order_eq there otherThere, strict.order_eq otherThere there,
        Bool.eq_iff_iff]
      cases descending <;> simp [directed] <;> omega
    rw [List.filter_congr fun other otherThere => sameKey (inside otherThere),
      List.filter_congr fun other otherThere => sameKey otherThere]
    exact sorts.keeps _

/-! ### Lists -/

/-- What a sort is told about its direction: nothing, or a flag whose truth it asks for first. -/
inductive Directs (machine : Machine) (start : World) : Option Ref → Bool → World → Prop where
  | ascending : Directs machine start none false start
  | flag {flag : Ref} {descending : Bool} {world : World}
      (answered : truthy machine flag start = .ok descending world) :
      Directs machine start (some flag) descending world

/-- The flag is passed by its position or by its name. -/
inductive PassesFlag : Option Ref → List Ref → List (String × Ref) → Prop where
  | nothing : PassesFlag none [] []
  | positional (flag : Ref) : PassesFlag (some flag) [flag] []
  | named (flag : Ref) : PassesFlag (some flag) [] [("reverse", flag)]

/-- The comparison ends in this world, whether it fails or not. -/
def Leaves (comparison : Exec Bool) (before after : World) : Prop :=
  (∃ answer, comparison before = .ok answer after) ∨
    ∃ failure, comparison before = .error failure after

section Methods

variable {machine : Machine} {start world : World} {self : Ref} {flag : Option Ref}
  {descending : Bool} {buffer id : BufferId} {elements : Array Ref}

theorem runNative_sort {arguments : List Ref} {named : List (String × Ref)} (builtin : BuiltinClass)
    (name : String) (self : Ref) (passes : PassesFlag flag arguments named) :
    runNative machine (.method builtin name .listSort) (self :: arguments) named =
      listSort machine self flag := by
  cases passes with
  | nothing => rfl
  | positional => rfl
  | named =>
    rw [runNative, positionalArguments, if_neg (by simp), Arguments.byName,
      List.mergeSort_singleton]
    rfl

/-- Once the direction is known, the elements are sorted and moved. -/
theorem listSort_eq (isList : start.payload self = .list buffer)
    (directs : Directs machine start flag descending world)
    (holds : world.Holds self id elements) :
    listSort machine self flag start =
      (sortBy (lessThan machine) descending elements >>= fun result =>
        moveList self (.copied result)) world := by
  have received : listBuffer self start = .ok buffer start := by
    rw [listBuffer, read_bind, isList]
    rfl
  have known : discard (listBuffer self) start = .ok () start := bind_of_ok received
  rw [listSort, bind_of_ok known]
  cases directs with
  | ascending => exact bind_of_ok (listElements_eq holds)
  | flag answered => exact (bind_of_ok answered).trans (bind_of_ok (listElements_eq holds))

/-- The list gets its elements in order. -/
theorem listSort_sorts (isList : start.payload self = .list buffer)
    (directs : Directs machine start flag descending world)
    (holds : world.Holds self id elements) {order : Ref → Ref → Bool} {calm : World → Prop}
    (strict : IsStrictWeak (· ∈ elements.toList) order)
    (answers : Inquiry.Calm (lessThan machine) (· ∈ elements.toList) order calm)
    (isCalm : calm world)
    (keeps : ∀ middle, calm middle → ∃ id, middle.Holds self id elements) :
    ∃ result after, listSort machine self flag start = .ok noneRef after ∧
      (∃ id, after.Holds self id result) ∧
      IsStableSort order descending elements.toList result.toList := by
  have ensures := sortBy_ensures descending elements (fun element inside => inside)
    fun first second => strict.order_eq
  obtain ⟨result, middle, sorted, sorts, calmMiddle⟩ := ensures.exists_run answers isCalm
  rw [Inquiry.run_sortBy] at sorted
  obtain ⟨place, holdsMiddle⟩ := keeps middle calmMiddle
  obtain ⟨after, moved, becomes⟩ := holdsMiddle.become_move (.copied result)
  have cells : (Buffer.copied result).cells = result := Buffer.cells_holding 0 result
  rw [cells] at becomes
  exact ⟨result, after, (listSort_eq isList directs holds).trans ((bind_of_ok sorted).trans moved),
    becomes.held, sorts.isStableSort strict⟩

/-- A sort fails exactly if one of its comparisons does, and with the failure of that. -/
theorem listSort_eq_error_iff (isList : start.payload self = .list buffer)
    (directs : Directs machine start flag descending world)
    (holds : world.Holds self id elements) {failure : Failure} {after : World} :
    listSort machine self flag start = .error failure after ↔ ∃ left right asked,
      (sortBy Inquiry.isLess descending elements).Asks (lessThan machine) world left right asked ∧
        lessThan machine left right asked = .error failure after := by
  rw [listSort_eq isList directs holds, ← Inquiry.run_eq_error_iff, Inquiry.run_sortBy]
  cases sorted : sortBy (lessThan machine) descending elements world with
  | ok result middle =>
    rw [bind_of_ok sorted]
    exact ⟨nofun, nofun⟩
  | error other middle =>
    rw [bind_of_error sorted]
    constructor <;> rintro ⟨⟩ <;> rfl

/-! ### Lists of values -/

section Values

variable {type : ValueType} {fuel : Nat} {known : Ref → Prop} (value : Ref → type.Carrier)

theorem isStrictWeak_of_values :
    IsStrictWeak known fun first second => decide (value first < value second) := by
  refine ⟨fun first _ => decide_eq_false (lt_irrefl _),
    fun first second third _ _ _ less more => ?_,
    fun first second third _ _ _ notLess notMore notLessToo notMoreToo => ?_⟩
  · rw [decide_eq_true_iff] at less more ⊢
    exact less.trans more
  · simp only [decide_eq_false_iff_not, not_lt] at *
    exact ⟨notLessToo.trans notLess, notMore.trans notMoreToo⟩

/-- Comparing values of one type changes nothing. -/
theorem calm_of_values (unmodified : world.Unmodified)
    (stand : ∀ ref, known ref → world.StandsFor fuel ref (type.literal (value ref))) :
    Inquiry.Calm (lessThan (.ofFuel fuel)) known
      (fun first second => decide (value first < value second)) (· = world) := by
  rintro first second _ firstKnown secondKnown rfl
  have stands := stand first firstKnown
  have otherStands := stand second secondKnown
  obtain ⟨answer, given, right⟩ := lessThan_judges unmodified (compare_tells unmodified type .less
    stands.enough otherStands.enough stands.represents otherStands.represents)
  have same : answer = decide (value first < value second) := by
    rw [Bool.eq_iff_iff, right, decide_eq_true_iff]
    rfl
  subst same
  exact ⟨_, given, rfl⟩

end Values

/-- Sorting a list is correct and stable if its comparisons keep answering by a strict weak order.
If one of them fails, the sort fails with it, and the list is as it was unless a comparison changed
it. -/
theorem sort_stable_atomic (builtin : BuiltinClass) (name : String) {arguments : List Ref}
    {named : List (String × Ref)} (passes : PassesFlag flag arguments named)
    (isList : start.payload self = .list buffer)
    (directs : Directs machine start flag descending world)
    (holds : world.Holds self id elements) :
    let sort := runNative machine (.method builtin name .listSort) (self :: arguments) named
    let inquiry := sortBy Inquiry.isLess descending elements
    (∀ (order : Ref → Ref → Bool) (calm : World → Prop),
      IsStrictWeak (· ∈ elements.toList) order →
      Inquiry.Calm (lessThan machine) (· ∈ elements.toList) order calm → calm world →
      (∀ middle, calm middle → ∃ id, middle.Holds self id elements) →
      ∃ result after, sort start = .ok noneRef after ∧ (∃ id, after.Holds self id result) ∧
        IsStableSort order descending elements.toList result.toList) ∧
    ∀ {failure : Failure} {after : World},
      (sort start = .error failure after ↔ ∃ left right asked,
        inquiry.Asks (lessThan machine) world left right asked ∧
          lessThan machine left right asked = .error failure after) ∧
      ((∀ {left right : Ref} {asked later : World},
          inquiry.Asks (lessThan machine) world left right asked → asked.Holds self id elements →
          Leaves (lessThan machine left right) asked later → later.Holds self id elements) →
        sort start = .error failure after → after.Holds self id elements) := by
  intro sort inquiry
  have same : sort = listSort machine self flag := runNative_sort builtin name self passes
  clear_value sort
  subst same
  refine ⟨fun order calm strict answers isCalm keeps =>
    listSort_sorts isList directs holds strict answers isCalm keeps, fun {failure after} =>
    ⟨listSort_eq_error_iff isList directs holds, fun keeps failed => ?_⟩⟩
  obtain ⟨left, right, asked, asks, failedThere⟩ :=
    (listSort_eq_error_iff isList directs holds).mp failed
  have holdsThere : asked.Holds self id elements := asks.keeps holds fun asks holds answered =>
    keeps asks holds (.inl ⟨_, answered⟩)
  exact keeps asks holdsThere (.inr ⟨failure, failedThere⟩)

end Methods

/-- The list of a two and two different ones is sorted: the ones come first, in the order they
had. -/
theorem two_ones_sorted :
    let start := beginning { files := ⟨"/", []⟩, input := "", output := "" } []
    let place (offset : Nat) : Ref := ⟨start.objects.size + offset⟩
    let elements : Array Ref := #[place 0, place 1, place 2]
    let early : World := { start with buffers := start.buffers.push (.exact elements) }
    let new : Array Object :=
      #[⟨BuiltinClass.int.ref, none, .int 2, none⟩, ⟨BuiltinClass.int.ref, none, .int 1, none⟩,
        ⟨BuiltinClass.int.ref, none, .int 1, none⟩,
        ⟨BuiltinClass.list.ref, none, .list ⟨start.buffers.size⟩, none⟩]
    let world : World := { early with objects := early.objects ++ new }
    let value (ref : Ref) : ValueType.int.Carrier :=
      if ref = place 0 then (2 : Int64) else (1 : Int64)
    (PassesFlag none [] [] ∧ world.payload (place 3) = .list ⟨start.buffers.size⟩ ∧
      Directs (.ofFuel 1) world none false world ∧
      world.Holds (place 3) ⟨start.buffers.size⟩ elements) ∧
    ∃ result after,
      runNative (.ofFuel 1) (.method .list "sort" .listSort) [place 3] [] world =
        .ok noneRef after ∧
      (∃ id, after.Holds (place 3) id result) ∧
      IsStableSort (fun first second => decide (value first < value second)) false elements.toList
        result.toList := by
  intro start place elements early new world value
  have begun : start.Unmodified := beginning_unmodified _ []
  -- What the first world holds otherwise must not be computed.
  clear_value start
  have roomy : start.Grows early := .pushBuffer start _
  have unmodified : world.Unmodified := begun.grow (roomy.trans (.append early new))
  have placed {offset : Nat} {object : Object} (known : new[offset]? = some object) :
      world.object (place offset) = object :=
    object_append early new known
  have list : world.object (place 3) =
      ⟨BuiltinClass.list.ref, none, .list ⟨start.buffers.size⟩, none⟩ := placed rfl
  have isList : world.payload (place 3) = .list ⟨start.buffers.size⟩ := congrArg Object.payload list
  have holds : world.Holds (place 3) ⟨start.buffers.size⟩ elements := by
    refine ⟨isList, ?_, ?_⟩
    · simp [world, early]
    · simp [world, early, World.buffer, Buffer.exact]
  have stand (ref : Ref) (inside : ref ∈ elements.toList) :
      world.StandsFor 1 ref (ValueType.int.literal (value ref)) := by
    have two : value (place 0) = (2 : Int64) := if_pos rfl
    have one : value (place 1) = (1 : Int64) := if_neg (by simp [place])
    have otherOne : value (place 2) = (1 : Int64) := if_neg (by simp [place])
    have each : ∀ ref ∈ elements.toList, world.Represents ref (.int (value ref)) := by
      simp only [elements, List.forall_mem_cons, two, one, otherOne]
      exact ⟨⟨trivial, .of_object (placed rfl)⟩, ⟨trivial, .of_object (placed rfl)⟩,
        ⟨trivial, .of_object (placed rfl)⟩, List.forall_mem_nil _⟩
    exact ⟨each ref inside, ValueType.int.literal_consistent _, Nat.one_pos⟩
  obtain ⟨sorts, -⟩ := sort_stable_atomic .list "sort" .nothing isList
    (Directs.ascending : Directs (.ofFuel 1) world none false world) holds
  exact ⟨⟨.nothing, isList, .ascending, holds⟩, sorts _ _ (isStrictWeak_of_values value)
    (calm_of_values value unmodified stand) rfl fun _ same => ⟨_, same ▸ holds⟩⟩

end Sorting

end Offside
