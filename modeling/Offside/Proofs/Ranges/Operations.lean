/-
This file shows that the operations on ranges agree with each other. Each of them works with
a formula of its own: iterating and indexing compute the number at a place, `in` divides the
distance from the start, and `len` counts. All of them speak of the same list of numbers,
for all bounds and steps, also where the count of the range is not exact.

An iteration lasts as long as a loop goes on with it, and the body of the loop changes the
world. So what an iterator supplies is said for any change between two rounds that does not
touch the iterator itself.

Whether the numbers are those that the range means depends on its count. As long as that is
exact, they are; otherwise there are none.
-/

import Offside.Proofs.Arithmetic
import Offside.Proofs.Ranges.Numbers

namespace Offside

open Exec Library Number

/-! ### Ranges as objects -/

/-- The special methods of ranges. -/
def progressionMethods : List (String × Method) :=
  [("__len__", .rangeLen), ("__iter__", .rangeIter), ("__contains__", .rangeContains),
    ("__getitem__", .rangeGetItem)]

/-- The object is a range, and has the special methods that ranges were made with. -/
structure World.IsRange (world : World) (ref : Ref) (range : Progression) : Prop where
  present : ref ≠ vacantRef
  payload : world.payload ref = .range range.start range.stop range.step
  answers : ∀ name method, (name, method) ∈ progressionMethods → world.Answers ref name method

/-- What counts as an integer is one as an index. -/
theorem World.CountsAs.indexValue? {world : World} {index : Ref} {i : Int64}
    (counts : world.CountsAs index i) : Library.indexValue? (world.payload index) = some i := by
  have payload := counts.payload
  cases held : world.payload index <;> rw [held] at payload <;> cases payload <;> rfl

/-- A range that a program makes is one. -/
theorem World.Intact.isRange {world : World} (intact : world.Intact) {ref : Ref}
    {range : Progression}
    (plain : world.Plain ref .range (.range range.start range.stop range.step)) :
    world.IsRange ref range where
  present := intact.present_of_plain plain (by simp)
  payload := plain.payload
  answers name method listed := by
    simp only [progressionMethods, List.mem_cons, List.not_mem_nil, or_false, Prod.mk.injEq]
      at listed
    obtain ⟨rfl, rfl⟩ | ⟨rfl, rfl⟩ | ⟨rfl, rfl⟩ | ⟨rfl, rfl⟩ := listed <;>
      exact intact.answers plain (by decide) (by decide) (by decide)

namespace Exec

/-! ### Iterating -/

/-- From this world on, an iterator gives new integers of these values, one in each round, and then
nothing any more. Between two rounds the world may change in any way that leaves the iterator where
it is. -/
inductive Supplies (machine : Machine) (iterator : Ref) : World → List Int64 → Prop
  | ended {world} :
    next? machine iterator world = .ok none world → Supplies machine iterator world []
  | further {world element middle value rest} :
    next? machine iterator world = .ok (some element) middle →
    middle.Plain element .int (.int value) →
    (∀ later : World, later.payload iterator = middle.payload iterator →
      Supplies machine iterator later rest) →
    Supplies machine iterator world (value :: rest)

section Iterating

variable {machine : Machine} {iterator : Ref} {world : World}

/-- An iterator only gives the values it gives. -/
theorem Supplies.unique {values others : List Int64}
    (supplies : Supplies machine iterator world values)
    (other : Supplies machine iterator world others) : values = others := by
  induction supplies generalizing others with
  | ended done =>
    cases other with
    | ended => rfl
    | further more => cases done.symm.trans more
  | further more plain _ inductionHypothesis =>
    cases other with
    | ended done => cases more.symm.trans done
    | further moreToo plainToo goesOn =>
      cases more.symm.trans moreToo
      cases plain.payload.symm.trans plainToo.payload
      rw [inductionHypothesis _ rfl (goesOn _ rfl)]

/-- One step through the numbers of a range. -/
theorem next?_numbers (machine : Machine) {range : Progression} {position : Int64}
    (held : world.payload iterator =
      .iterator (.numbers range.start range.stop range.step position)) :
    (range.length ≤ position ∧ next? machine iterator world = .ok none world) ∨
    (position < range.length ∧ ∃ element middle,
      next? machine iterator world = .ok (some element) middle ∧
      middle.Plain element .int (.int (range.number position)) ∧
      middle.payload iterator =
        .iterator (.numbers range.start range.stop range.step (position + 1))) := by
  have stepped : next? machine iterator world =
      advance iterator (.numbers range.start range.stop range.step position) world := by
    rw [next?, read_bind, held]
  have lengthOf : rangeLength range.start range.stop range.step = range.length := rfl
  rw [stepped, advance, lengthOf]
  by_cases ended : range.length ≤ position
  · rw [if_pos ended]
    exact .inl ⟨ended, rfl⟩
  · rw [if_neg ended]
    let cursor : Cursor := .numbers range.start range.stop range.step (position + 1)
    let moved : World := { world with
      objects := world.objects.modify iterator.index fun object =>
        { object with payload := .iterator cursor } }
    have inside : iterator.index < world.objects.size :=
      World.bound_of_object fun absent => by
        rw [World.payload, absent] at held
        cases held
    have advanced : moved.payload iterator = .iterator cursor := by
      simp [moved, World.payload, World.object, inside, Array.getElem_modify]
    have kept := (World.GrowsBut.push moved ⟨BuiltinClass.int.ref, none,
      .int (range.number position), none⟩).object iterator (by simpa [moved] using inside) id
    refine .inr ⟨Int64.not_le.mp ended, _, _, rfl, World.plain_push moved .int (.int _), ?_⟩
    exact (congrArg Object.payload kept).trans advanced

/-- An iterator that stands at a place of a range gives the numbers from there on. -/
theorem supplies_numbers {range : Progression} {place : Nat}
    (placed : place ≤ range.numbers.length)
    (held : world.payload iterator =
      .iterator (.numbers range.start range.stop range.step (Int64.ofNat place))) :
    Supplies machine iterator world (range.numbers.drop place) := by
  have bound := range.length.toInt_lt
  have size := range.length_numbers
  have position : (Int64.ofNat place).toInt = place := Int64.toInt_ofNat_of_lt (by omega)
  induction remaining : range.numbers.length - place generalizing place world with
  | zero =>
    obtain ⟨-, done⟩ | ⟨inside, -⟩ := next?_numbers machine held
    · rw [List.drop_of_length_le (by omega)]
      exact .ended done
    · rw [Int64.lt_iff_toInt_lt, position] at inside
      omega
  | succ count inductionHypothesis =>
    obtain ⟨past, -⟩ | ⟨-, element, middle, more, plain, moved⟩ :=
      next?_numbers machine held
    · rw [Int64.le_iff_toInt_le, position] at past
      omega
    · have inside : place < range.numbers.length := by omega
      rw [List.drop_eq_getElem_cons inside, Progression.getElem_numbers]
      rw [show Int64.ofNat place + 1 = Int64.ofNat (place + 1) from (Int64.ofNat_add place 1).symm]
        at moved
      refine .further more plain fun later same => ?_
      exact inductionHypothesis inside (same.trans moved)
        (Int64.toInt_ofNat_of_lt (by omega)) (by omega)

end Iterating

/-! ### The operations -/

theorem positionOf_eq {world : World} (kind : String) (length : Int64) {index : Ref} {i : Int64}
    (indexed : indexValue? (world.payload index) = some i) :
    positionOf kind length index world =
      (if (if i < 0 then i + length else i) < 0 || length ≤ (if i < 0 then i + length else i)
        then complain (.indexOutOfRange kind) else pure (if i < 0 then i + length else i) :
          Exec Int64) world := by
  rw [positionOf, indexOf?, read_bind, indexed]

/-- A truth value is true or false as it was made. -/
theorem truthy_truthRef {world : World} {machine : Machine} (value : Bool)
    (truths : world.Keeps [.truth true, .truth false]) :
    truthy machine (truthRef value) world = .ok value world := by
  have plain := truths (.truth value) (by cases value <;> simp)
  have class_ : (world.object (truthRef value)).class_ = BuiltinClass.bool.ref := plain.class_
  have payload : (world.object (truthRef value)).payload = .bool value := plain.payload
  rw [truthy, read_bind, class_, payload]
  rfl

section Operations

variable (fuel : Nat) {world : World} {ref : Ref} {range : Progression}
  (isRange : world.IsRange ref range)

include isRange

theorem progressionOf_eq : progressionOf ref world = .ok range world := by
  rw [progressionOf, progressionOf?, read_bind, isRange.payload]
  rfl

/-- Iterating over a range goes through its numbers. -/
theorem iter_range : ∃ iterator after, iter (.ofFuel (fuel + 1)) ref world = .ok iterator after ∧
    Supplies (.ofFuel (fuel + 1)) iterator after range.numbers := by
  let cursor : Cursor := .numbers range.start range.stop range.step 0
  have runs (native : Native) : runMethod (.ofFuel fuel) native .rangeIter ref [] world =
      newIterator cursor world := bind_of_ok (progressionOf_eq isRange)
  have made : iter (.ofFuel (fuel + 1)) ref world = newIterator cursor world := by
    rw [iter, invoke?_bind fuel (isRange.answers "__iter__" .rangeIter (by decide))
      (by simp [isRange.present]) runs]
    rfl
  have supplies : Supplies (.ofFuel (fuel + 1)) _ _ (range.numbers.drop 0) :=
    supplies_numbers (Nat.zero_le _) (World.plain_push world .iterator (.iterator cursor)).payload
  exact ⟨_, _, made, supplies⟩

/-- The count that a range says it has. -/
theorem length_range :
    Gives (Library.length (.ofFuel (fuel + 1)) ref) world range.length.toInt := by
  have runs (native : Native) : runMethod (.ofFuel fuel) native .rangeLen ref [] world =
      newInt range.length world := bind_of_ok (progressionOf_eq isRange)
  have counted : Library.length (.ofFuel (fuel + 1)) ref world = newInt range.length world := by
    rw [Library.length, invoke?_bind fuel (isRange.answers "__len__" .rangeLen (by decide))
      (by simp [isRange.present]) runs]
    rfl
  rw [Gives, counted]
  exact gives_newInt _ _

/-- The number of a range at an index from its start on. -/
theorem getItem_range {index : Ref} {i : Int64} (counts : world.CountsAs index i)
    (natural : 0 ≤ i.toInt) :
    (∀ place (inside : place < range.numbers.length), i.toInt = place →
      Gives (getItem (.ofFuel (fuel + 1)) ref index) world range.numbers[place].toInt) ∧
    (range.numbers.length ≤ i.toInt →
      Raises (getItem (.ofFuel (fuel + 1)) ref index) world .indexError
        "range object index out of range") := by
  have runs (native : Native) : runMethod (.ofFuel fuel) native .rangeGetItem ref [index] world =
      (do newInt (range.number (← positionOf "range object" range.length index))) world :=
    bind_of_ok (progressionOf_eq isRange)
  have got : getItem (.ofFuel (fuel + 1)) ref index world =
      (do newInt (range.number (← positionOf "range object" range.length index))) world := by
    rw [getItem, invoke?_bind fuel (isRange.answers "__getitem__" .rangeGetItem (by decide))
      (by simp [isRange.present, counts.present]) runs]
    exact congrFun (bind_pure _) world
  have forward : ¬ i < 0 := by
    rw [Int64.lt_iff_toInt_lt, Int64.toInt_zero]
    omega
  have position := positionOf_eq "range object" range.length counts.indexValue?
  rw [if_neg forward, decide_eq_false forward, Bool.false_or] at position
  have count := range.length_numbers
  refine ⟨fun place inside same => ?_, fun outside => ?_⟩
  · have within : ¬ range.length ≤ i := by
      rw [Int64.le_iff_toInt_le]
      omega
    have word : i = Int64.ofNat place := by
      have bound := i.toInt_lt
      rw [← Int64.toInt_inj, same, Int64.toInt_ofNat_of_lt (by omega)]
    rw [decide_eq_false within, if_neg Bool.false_ne_true] at position
    rw [Gives, got, bind_of_ok position, Progression.getElem_numbers, word]
    exact gives_newInt _ _
  · have beyond : range.length ≤ i := by
      rw [Int64.le_iff_toInt_le]
      omega
    rw [decide_eq_true beyond, if_pos rfl] at position
    obtain ⟨id, after, raised, exception⟩ : Raises _ world .indexError _ :=
      raises_complain (α := Int64)
        (show (Complaint.indexOutOfRange "range object").message = some _ from rfl) world
    exact ⟨id, after, got.trans (bind_of_error (position.trans raised)), exception⟩

/-- Whether a range contains an integer. -/
theorem contains_range {number : Ref} {n : Int64} (present : number ≠ vacantRef)
    (integer : world.payload number = .int n) (truths : world.Keeps [.truth true, .truth false]) :
    binaryOperation (.ofFuel (fuel + 1)) .member number ref world =
      .ok (truthRef (decide (n ∈ range.numbers))) world := by
  have runs (native : Native) : runMethod (.ofFuel fuel) native .rangeContains ref [number] world =
      (pure (truthRef (range.holds n)) : Exec Ref) world := by
    refine (bind_of_ok (progressionOf_eq isRange)).trans ?_
    rw [read_bind, integer]
  have contained : contains (.ofFuel (fuel + 1)) number ref world =
      .ok (decide (n ∈ range.numbers)) world := by
    rw [contains, invoke?_bind fuel (isRange.answers "__contains__" .rangeContains (by decide))
      (by simp [isRange.present, present]) runs, pure_bind, range.holds_eq]
    exact truthy_truthRef _ truths
  exact bind_of_ok contained

end Operations

/-! ### Making ranges -/

section Making

variable {world : World} {refs : List Ref} {values : List Int64}

theorem integersOf_eq (counts : List.Forall₂ world.CountsAs refs values) (found : List Int64) :
    integersOf found refs world = .ok (found.reverse ++ values) world := by
  induction counts generalizing found with
  | nil =>
    rw [List.append_nil]
    rfl
  | cons first _ inductionHypothesis =>
    rw [integersOf, indexOf?, read_bind, first.indexValue?]
    dsimp only
    rw [inductionHypothesis, List.reverse_cons, List.append_assoc]
    rfl

/-- Calling the class of ranges makes a range. -/
theorem call_range (fuel : Nat) (intact : world.Intact) {start stop step : Ref}
    {range : Progression} (starts : world.CountsAs start range.start)
    (stops : world.CountsAs stop range.stop) (strides : world.CountsAs step range.step)
    (nonzero : range.step ≠ 0) :
    (Machine.ofFuel (fuel + 1)).call BuiltinClass.range.ref [start, stop, step] [] world =
      newValue .range (.range range.start range.stop range.step) world := by
  have isClass : world.isClass BuiltinClass.range.ref = true := by
    rw [World.isClass, intact.class_, beq_self_eq_true]
  have present : ∀ ref ∈ [start, stop, step], ref ≠ vacantRef := by
    simp [starts.present, stops.present, strides.present]
  have other : ¬ (range.step == 0) = true := by simpa using nonzero
  have converted : convertRange [start, stop, step] world =
      newValue .range (.range range.start range.stop range.step) world := by
    rw [convertRange,
      bind_of_ok (integersOf_eq (.cons starts (.cons stops (.cons strides .nil))) [])]
    exact congrFun (if_neg other) world
  change callAt (fuel + 1) _ _ _ _ = _
  rw [callAt, callStep, bind_of_ok (checkPresent_of_ne (by decide) world), read_bind, isClass,
    if_pos rfl]
  exact (bind_of_ok (checkPresent_all present world)).trans converted

end Making

/-! ### The main results -/

/-- The operations on a range agree, whatever its bounds and its step are. Iterating gives its
numbers, none of them twice. An index from zero on gives the number of the same place, and is
refused if there is none. An integer is in the range exactly if iterating gives it. The length is
how many numbers there are, or below zero if there are none. -/
theorem range_operations_agree (fuel : Nat) {world : World} {ref : Ref} {range : Progression}
    (isRange : world.IsRange ref range) (truths : world.Keeps [.truth true, .truth false]) :
    (∃ iterator after, iter (.ofFuel (fuel + 1)) ref world = .ok iterator after ∧
      Supplies (.ofFuel (fuel + 1)) iterator after range.numbers) ∧
    range.numbers.Nodup ∧
    (∀ index i, world.CountsAs index i →
      (∀ place (inside : place < range.numbers.length), i.toInt = place →
        Gives (getItem (.ofFuel (fuel + 1)) ref index) world range.numbers[place].toInt) ∧
      (range.numbers.length ≤ i.toInt →
        Raises (getItem (.ofFuel (fuel + 1)) ref index) world .indexError
          "range object index out of range")) ∧
    (∀ number n, number ≠ vacantRef → world.payload number = .int n →
      binaryOperation (.ofFuel (fuel + 1)) .member number ref world =
        .ok (truthRef (decide (n ∈ range.numbers))) world) ∧
    ∃ count : Int, Gives (Library.length (.ofFuel (fuel + 1)) ref) world count ∧
      range.numbers.length = count.toNat := by
  refine ⟨iter_range fuel isRange, range.nodup_numbers, fun index i counts => ⟨?_, ?_⟩, ?_, _,
    length_range fuel isRange, range.length_numbers⟩
  · intro place inside same
    exact (getItem_range fuel isRange counts (by omega)).1 place inside same
  · intro outside
    exact (getItem_range fuel isRange counts (by omega)).2 outside
  · intro number n present integer
    exact contains_range fuel isRange present integer truths

open World in
/-- A range whose distance and step together are the greatest word. -/
theorem widest_range_operations :
    let host : Host := { files := ⟨"/", []⟩, input := "", output := "" }
    let range : Progression := ⟨4611686018427387904, -2305843009213693952, -2305843009213693952⟩
    let start := beginning host []
    let early : World := { start with
      objects := start.objects.push
        ⟨BuiltinClass.range.ref, none, .range range.start range.stop range.step, none⟩ }
    let middle : World := { early with
      objects := early.objects.push ⟨BuiltinClass.int.ref, none, .int 2305843009213693952, none⟩ }
    let world : World := { middle with
      objects := middle.objects.push ⟨BuiltinClass.int.ref, none, .int 3, none⟩ }
    let ref : Ref := ⟨start.objects.size⟩
    let half : Ref := ⟨early.objects.size⟩
    let three : Ref := ⟨middle.objects.size⟩
    (world.IsRange ref range ∧ world.Keeps [.truth true, .truth false] ∧
      world.CountsAs trueRef 1 ∧ world.CountsAs three 3) ∧
    (∃ iterator after, iter (.ofFuel 1) ref world = .ok iterator after ∧
      Supplies (.ofFuel 1) iterator after [4611686018427387904, 2305843009213693952, 0]) ∧
    Gives (getItem (.ofFuel 1) ref trueRef) world 2305843009213693952 ∧
    Raises (getItem (.ofFuel 1) ref three) world .indexError "range object index out of range" ∧
    binaryOperation (.ofFuel 1) .member half ref world = .ok trueRef world ∧
    binaryOperation (.ofFuel 1) .member three ref world = .ok falseRef world := by
  intro host range start early middle world ref half three
  have first : start.Grows early := .push start _
  have second : early.Grows middle := .push early _
  have third : middle.Grows world := .push middle _
  have intact : world.Intact := (beginning_intact host []).grow (first.trans (second.trans third))
    fun _ impossible => impossible.elim
  have truths : world.Keeps [.truth true, .truth false] :=
    (beginning_keeps host [] _).grow (first.trans (second.trans third)) fun _ => id
  have isRange : world.IsRange ref range := intact.isRange
    ((plain_push start .range (.range range.start range.stop range.step)).grow (by simp)
      (second.trans third) id)
  have halfHeld : world.Plain half .int (.int 2305843009213693952) :=
    (plain_push early .int (.int 2305843009213693952)).grow (by simp) third id
  have threeHeld : world.Plain three .int (.int 3) := plain_push middle .int (.int 3)
  have counts : world.CountsAs three 3 := (intact.calculates_int threeHeld).toCountsAs
  have one : world.CountsAs trueRef 1 := by
    have plain : world.Plain trueRef .bool (.bool true) :=
      truths (.truth true) List.mem_cons_self
    exact ⟨by decide, by rw [plain.payload]; rfl⟩
  have numbers : range.numbers = [4611686018427387904, 2305843009213693952, 0] := by decide
  obtain ⟨iterates, -, indexed, contained, -⟩ := range_operations_agree 0 isRange truths
  rw [numbers] at iterates indexed contained
  refine ⟨⟨isRange, truths, one, counts⟩, iterates, (indexed _ _ one).1 1 (by decide) rfl,
    (indexed _ _ counts).2 (by decide), ?_, ?_⟩
  · exact contained half _ (intact.present_of_plain halfHeld (by simp)) halfHeld.payload
  · exact contained three _ counts.present threeHeld.payload

/-- The range of two bounds and a step. As long as the distance of the bounds and the size of the
step together are an integer of the language, or the range has one number only, iterating gives the
progression from the first bound that is before the second one, and the length is its length. If
they are not, iterating gives nothing, also where the first bound is before the second one, and the
length is zero or below zero. -/
theorem range_exact_or_empty (fuel : Nat) {world : World} (intact : world.Intact)
    {start stop step : Ref} {range : Progression} (starts : world.CountsAs start range.start)
    (stops : world.CountsAs stop range.stop) (strides : world.CountsAs step range.step)
    (nonzero : range.step ≠ 0) :
    ∃ ref made values count exact_,
      (Machine.ofFuel (fuel + 1)).call BuiltinClass.range.ref [start, stop, step] [] world =
        .ok ref made ∧
      (∃ iterator after, iter (.ofFuel (fuel + 1)) ref made = .ok iterator after ∧
        Supplies (.ofFuel (fuel + 1)) iterator after values) ∧
      Gives (Library.length (.ofFuel (fuel + 1)) ref) made count ∧
      IsProgression range.start.toInt range.stop.toInt range.step.toInt exact_ ∧
      (range.Fits ∨ exact_ = [] → values.map Int64.toInt = exact_ ∧ count = exact_.length) ∧
      (¬ range.Fits → values = [] ∧ count ≤ 0) := by
  let made : World := { world with
    objects := world.objects.push
      ⟨BuiltinClass.range.ref, none, .range range.start range.stop range.step, none⟩ }
  have isRange : made.IsRange ⟨world.objects.size⟩ range :=
    (intact.grow (.push world _) fun _ impossible => impossible.elim).isRange
      (World.plain_push world .range _)
  have turning : range.step.toInt ≠ 0 := fun zero => nonzero (Int64.toInt_inj.mp zero)
  obtain ⟨exact_, progression⟩ :=
    exists_isProgression range.start.toInt range.stop.toInt turning
  have size := range.length_numbers
  refine ⟨_, made, range.numbers, _, exact_,
    call_range fuel intact starts stops strides nonzero, iter_range fuel isRange,
    length_range fuel isRange, progression, fun either => ?_, fun unfit => ?_⟩
  · by_cases before : Before range.step.toInt range.start.toInt range.stop.toInt
    · have fits : range.Fits := either.resolve_right fun none => by
        subst none
        obtain ⟨-, past⟩ | ⟨_, impossible, -⟩ := progression.cases
        · exact past before
        · cases impossible
      have same := (range.isProgression_numbers fits before).unique progression
      have positive : 0 < range.numbers.length := by
        rw [size, Progression.lt_length_iff fits before]
        simpa using before
      refine ⟨same, ?_⟩
      rw [← same, List.length_map]
      omega
    · have none := progression.unique (isProgression_nil before)
      have zero := Progression.length_of_not_before before
      rw [zero, Int64.toInt_zero] at size
      rw [none, zero, List.length_eq_zero_iff.mp size]
      exact ⟨rfl, rfl⟩
  · have small : range.length.toInt ≤ 0 := by
      by_cases before : Before range.step.toInt range.start.toInt range.stop.toInt
      · exact Progression.length_nonpos unfit before
      · rw [Progression.length_of_not_before before, Int64.toInt_zero]
    exact ⟨List.length_eq_zero_iff.mp (by omega), small⟩

open World in
/-- The ten numbers from zero to nine; and a step that is too large for them, which would reach the
one number zero. -/
theorem wide_step_empty :
    let host : Host := { files := ⟨"/", []⟩, input := "", output := "" }
    let start := beginning host []
    let early : World := { start with
      objects := start.objects.push ⟨BuiltinClass.int.ref, none, .int 10, none⟩ }
    let world : World := { early with
      objects := early.objects.push ⟨BuiltinClass.int.ref, none, .int .maxValue, none⟩ }
    let ten : Ref := ⟨start.objects.size⟩
    let far : Ref := ⟨early.objects.size⟩
    (world.Intact ∧ world.CountsAs falseRef 0 ∧ world.CountsAs trueRef 1 ∧ world.CountsAs ten 10 ∧
      world.CountsAs far .maxValue) ∧
    (∃ ref made, (Machine.ofFuel 1).call BuiltinClass.range.ref [falseRef, ten, trueRef] [] world =
        .ok ref made ∧
      (∃ iterator after, iter (.ofFuel 1) ref made = .ok iterator after ∧
        Supplies (.ofFuel 1) iterator after [0, 1, 2, 3, 4, 5, 6, 7, 8, 9]) ∧
      Gives (Library.length (.ofFuel 1) ref) made 10) ∧
    ∃ ref made count, (Machine.ofFuel 1).call BuiltinClass.range.ref [falseRef, ten, far] [] world =
        .ok ref made ∧
      (∃ iterator after, iter (.ofFuel 1) ref made = .ok iterator after ∧
        Supplies (.ofFuel 1) iterator after []) ∧
      Gives (Library.length (.ofFuel 1) ref) made count ∧ count ≤ 0 ∧
      IsProgression 0 10 9223372036854775807 [0] := by
  intro host start early world ten far
  have first : start.Grows early := .push start _
  have second : early.Grows world := .push early _
  have intact : world.Intact := (beginning_intact host []).grow (first.trans second)
    fun _ impossible => impossible.elim
  have truths : world.Keeps [.truth true, .truth false] :=
    (beginning_keeps host [] _).grow (first.trans second) fun _ => id
  have falseHeld : world.Plain falseRef .bool (.bool false) := truths (.truth false) (by simp)
  have trueHeld : world.Plain trueRef .bool (.bool true) := truths (.truth true) (by simp)
  have zero : world.CountsAs falseRef 0 := ⟨by decide, by rw [falseHeld.payload]; rfl⟩
  have one : world.CountsAs trueRef 1 := ⟨by decide, by rw [trueHeld.payload]; rfl⟩
  have tens : world.CountsAs ten 10 := (intact.calculates_int
    ((plain_push start .int (.int 10)).grow (by simp) second id)).toCountsAs
  have widest : world.CountsAs far .maxValue :=
    (intact.calculates_int (plain_push early .int (.int .maxValue))).toCountsAs
  obtain ⟨ref, made, values, count, exact_, called, supplied, counted, progression, exactly, -⟩ :=
    range_exact_or_empty 0 intact
      (show world.CountsAs falseRef (Progression.mk 0 10 1).start from zero)
      tens one (by decide)
  obtain ⟨wideRef, wideMade, none, wideCount, single, wideCalled, wideSupplied, wideCounted,
    wideProgression, -, empty⟩ :=
    range_exact_or_empty 0 intact
      (show world.CountsAs falseRef (Progression.mk 0 10 .maxValue).start from zero)
      tens widest (by decide)
  have fits : (⟨0, 10, 1⟩ : Progression).Fits := .inl (by unfold InRange; decide)
  have unfit : ¬ (⟨0, 10, .maxValue⟩ : Progression).Fits := by
    rintro (⟨-, small⟩ | one)
    · exact absurd small (by decide)
    · exact absurd one (by decide)
  obtain ⟨same, exactCount⟩ := exactly (.inl fits)
  have numbers := progression.unique
    (Progression.isProgression_numbers fits (.inl ⟨by decide, by decide⟩))
  have listed : values = [0, 1, 2, 3, 4, 5, 6, 7, 8, 9] :=
    List.map_injective_iff.mpr (fun _ _ => Int64.toInt_inj.mp)
      (same.trans (numbers.trans (by decide)))
  have ten_ : count = 10 := by rw [exactCount, numbers]; decide
  have nothing := empty unfit
  have reached : IsProgression 0 10 9223372036854775807 [0] :=
    (isProgression_cons (by decide)).mpr (isProgression_nil (by decide))
  subst listed ten_
  rw [nothing.1] at wideSupplied
  exact ⟨⟨intact, zero, one, tens, widest⟩, ⟨ref, made, called, supplied, counted⟩,
    wideRef, wideMade, wideCount, wideCalled, wideSupplied, wideCounted, nothing.2, reached⟩

end Exec

end Offside
