/-
This file shows that assigning to a slice of a list and deleting one touch exactly what the
slice selects. A step other than one overwrites the selected positions, as many as there are
values, or refuses the values and changes nothing. A step of one puts the values in the
place of an interval, whatever their number, also in the place of an empty one. Deleting
keeps the elements at all other positions.

A list changes in its buffer or moves to a new one. Either way only payloads and buffers
differ afterwards, on which no method depends that an operator finds. So the same slice can
be read again, and gives what was stored.
-/

import Offside.Proofs.Arithmetic
import Offside.Proofs.Items.Positions

namespace Offside

open Exec Library Number

namespace World

/-! ### Lists as objects -/

/-- The special methods of lists for what is in brackets behind them. -/
def itemMethods : List (String × Method) :=
  [("__getitem__", .seqGetItem "list"), ("__setitem__", .listSetItem),
    ("__delitem__", .listDelItem)]

/-- The list has these elements, and keeps them in this buffer. -/
structure Holds (world : World) (ref : Ref) (id : BufferId) (elements : Array Ref) : Prop where
  payload : world.payload ref = .list id
  bound : id.index < world.buffers.size
  cells : (world.buffer id).cells = elements

/-- The object is a list of these elements, and has the special methods that lists were made with.
-/
structure IsList (world : World) (ref : Ref) (elements : Array Ref) : Prop where
  present : ref ≠ vacantRef
  held : ∃ id, world.Holds ref id elements
  answers : ∀ name method, (name, method) ∈ itemMethods → world.Answers ref name method

/-- The object is a slice with these bounds. -/
structure IsSlice (world : World) (ref : Ref) (bounds : Bounds) : Prop where
  present : ref ≠ vacantRef
  payload : world.payload ref = .slice bounds.start bounds.stop bounds.step

theorem Holds.elements? {world : World} {ref : Ref} {id : BufferId} {elements : Array Ref}
    (holds : world.Holds ref id elements) : world.elements? ref = some elements := by
  rw [World.elements?, holds.payload]
  exact congrArg some holds.cells

theorem Holds.inside {world : World} {ref : Ref} {id : BufferId} {elements : Array Ref}
    (holds : world.Holds ref id elements) : ref.index < world.objects.size :=
  bound_of_object fun absent => by
    have payload := holds.payload
    rw [World.payload, absent] at payload
    cases payload

theorem object_append (world : World) (new : Array Object) {place : Nat} {added : Object}
    (found : new[place]? = some added) :
    object { world with objects := world.objects ++ new } ⟨world.objects.size + place⟩ = added := by
  simp [object, Array.getElem?_append_right, found]

/-- A list that a program makes is one. -/
theorem Intact.isList {world : World} (intact : world.Intact) {ref : Ref} {id : BufferId}
    {elements : Array Ref} (plain : world.Plain ref .list (.list id))
    (bound : id.index < world.buffers.size) (cells : (world.buffer id).cells = elements) :
    world.IsList ref elements where
  present := intact.present_of_plain plain (by simp)
  held := ⟨id, plain.payload, bound, cells⟩
  answers name method listed := by
    simp only [itemMethods, List.mem_cons, List.not_mem_nil, or_false, Prod.mk.injEq] at listed
    obtain ⟨rfl, rfl⟩ | ⟨rfl, rfl⟩ | ⟨rfl, rfl⟩ := listed <;>
      exact intact.answers plain (by decide) (by decide) (by decide)

/-! ### Worlds that only differ in payloads -/

/-- Every object has its class, its attributes and its code still. -/
structure Alike (before after : World) : Prop where
  size : after.objects.size = before.objects.size
  spaces : after.spaces = before.spaces
  object : ∀ ref, ∃ payload, after.object ref = { before.object ref with payload }

namespace Alike

variable {before after : World} (alike : before.Alike after)

include alike

theorem class_ (ref : Ref) : (after.object ref).class_ = (before.object ref).class_ := by
  obtain ⟨payload, same⟩ := alike.object ref
  rw [same]

theorem function (ref : Ref) : (after.object ref).function = (before.object ref).function := by
  obtain ⟨payload, same⟩ := alike.object ref
  rw [same]

theorem ownAttribute? (ref : Ref) (name : String) :
    after.ownAttribute? ref name = before.ownAttribute? ref name := by
  obtain ⟨payload, same⟩ := alike.object ref
  simp only [World.ownAttribute?, attributes, namespaceAt, same, alike.spaces]

theorem isClass (ref : Ref) : after.isClass ref = before.isClass ref := by
  rw [World.isClass, World.isClass, alike.class_]

theorem chainFrom (fuel : Nat) (ref : Ref) :
    after.chainFrom fuel ref = before.chainFrom fuel ref := by
  induction fuel generalizing ref with
  | zero => rfl
  | succ fuel inductionHypothesis =>
    simp only [World.chainFrom, base?, alike.ownAttribute?, alike.isClass, inductionHypothesis]

theorem lookupOperator (ref : Ref) (name : String) :
    after.lookupOperator ref name = before.lookupOperator ref name := by
  have first (classes : List Ref) : after.firstIn classes name = before.firstIn classes name := by
    simp only [firstIn, alike.ownAttribute?]
  have chain (ref : Ref) : after.chain ref = before.chain ref := by
    rw [World.chain, World.chain, alike.size, alike.chainFrom]
  have bound (value : Ref) : after.bindTo value ref = before.bindTo value ref := by
    rw [bindTo, bindTo, alike.isClass, alike.function]
  simp only [World.lookupOperator, lookup, lookupInClass, alike.isClass, alike.ownAttribute?,
    alike.class_, first, chain, bound]

/-- An operator finds what it found before. -/
theorem answers {ref : Ref} {name : String} {method : Method}
    (answers : before.Answers ref name method) : after.Answers ref name method := by
  obtain ⟨function, builtin, known, found, runs⟩ := answers
  exact ⟨function, builtin, known, by rw [alike.lookupOperator, found],
    by rw [alike.class_, runs.class_], by rw [alike.function, runs.code]⟩

end Alike

/-- The list gets these elements. The other objects and their buffers stay as they were. -/
structure Becomes (before : World) (ref : Ref) (elements : Array Ref) (after : World) :
    Prop where
  held : ∃ id, after.Holds ref id elements
  alike : before.Alike after
  payload : ∀ other, other ≠ ref → after.payload other = before.payload other
  buffer : ∀ id : BufferId, id.index < before.buffers.size → before.payload ref ≠ .list id →
    after.buffer id = before.buffer id

section Changing

variable {world after : World} {ref : Ref} {id : BufferId} {elements others : Array Ref}

theorem IsList.become (list : world.IsList ref elements)
    (becomes : world.Becomes ref others after) : after.IsList ref others where
  present := list.present
  held := becomes.held
  answers name method listed := becomes.alike.answers (list.answers name method listed)

/-- A list is no bound of a slice, so whoever resolves a slice sees no difference. -/
theorem Holds.boundValue?_become (holds : world.Holds ref id elements)
    (becomes : world.Becomes ref others after) (bound : Ref) :
    boundValue? (after.payload bound) = boundValue? (world.payload bound) := by
  obtain ⟨later, holdsStill⟩ := becomes.held
  by_cases same : bound = ref
  · rw [same, holds.payload, holdsStill.payload]
    rfl
  · rw [becomes.payload bound same]

theorem IsSlice.become {index : Ref} {bounds : Bounds} (slice : world.IsSlice index bounds)
    (holds : world.Holds ref id elements) (becomes : world.Becomes ref others after) :
    after.IsSlice index bounds where
  present := slice.present
  payload := by
    have different : index ≠ ref := fun same => by
      have payload := slice.payload
      rw [same, holds.payload] at payload
      cases payload
    rw [becomes.payload index different, slice.payload]

/-- A list may change in its buffer. -/
theorem Holds.become_modify (holds : world.Holds ref id elements)
    (step : Array Ref → Array Ref) : world.Becomes ref (step elements)
      { world with buffers := world.buffers.modify id.index (·.map step) } where
  held := by
    refine ⟨id, holds.payload, by simpa using holds.bound, ?_⟩
    have here := holds.cells
    simp only [buffer, Array.getD_eq_getD_getElem?, Array.getElem?_eq_getElem holds.bound,
      Option.getD_some] at here
    simp [buffer, holds.bound, Array.getElem_modify, here]
  alike := ⟨rfl, rfl, fun ref => ⟨(world.object ref).payload, rfl⟩⟩
  payload _ _ := rfl
  buffer other bound different := by
    have apart : id.index ≠ other.index := fun same => different <| by
      cases id
      cases other
      rw [holds.payload]
      exact congrArg (Payload.list ⟨·⟩) same
    simp [buffer, Array.getElem?_modify, apart]

theorem object_setPayload (bound : ref.index < world.objects.size) (payload : Payload)
    (other : Ref) :
    object { world with
        objects := world.objects.modify ref.index fun object => { object with payload } } other =
      if other = ref then { world.object ref with payload } else world.object other := by
  split
  next same =>
    rw [same]
    simp [object, bound, Array.getElem_modify]
  next different =>
    simp [object, Array.getElem?_modify, index_ne_of_ne different]

/-- Or it may move to a new one. -/
theorem Holds.become_move (holds : world.Holds ref id elements) (new : Buffer) :
    ∃ after, moveList ref new world = .ok noneRef after ∧ world.Becomes ref new.cells after := by
  let roomy : World := { world with buffers := world.buffers.push new }
  let moved : Payload := .list ⟨world.buffers.size⟩
  let after : World := { roomy with
    objects := roomy.objects.modify ref.index fun object => { object with payload := moved } }
  have bound : ref.index < roomy.objects.size := holds.inside
  have object (other : Ref) : after.object other =
      if other = ref then { world.object ref with payload := moved } else world.object other :=
    object_setPayload bound moved other
  refine ⟨after, rfl, ⟨⟨world.buffers.size⟩, ?_, ?_, ?_⟩, ⟨?_, rfl, fun other => ?_⟩,
    fun other different => ?_, fun other inside _ => ?_⟩
  · rw [World.payload, object, if_pos rfl]
  · simp [after, roomy]
  · simp [after, roomy, buffer]
  · simp [after, roomy]
  · rw [object]
    split
    next same => exact ⟨moved, by rw [same]⟩
    next => exact ⟨_, rfl⟩
  · rw [World.payload, World.payload, object, if_neg different]
  · simp [after, roomy, buffer, Array.getElem?_push, Nat.ne_of_lt inside]

end Changing

end World

/-! ### Methods of lists -/

namespace Buffer

theorem modify_self (buffers : Array Buffer) (index : Nat) :
    buffers.modify index (·.map fun cells => cells) = buffers := by
  have unchanged (buffer : Buffer) : buffer.map (fun cells => cells) = buffer := by
    obtain ⟨cells, capacity, fits⟩ := buffer
    simp [map, holding, fits]
  refine Array.ext (Array.size_modify ..) fun place _ _ => ?_
  simp [Array.getElem_modify, unchanged]

/-- Two changes in a row are one, if the first one keeps the size. -/
theorem modify_modify (buffers : Array Buffer) (index : Nat) {first second : Array Ref → Array Ref}
    (same : ∀ cells, (first cells).size = cells.size) :
    (buffers.modify index (·.map first)).modify index (·.map second) =
      buffers.modify index (·.map fun cells => second (first cells)) := by
  have both (buffer : Buffer) : (buffer.map first).map second =
      buffer.map fun cells => second (first cells) := by
    obtain ⟨cells, capacity, fits⟩ := buffer
    simp [map, holding, same, fits]
  refine Array.ext (by simp) fun place _ _ => ?_
  simp only [Array.getElem_modify]
  split
  · rw [both]
  · rfl

end Buffer

namespace Exec

section Methods

variable {world : World} {ref : Ref} {id : BufferId} {elements values : Array Ref}

/-- Storing values one by one is one change of the buffer. -/
theorem storeEach_eq (id : BufferId) {size : Nat} (fits : size < 2 ^ 63)
    {positions : List Int64} {values : List Ref}
    (inside : ∀ position ∈ positions, 0 ≤ position.toInt ∧ position.toInt < size)
    (enough : values.length = positions.length) (world : World) :
    storeEach id size positions values world = .ok noneRef { world with
      buffers := world.buffers.modify id.index (·.map (overwritten positions values)) } := by
  induction positions generalizing values world with
  | nil =>
    have unchanged : overwritten [] values = fun elements => elements := by
      funext elements
      rw [overwritten]
      exact nofun
    rw [unchanged, Buffer.modify_self, storeEach]
    · rfl
    · exact nofun
  | cons position positions inductionHypothesis =>
    obtain ⟨value, values, rfl⟩ := List.exists_cons_of_length_eq_add_one enough
    obtain ⟨⟨natural, bounded⟩, inside⟩ := List.forall_mem_cons.mp inside
    have within : ¬ (position < 0 || Int64.ofNat size ≤ position) = true := by
      simp only [Bool.or_eq_true, decide_eq_true_eq, Int64.lt_iff_toInt_lt, Int64.le_iff_toInt_le,
        Int64.toInt_zero, toInt_size fits]
      omega
    rw [storeEach, if_neg within]
    refine (inductionHypothesis inside (Nat.succ.inj enough) _).trans ?_
    dsimp only
    rw [Buffer.modify_modify _ _ fun cells => Array.size_setIfInBounds]
    rfl

theorem listBuffer_eq (holds : world.Holds ref id elements) :
    listBuffer ref world = .ok id world := by
  rw [listBuffer, read_bind, holds.payload]
  rfl

theorem listElements_eq (holds : world.Holds ref id elements) :
    listElements ref world = .ok elements world := by
  rw [listElements, bind_of_ok (listBuffer_eq holds), ← holds.cells]
  rfl

/-- Replacing an interval of a list. -/
theorem splice_become (holds : world.Holds ref id elements) (start stop : Nat)
    (values : Array Ref) : ∃ after, splice ref start stop values world = .ok noneRef after ∧
      world.Becomes ref (spliced start stop values elements) after := by
  rw [splice, bind_of_ok (listBuffer_eq holds), read_bind]
  dsimp only
  split
  · rw [modifyList, bind_of_ok (listBuffer_eq holds)]
    exact ⟨_, rfl, holds.become_modify _⟩
  · rw [read_bind]
    obtain ⟨after, moved, becomes⟩ := holds.become_move
      ((world.buffer id).map (spliced start stop values))
    rw [Buffer.cells_map, holds.cells] at becomes
    exact ⟨after, moved, becomes⟩

section Storing

variable {bounds : Bounds} {selection : Selection}

/-- A step other than one overwrites what is selected, if there are as many values. -/
theorem storeSlice_overwrites (holds : world.Holds ref id elements) (fits : elements.size < 2 ^ 63)
    (inside : selection.Inside elements.size) (other : selection.step ≠ 1)
    (enough : values.size = selection.positions.length) :
    ∃ after, storeSlice ref elements.size values bounds selection world = .ok noneRef after ∧
      world.Becomes ref (overwritten selection.positions values.toList elements) after := by
  rw [storeSlice, if_neg (by simpa using other), if_neg (by simpa using enough),
    bind_of_ok (listBuffer_eq holds)]
  exact ⟨_, storeEach_eq id fits inside enough world, holds.become_modify _⟩

/-- Otherwise the values are refused. -/
theorem storeSlice_refused (other : selection.step ≠ 1)
    (mismatch : values.size ≠ selection.positions.length) :
    storeSlice ref elements.size values bounds selection world =
      complain (.extendedSliceSize values.size selection.positions.length) world := by
  rw [storeSlice, if_neg (by simpa using other), if_pos (by simpa using mismatch)]

/-- A step of one replaces an interval. -/
theorem storeSlice_replaces (holds : world.Holds ref id elements)
    (selected : select bounds elements.size world = .ok selection world)
    (single : selection.step = 1) {start : Nat} (begins : selection.start.toInt = start) :
    ∃ after, storeSlice ref elements.size values bounds selection world = .ok noneRef after ∧
      world.Becomes ref (elements.extract 0 start ++ values ++
        elements.extract (start + selection.positions.length) elements.size) after := by
  have same : selection.start.toNatClampNeg = start := by
    rw [Int64.toNatClampNeg, begins, Int.toNat_natCast]
  rw [storeSlice, if_pos (by simpa using single),
    bind_of_ok (boundPosition_of_select selected single), ← spliced_eq, same]
  exact splice_become holds _ _ values

end Storing

end Methods

/-! ### Operators on lists -/

section Operators

variable (fuel : Nat) {world middle after : World} {ref index value : Ref} {bounds : Bounds}
  {elements values : Array Ref} {selection : Selection}

theorem boundsOf?_eq (slice : world.IsSlice index bounds) :
    boundsOf? index world = .ok (some bounds) world := by
  rw [boundsOf?, Exec.read, slice.payload]

/-- Assigning to a slice collects the values first and then stores them. -/
theorem setItem_eq {old : Array Ref} (list : world.IsList ref old)
    (slice : world.IsSlice index bounds) (present : value ≠ vacantRef)
    (collected : collect (.ofFuel fuel) value world = .ok values middle)
    (listStill : middle.IsList ref elements)
    (selected : select bounds elements.size middle = .ok selection middle) :
    setItem (.ofFuel (fuel + 1)) ref index value world =
      (storeSlice ref elements.size values bounds selection >>= fun _ => pure ()) middle := by
  obtain ⟨id, holds⟩ := list.held
  obtain ⟨later, holdsStill⟩ := listStill.held
  have stored : listSetItem (.ofFuel fuel) ref index value world =
      storeSlice ref elements.size values bounds selection middle := by
    rw [listSetItem, bind_of_ok (listElements_eq holds), bind_of_ok (boundsOf?_eq slice)]
    dsimp only
    rw [bind_of_ok collected, bind_of_ok (listElements_eq holdsStill), bind_of_ok selected]
  rw [setItem, invoke?_bind fuel (list.answers "__setitem__" .listSetItem (by decide))
    (by simp [list.present, slice.present, present]) fun _ => rfl]
  exact bind_same _ stored

/-- Reading a slice makes a new list of what is selected. -/
theorem getItem_slice (list : world.IsList ref elements) (slice : world.IsSlice index bounds)
    (selected : select bounds elements.size world = .ok selection world)
    (there : selection.positions.map (elementAt? elements) = values.toList.map some) :
    ∃ copy after, getItem (.ofFuel (fuel + 1)) ref index world = .ok copy after ∧
      after.elements? copy = some values := by
  obtain ⟨id, holds⟩ := list.held
  let fresh : BufferId := ⟨world.buffers.size⟩
  let roomy : World := { world with buffers := world.buffers.push (.exact values) }
  let after : World := { roomy with
    objects := roomy.objects.push ⟨BuiltinClass.list.ref, none, .list fresh, none⟩ }
  have read : sequenceGetItem "list" ref index world = .ok ⟨world.objects.size⟩ after := by
    rw [sequenceGetItem, elementsOf, read_bind, World.elements, holds.elements?, Option.getD_some,
      bind_of_ok (boundsOf?_eq slice)]
    dsimp only
    rw [bind_of_ok selected, bind_of_ok (pick_eq there world), newSequence, read_bind,
      holds.payload]
    rfl
  refine ⟨⟨world.objects.size⟩, after, ?_, ?_⟩
  · rw [getItem, invoke?_bind fuel (list.answers "__getitem__" (.seqGetItem "list") (by decide))
      (by simp [list.present, slice.present]) fun _ => rfl]
    exact bind_of_ok read
  · have made := (World.plain_push roomy .list (.list fresh)).payload
    rw [World.elements?, made]
    simp [after, roomy, fresh, World.buffer, Buffer.exact]

/-- Deleting a slice keeps the other elements. -/
theorem deleteItem_slice (list : world.IsList ref elements) (slice : world.IsSlice index bounds)
    (selected : select bounds elements.size world = .ok selection world) :
    ∃ after, deleteItem (.ofFuel (fuel + 1)) ref index world = .ok () after ∧
      world.Becomes ref (withoutPositions selection.positions elements) after := by
  obtain ⟨id, holds⟩ := list.held
  obtain ⟨after, moved, becomes⟩ :=
    holds.become_move (.oneByOne (withoutPositions selection.positions elements))
  have deleted : listDelItem ref index world = .ok noneRef after := by
    rw [listDelItem, bind_of_ok (listElements_eq holds), bind_of_ok (boundsOf?_eq slice)]
    dsimp only
    rw [bind_of_ok selected]
    exact moved
  refine ⟨after, ?_, becomes⟩
  rw [deleteItem, invoke?_bind fuel (list.answers "__delitem__" .listDelItem (by decide))
    (by simp [list.present, slice.present]) fun _ => rfl]
  exact bind_of_ok deleted

end Operators

/-! ### The main result -/

/-- Assigning to a slice of a list and deleting one touch exactly what the slice selects, whenever
all of that is inside of the list. The values are collected first, which may run code of the
program. With a step other than one, as many values as there are positions are stored: the same
slice then gives the values, and the elements at other positions are as before. Another number of
values is refused, and the list keeps its elements. With a step of one, the values come in the place
of what is selected, from the first bound on. Deleting leaves the elements at the other positions,
in their order. -/
theorem slice_touches_selected (fuel : Nat) {world middle : World} {ref index value : Ref}
    {bounds : Bounds} {old elements values : Array Ref} {selection : Selection}
    (list : world.IsList ref old) (slice : world.IsSlice index bounds)
    (present : value ≠ vacantRef)
    (collected : collect (.ofFuel fuel) value world = .ok values middle)
    (listStill : middle.IsList ref elements) (sliceStill : middle.IsSlice index bounds)
    (fits : elements.size < 2 ^ 63)
    (selected : select bounds elements.size middle = .ok selection middle)
    (inside : selection.Inside elements.size) :
    (selection.step ≠ 1 → values.size = selection.positions.length →
      ∃ after changed copy later,
        setItem (.ofFuel (fuel + 1)) ref index value world = .ok () after ∧
        middle.Becomes ref changed after ∧ changed.size = elements.size ∧
        (∀ place : Nat, (∀ position ∈ selection.positions, position.toInt ≠ place) →
          changed[place]? = elements[place]?) ∧
        getItem (.ofFuel (fuel + 1)) ref index after = .ok copy later ∧
        later.elements? copy = some values) ∧
    (selection.step ≠ 1 → values.size ≠ selection.positions.length →
      ∃ id after, setItem (.ofFuel (fuel + 1)) ref index value world = .error (.raised id) after ∧
        after.IsException (after.raisedAt id).value .valueError
          ("attempt to assign sequence of size " ++ toString values.size ++
            " to extended slice of size " ++ toString selection.positions.length) ∧
        after.elements? ref = some elements) ∧
    (selection.step = 1 →
      ∃ start, ∃ first : Nat, ∃ after, boundValue? (middle.payload bounds.start) = some start ∧
        (first : Int) = firstPosition elements.size 1 start ∧
        setItem (.ofFuel (fuel + 1)) ref index value world = .ok () after ∧
        middle.Becomes ref (elements.extract 0 first ++ values ++
          elements.extract (first + selection.positions.length) elements.size) after) ∧
    ∃ after rest, deleteItem (.ofFuel (fuel + 1)) ref index middle = .ok () after ∧
      middle.Becomes ref rest after ∧ Remains elements selection.positions rest := by
  obtain ⟨id, holds⟩ := listStill.held
  have assigned := setItem_eq fuel list slice present collected listStill selected
  refine ⟨fun other enough => ?_, fun other mismatch => ?_, fun single => ?_, ?_⟩
  · obtain ⟨after, stored, becomes⟩ := storeSlice_overwrites holds fits inside other enough
    have distinct := nodup_of_inside fits selected inside
    have size := size_overwritten selection.positions values.toList elements
    have selectedAfter := select_congr selected (holds.boundValue?_become becomes)
    rw [← size] at selectedAfter
    obtain ⟨copy, later, read, listed⟩ := getItem_slice fuel (listStill.become becomes)
      (sliceStill.become holds becomes) selectedAfter
      (map_elementAt?_overwritten distinct inside enough)
    refine ⟨after, _, copy, later, assigned.trans (bind_of_ok stored), becomes, size,
      fun place spared => getElem?_overwritten fun position listed same => ?_, read, listed⟩
    have natural := (inside position listed).1
    rw [Int64.toNatClampNeg] at same
    exact spared position listed (by omega)
  · obtain ⟨raised, after, refused, exception, extends_, buffers⟩ := complain_extends (α := Ref)
      (show (Complaint.extendedSliceSize values.size selection.positions.length).message = some _
        from rfl) middle
    refine ⟨raised, after, ?_, exception, ?_⟩
    · rw [assigned]
      exact bind_of_error ((storeSlice_refused other mismatch).trans refused)
    · have kept : after.payload ref = middle.payload ref := by
        rw [World.payload, World.payload, extends_.object ref holds.inside]
      rw [World.elements?, kept, holds.payload]
      simp only [World.buffer, buffers]
      exact congrArg some holds.cells
  · obtain ⟨start, first, startGiven, meant, begins, -⟩ :=
      interval_of_inside fits selected inside single
    obtain ⟨after, stored, becomes⟩ := storeSlice_replaces holds selected single begins
    exact ⟨start, first, after, startGiven, meant, assigned.trans (bind_of_ok stored), becomes⟩
  · obtain ⟨after, deleted, becomes⟩ := deleteItem_slice fuel listStill sliceStill selected
    exact ⟨after, _, deleted, becomes, remains_withoutPositions fits _⟩

open World in
/-- Every second element of five, from the last one backwards; and a slice that stops before it
starts. -/
theorem backward_and_crossed_slices :
    let host : Host := { files := ⟨"/", []⟩, input := "", output := "" }
    let start := beginning host []
    let elements := #[noneRef, noneRef, noneRef, trueRef, noneRef]
    let given := #[trueRef, falseRef, trueRef]
    let early : World := { start with buffers := start.buffers.push (.exact elements) }
    let new : Array Object := #[
      ⟨BuiltinClass.list.ref, none, .list ⟨start.buffers.size⟩, none⟩,
      ⟨BuiltinClass.tuple.ref, none, .tuple given, none⟩,
      ⟨BuiltinClass.int.ref, none, .int (-2), none⟩,
      ⟨BuiltinClass.slice.ref, none, .slice noneRef noneRef ⟨start.objects.size + 2⟩, none⟩,
      ⟨BuiltinClass.slice.ref, none, .slice trueRef falseRef noneRef, none⟩]
    let world : World := { early with objects := early.objects ++ new }
    let list : Ref := ⟨start.objects.size⟩
    let values : Ref := ⟨start.objects.size + 1⟩
    let backward : Ref := ⟨start.objects.size + 3⟩
    let crossed : Ref := ⟨start.objects.size + 4⟩
    (world.IsList list elements ∧
      world.IsSlice backward ⟨noneRef, noneRef, ⟨start.objects.size + 2⟩⟩ ∧
      world.IsSlice crossed ⟨trueRef, falseRef, noneRef⟩ ∧
      collect (.ofFuel 0) values world = .ok given world) ∧
    (∃ after changed copy later, setItem (.ofFuel 1) list backward values world = .ok () after ∧
      world.Becomes list changed after ∧ changed.size = 5 ∧ changed[1]? = some noneRef ∧
      changed[3]? = some trueRef ∧ getItem (.ofFuel 1) list backward after = .ok copy later ∧
      later.elements? copy = some given) ∧
    (∃ after rest, deleteItem (.ofFuel 1) list backward world = .ok () after ∧
      world.Becomes list rest after ∧ Remains elements [4, 2, 0] rest) ∧
    ∃ after, setItem (.ofFuel 1) list crossed values world = .ok () after ∧
      world.Becomes list
        #[noneRef, trueRef, falseRef, trueRef, noneRef, noneRef, trueRef, noneRef] after := by
  intro host start elements given early new world list values backward crossed
  have begun : start.Intact := beginning_intact host []
  have beganWith : start.Keeps [.none, .truth true, .truth false] := beginning_keeps host [] _
  -- What the first world holds otherwise must not be computed.
  clear_value start
  have roomy : start.Grows early := .pushBuffer start _
  have filled : early.Grows world := .append early _
  have intact : world.Intact := begun.grow (roomy.trans filled) fun _ impossible => impossible.elim
  have singles : world.Keeps [.none, .truth true, .truth false] :=
    beganWith.grow (roomy.trans filled) fun _ => id
  have made (place : Nat) {object : Object} (found : new[place]? = some object) :
      world.object ⟨start.objects.size + place⟩ = object :=
    object_append early new found
  have listMade : world.Plain list .list (.list ⟨start.buffers.size⟩) :=
    .of_object (made 0 rfl)
  have valuesMade : world.Plain values .tuple (.tuple given) := .of_object (made 1 rfl)
  have backwardMade : world.Plain backward .slice
      (.slice noneRef noneRef ⟨start.objects.size + 2⟩) := .of_object (made 3 rfl)
  have crossedMade : world.Plain crossed .slice (.slice trueRef falseRef noneRef) :=
    .of_object (made 4 rfl)
  have isList : world.IsList list elements := intact.isList listMade
    (by simp [world, early]) (by simp [world, early, World.buffer, Buffer.exact])
  have isBackward : world.IsSlice backward ⟨noneRef, noneRef, ⟨start.objects.size + 2⟩⟩ :=
    ⟨intact.present_of_plain backwardMade (by simp), backwardMade.payload⟩
  have isCrossed : world.IsSlice crossed ⟨trueRef, falseRef, noneRef⟩ :=
    ⟨intact.present_of_plain crossedMade (by simp), crossedMade.payload⟩
  have collected : collect (.ofFuel 0) values world = .ok given world := by
    rw [collect, read_bind, World.elements?, valuesMade.payload]
    rfl
  have present : values ≠ vacantRef := intact.present_of_plain valuesMade (by simp)
  have without : boundValue? (world.payload noneRef) = some none :=
    congrArg boundValue? (singles .none (by simp)).payload
  have one : boundValue? (world.payload trueRef) = some (some 1) :=
    congrArg boundValue? (singles (.truth true) (by simp)).payload
  have zero : boundValue? (world.payload falseRef) = some (some 0) :=
    congrArg boundValue? (singles (.truth false) (by simp)).payload
  have two : boundValue? (world.payload ⟨start.objects.size + 2⟩) = some (some (-2)) :=
    congrArg (boundValue? ·.payload) (made 2 rfl)
  have everySecond : select ⟨noneRef, noneRef, ⟨start.objects.size + 2⟩⟩ 5 world =
      .ok ⟨4, -2, [4, 2, 0]⟩ world := by
    rw [select, bind_of_ok (stepOf_eq two (by decide)), bind_of_ok (boundPosition_eq without _ _ _),
      bind_of_ok (boundPosition_eq without _ _ _)]
    rfl
  have nothing : select ⟨trueRef, falseRef, noneRef⟩ 5 world = .ok ⟨1, 1, []⟩ world := by
    rw [select, bind_of_ok (stepOf_eq without (by decide)), bind_of_ok (boundPosition_eq one _ _ _),
      bind_of_ok (boundPosition_eq zero _ _ _)]
    rfl
  obtain ⟨stored, -, -, deleted⟩ := slice_touches_selected 0 isList isBackward present collected
    isList isBackward (show 5 < 2 ^ 63 by decide) everySecond (by simp [Selection.Inside, elements])
  obtain ⟨-, -, replaced, -⟩ := slice_touches_selected 0 isList isCrossed present collected
    isList isCrossed (show 5 < 2 ^ 63 by decide) nothing (by simp [Selection.Inside])
  obtain ⟨after, changed, copy, later, done, becomes, size, others, read, listed⟩ :=
    stored (by decide) rfl
  obtain ⟨_, first, afterToo, startGiven, meant, doneToo, becomesToo⟩ := replaced rfl
  cases one.symm.trans startGiven
  obtain rfl : first = 1 := by
    have clamped : firstPosition 5 1 (some 1) = 1 := by decide
    exact Int.natCast_inj.mp (meant.trans clamped)
  exact ⟨⟨isList, isBackward, isCrossed, collected⟩,
    ⟨after, changed, copy, later, done, becomes, size, others 1 (by simp), others 3 (by simp),
      read, listed⟩, deleted, afterToo, doneToo, becomesToo⟩

end Exec

end Offside
