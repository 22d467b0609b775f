/-
This file shows that the two ways of writing a value agree. Listings and messages write it
without running any code, by going through the heap. A program that asks for the text of a
value calls a special method, which asks the parts for their texts in turn. For values of the
built-in classes both give the same text, except that a text by itself is shown as it is and
written as a literal.

Going through the heap is bounded by the number of objects. No value is nested deeper than
that: on the way into a value each object is of a smaller height than the one before it, so
none is met twice.
-/

import Mathlib.Data.Fintype.Card
import Offside.Proofs.Literal.Beginning
import Offside.Proofs.Literal.Writing
import Offside.Session

namespace Offside

namespace World

/-! ### Values on the heap -/

/-- What a value without parts holds, with its class. -/
inductive IsSimple : BuiltinClass → Payload → Prop
  | none : IsSimple .noneType .none
  | bool (value) : IsSimple .bool (.bool value)
  | int (value) : IsSimple .int (.int value)
  | float (value) : IsSimple .float (.float value)
  | str (value) : IsSimple .str (.str value)

/-- The object is a value without parts, or a list or tuple of values. It has the class that it was
made with and no attributes, and it is nested no deeper than this. -/
inductive Displayable (world : World) : Nat → Ref → Prop
  | simple {depth ref builtin payload} (kind : IsSimple builtin payload)
    (plain : world.Plain ref builtin payload) : Displayable world depth ref
  | list {depth ref id} (plain : world.Plain ref .list (.list id))
    (bound : id.index < world.buffers.size)
    (parts : ∀ part ∈ (world.buffer id).cells.toList, Displayable world depth part) :
    Displayable world (depth + 1) ref
  | tuple {depth ref cells} (plain : world.Plain ref .tuple (.tuple cells))
    (parts : ∀ part ∈ cells.toList, Displayable world depth part) :
    Displayable world (depth + 1) ref

/-- How a value is written as a part of another one: as it is shown, except that a text is
quoted. -/
def written (world : World) (ref : Ref) : String :=
  match world.payload ref with
  | .str text => Text.quote text
  | _ => world.display ref

theorem IsSimple.ne_empty {builtin : BuiltinClass} {payload : Payload}
    (kind : IsSimple builtin payload) : payload ≠ .empty := by
  cases kind <;> exact nofun

/-! ### The heap is deep enough -/

section Depth

variable {world : World} {depth deeper height lower : Nat} {ref : Ref}

theorem Displayable.mono (value : world.Displayable depth ref) (le : depth ≤ deeper) :
    world.Displayable deeper ref := by
  induction value generalizing deeper with
  | simple kind plain => exact .simple kind plain
  | list plain bound _ inductionHypothesis =>
    obtain ⟨less, rfl⟩ := Nat.exists_eq_add_one.mpr (Nat.zero_lt_of_lt le)
    exact .list plain bound fun part inside =>
      inductionHypothesis part inside (Nat.le_of_succ_le_succ le)
  | tuple plain _ inductionHypothesis =>
    obtain ⟨less, rfl⟩ := Nat.exists_eq_add_one.mpr (Nat.zero_lt_of_lt le)
    exact .tuple plain fun part inside =>
      inductionHypothesis part inside (Nat.le_of_succ_le_succ le)

theorem Displayable.bound (value : world.Displayable depth ref) :
    ref.index < world.objects.size := by
  cases value with
  | simple kind plain => exact plain.bound kind.ne_empty
  | list plain => exact plain.bound nofun
  | tuple plain => exact plain.bound nofun

/-- How deep a value is nested. -/
def HasHeight (world : World) (height : Nat) (ref : Ref) : Prop :=
  world.Displayable height ref ∧ ∀ lower < height, ¬ world.Displayable lower ref

theorem HasHeight.unique (first : world.HasHeight height ref) (again : world.HasHeight lower ref) :
    height = lower := by
  obtain less | same | more := Nat.lt_trichotomy height lower
  · exact absurd first.1 (again.2 height less)
  · exact same
  · exact absurd again.1 (first.2 lower more)

theorem Displayable.exists_height (value : world.Displayable depth ref) :
    ∃ height ≤ depth, world.HasHeight height ref := by
  induction depth using Nat.strongRecOn with
  | ind depth inductionHypothesis =>
    by_cases least : ∃ lower < depth, world.Displayable lower ref
    · obtain ⟨lower, less, shallow⟩ := least
      obtain ⟨height, le, found⟩ := inductionHypothesis lower less shallow
      exact ⟨height, le.trans less.le, found⟩
    · exact ⟨depth, le_rfl, value, fun lower less shallow => least ⟨lower, less, shallow⟩⟩

/-- Unless all parts are flatter, a value with parts is higher than some part by one. -/
theorem HasHeight.exists_part (high : world.HasHeight (height + 2) ref) :
    ∃ part, world.HasHeight (height + 1) part := by
  by_contra none
  -- Without such a part, every part is flatter, and then the value is.
  have flatter {part : Ref} (value : world.Displayable (height + 1) part) :
      world.Displayable height part := by
    obtain ⟨lower, le, found⟩ := value.exists_height
    obtain same | less := Nat.eq_or_lt_of_le le
    · exact absurd ⟨part, same ▸ found⟩ none
    · exact found.1.mono (Nat.le_of_lt_succ less)
  refine high.2 (height + 1) (Nat.lt_succ_self _) ?_
  obtain ⟨value, -⟩ := high
  cases value with
  | simple kind plain => exact .simple kind plain
  | list plain bound parts => exact .list plain bound fun part inside => flatter (parts part inside)
  | tuple plain parts => exact .tuple plain fun part inside => flatter (parts part inside)

theorem HasHeight.exists_below (high : world.HasHeight (height + 1) ref) (le : lower ≤ height) :
    ∃ part, world.HasHeight (lower + 1) part := by
  induction height generalizing ref with
  | zero => exact ⟨ref, by rwa [Nat.le_zero.mp le]⟩
  | succ height inductionHypothesis =>
    obtain rfl | less := Nat.eq_or_lt_of_le le
    · exact ⟨ref, high⟩
    · obtain ⟨part, found⟩ := high.exists_part
      exact inductionHypothesis found (Nat.le_of_lt_succ less)

/-- Each height up to that of a value is met in an object of its own. -/
theorem HasHeight.le (high : world.HasHeight height ref) : height ≤ world.objects.size := by
  cases height with
  | zero => exact Nat.zero_le _
  | succ height =>
    choose part found using fun place : Fin (height + 1) =>
      high.exists_below (Nat.le_of_lt_succ place.isLt)
    have distinct : Function.Injective fun place =>
        (⟨(part place).index, (found place).1.bound⟩ : Fin world.objects.size) := by
      intro first second same
      have again : part first = part second := by
        cases firstPart : part first
        cases secondPart : part second
        simpa [firstPart, secondPart] using same
      have heights := (found first).unique (again ▸ found second)
      exact Fin.ext (Nat.succ.inj heights)
    simpa using Fintype.card_le_of_injective _ distinct

end Depth

/-! ### Showing -/

section Showing

variable {world : World} {depth fuel enough : Nat} {ref : Ref}

/-- How deep a value may be nested does not matter, as long as it is not nested deeper. -/
theorem Displayable.displayWithin_eq (value : world.Displayable depth ref) (less : depth < fuel)
    (lessToo : depth < enough) : world.displayWithin fuel ref = world.displayWithin enough ref := by
  induction value generalizing fuel enough with
  | simple kind plain =>
    obtain ⟨fuel, rfl⟩ := Nat.exists_eq_add_one.mpr (Nat.zero_lt_of_lt less)
    obtain ⟨enough, rfl⟩ := Nat.exists_eq_add_one.mpr (Nat.zero_lt_of_lt lessToo)
    rw [displayWithin, displayWithin, plain.payload]
    cases kind <;> rfl
  | list plain _ _ inductionHypothesis =>
    obtain ⟨fuel, rfl⟩ := Nat.exists_eq_add_one.mpr (Nat.zero_lt_of_lt less)
    obtain ⟨enough, rfl⟩ := Nat.exists_eq_add_one.mpr (Nat.zero_lt_of_lt lessToo)
    rw [displayWithin, displayWithin, plain.payload]
    refine congrArg listText (List.map_congr_left fun part inside => ?_)
    rw [inductionHypothesis part inside (Nat.lt_of_succ_lt_succ less)
      (Nat.lt_of_succ_lt_succ lessToo)]
  | tuple plain _ inductionHypothesis =>
    obtain ⟨fuel, rfl⟩ := Nat.exists_eq_add_one.mpr (Nat.zero_lt_of_lt less)
    obtain ⟨enough, rfl⟩ := Nat.exists_eq_add_one.mpr (Nat.zero_lt_of_lt lessToo)
    rw [displayWithin, displayWithin, plain.payload]
    refine congrArg tupleText (List.map_congr_left fun part inside => ?_)
    rw [inductionHypothesis part inside (Nat.lt_of_succ_lt_succ less)
      (Nat.lt_of_succ_lt_succ lessToo)]

theorem Displayable.display_eq (value : world.Displayable depth ref) (less : depth < fuel) :
    world.display ref = world.displayWithin fuel ref := by
  obtain ⟨height, le, found⟩ := value.exists_height
  exact found.1.displayWithin_eq (Nat.lt_succ_of_le found.le) (le.trans_lt less)

theorem written_of_ne (other : ∀ text, world.payload ref ≠ .str text) :
    world.written ref = world.display ref := by
  rw [written]
  split
  · next text held => exact absurd held (other text)
  · rfl

theorem written_str {text : String} (held : world.payload ref = .str text) :
    world.written ref = Text.quote text := by
  rw [written, held]

/-- A part that is shown with enough fuel is shown as it is written. -/
theorem part_eq_written (value : world.Displayable depth ref) (less : depth < fuel) :
    (match world.payload ref with
      | .str text => Text.quote text
      | _ => world.displayWithin fuel ref) = world.written ref := by
  rw [← value.display_eq less, written]

/-- The parts of a list are shown as they are written. -/
theorem Displayable.display_list {id : BufferId} (plain : world.Plain ref .list (.list id))
    (bound : id.index < world.buffers.size)
    (parts : ∀ part ∈ (world.buffer id).cells.toList, world.Displayable depth part) :
    world.display ref = listText ((world.buffer id).cells.toList.map world.written) := by
  rw [(Displayable.list plain bound parts).display_eq (Nat.lt_succ_self _), displayWithin,
    plain.payload]
  refine congrArg listText (List.map_congr_left fun part inside => ?_)
  exact part_eq_written (parts part inside) (Nat.lt_succ_self _)

theorem Displayable.display_tuple {cells : Array Ref}
    (plain : world.Plain ref .tuple (.tuple cells))
    (parts : ∀ part ∈ cells.toList, world.Displayable depth part) :
    world.display ref = tupleText (cells.toList.map world.written) := by
  rw [(Displayable.tuple plain parts).display_eq (Nat.lt_succ_self _), displayWithin, plain.payload]
  refine congrArg tupleText (List.map_congr_left fun part inside => ?_)
  exact part_eq_written (parts part inside) (Nat.lt_succ_self _)

end Showing

end World

/-! ### Writing -/

namespace Exec

open Library World

section Writing

variable {start : World} {fuel depth : Nat} {ref : Ref}

/-- The parts of a sequence are written in turn, each in the world that the one before it left. -/
theorem reprSpanOnto_parts {parts : List Ref}
    (writes : ∀ part ∈ parts, ∀ {world : World}, world.Intact → start.Grows world →
      Writes (.ofFuel fuel) world part (start.written part))
    (found : List String) (position : Nat) {world : World} {span : Span} (intact : world.Intact)
    (grows : start.Grows world) (within : world.HasSpan span)
    (left : (world.spanRefs span).drop position = parts) :
    ∃ after, reprSpanOnto (.ofFuel fuel) span found parts.length position world =
      .ok (found.reverse ++ parts.map start.written) after ∧ world.Grows after := by
  induction parts generalizing found position world with
  | nil => exact ⟨world, congrArg (EStateM.Result.ok · world) (List.append_nil _).symm, .refl world⟩
  | cons part rest inductionHypothesis =>
    obtain ⟨first, others⟩ := List.forall_mem_cons.mp writes
    obtain ⟨middle, text, more⟩ := first intact grows
    have next : (middle.spanRefs span).drop (position + 1) = rest := by
      rw [spanRefs_grow more within, ← List.tail_drop, left, List.tail_cons]
    obtain ⟨after, texts, evenMore⟩ := inductionHypothesis others (start.written part :: found)
      (position + 1) (intact.grow more fun _ impossible => impossible.elim) (grows.trans more)
      (within.grow more) next
    refine ⟨after, ?_, more.trans evenMore⟩
    rw [List.length_cons, reprSpanOnto, elementOf, read_bind, spanElement_of_drop left,
      bind_of_ok text, texts, List.map_cons, List.reverse_cons, List.append_assoc]
    rfl

theorem reprSpan_parts (span : Span) {parts : List Ref}
    (writes : ∀ part ∈ parts, ∀ {world : World}, world.Intact → start.Grows world →
      Writes (.ofFuel fuel) world part (start.written part))
    {world : World} (intact : world.Intact) (grows : start.Grows world)
    (within : world.HasSpan span) (all : world.spanRefs span = parts)
    (size : span.size = parts.length) :
    ∃ after, reprSpan (.ofFuel fuel) span world = .ok (parts.map start.written) after ∧
      world.Grows after := by
  rw [reprSpan, size]
  exact reprSpanOnto_parts writes [] 0 intact grows within all

theorem numberRepr_of_float {world : World} {value : Number.Double}
    (held : world.payload ref = .float value) :
    numberRepr ref world = newStr (Number.floatText value.toFloat) world := by
  rw [numberRepr, numericUnary, numericOf?, read_bind, held]
  rfl

/-- A value without parts is written by the method of its class. -/
theorem writes_simple {builtin : BuiltinClass} {payload : Payload} (kind : IsSimple builtin payload)
    {world : World} (plain : world.Plain ref builtin payload) (intact : world.Intact) :
    Writes (.ofFuel (fuel + 1)) world ref (world.written ref) := by
  have nonempty := kind.ne_empty
  rw [written, display, displayWithin, plain.payload]
  cases kind with
  | none =>
    exact writes_of_method intact plain nonempty (by decide) .noneRepr (by decide) (fun _ => rfl)
      (.refl world)
  | bool value =>
    exact writes_of_method intact plain nonempty (by decide) .boolRepr (by decide)
      (fun _ => boolRepr_of_bool plain.payload) (.refl world)
  | int value =>
    exact writes_of_method intact plain nonempty (by decide) .numberRepr (by decide)
      (fun _ => numberRepr_of_int plain.payload) (.refl world)
  | float value =>
    exact writes_of_method intact plain nonempty (by decide) .numberRepr (by decide)
      (fun _ => numberRepr_of_float plain.payload) (.refl world)
  | str value =>
    exact writes_of_method intact plain nonempty (by decide) .strRepr (by decide)
      (fun _ => stringRepr_of_str plain.payload) (.refl world)

/-- New objects do not change how a value without parts is written. -/
theorem written_simple {builtin : BuiltinClass} {payload : Payload}
    (kind : IsSimple builtin payload) {world : World} (plain : world.Plain ref builtin payload)
    {after : World} (plainToo : after.Plain ref builtin payload) :
    after.written ref = world.written ref := by
  simp only [written, display, displayWithin, plain.payload, plainToo.payload]
  cases kind <;> rfl

/-- A value is written as it was at the start, whatever objects are new by then. -/
theorem writes_value (value : start.Displayable depth ref) (less : depth < fuel) {world : World}
    (intact : world.Intact) (grows : start.Grows world) :
    Writes (.ofFuel fuel) world ref (start.written ref) := by
  induction value generalizing fuel world with
  | simple kind plain =>
    obtain ⟨fuel, rfl⟩ := Nat.exists_eq_add_one.mpr (Nat.zero_lt_of_lt less)
    have plainHere := plain.grow kind.ne_empty grows id
    rw [← written_simple kind plain plainHere]
    exact writes_simple kind plainHere intact
  | @list depth ref buffer plain bound parts inductionHypothesis =>
    obtain ⟨fuel, rfl⟩ := Nat.exists_eq_add_one.mpr (Nat.zero_lt_of_lt less)
    have nonempty : Payload.list buffer ≠ .empty := by simp
    have plainHere := plain.grow nonempty grows id
    have same : world.buffer buffer = start.buffer buffer := grows.buffer buffer bound
    have span : world.span? ref = some (.cells buffer (world.buffer buffer).cells.size) := by
      rw [span?, plainHere.payload]
    obtain ⟨middle, texts, more⟩ := reprSpan_parts
      (.cells buffer (world.buffer buffer).cells.size) (fun part inside _ =>
        inductionHypothesis part inside (Nat.lt_of_succ_lt_succ less)) intact grows
      (Nat.lt_of_lt_of_le bound grows.buffers) (by rw [spanRefs, same])
      (by rw [Span.size, same, Array.length_toList])
    rw [written_of_ne (by simp [plain.payload]),
      Displayable.display_list plain bound parts]
    exact writes_of_method intact plainHere nonempty (by decide) .listRepr (by decide)
      (fun _ => listRepr_of_span span texts) more
  | @tuple depth ref cells plain parts inductionHypothesis =>
    obtain ⟨fuel, rfl⟩ := Nat.exists_eq_add_one.mpr (Nat.zero_lt_of_lt less)
    have nonempty : Payload.tuple cells ≠ .empty := by simp
    have plainHere := plain.grow nonempty grows id
    have span : world.span? ref = some (.fixed cells) := by
      rw [span?, plainHere.payload]
    obtain ⟨middle, texts, more⟩ := reprSpan_parts (.fixed cells) (fun part inside _ =>
        inductionHypothesis part inside (Nat.lt_of_succ_lt_succ less)) intact grows
      trivial rfl Array.length_toList.symm
    rw [written_of_ne (by simp [plain.payload]), Displayable.display_tuple plain parts]
    exact writes_of_method intact plainHere nonempty (by decide) .tupleRepr (by decide)
      (fun _ => tupleRepr_of_span span texts) more

end Writing

theorem message_raised (world : World) (id : RaisedId) :
    (Failure.raised id).message world =
      if world.exceptionText (world.raisedAt id).value == "" then
        world.typeName (world.raisedAt id).value
      else world.typeName (world.raisedAt id).value ++ ": " ++
        world.exceptionText (world.raisedAt id).value :=
  rfl

theorem exceptionText_eq {world : World} {exception arguments : Ref} {elements : Array Ref}
    (given : world.ownAttribute? exception "args" = some arguments)
    (held : world.payload arguments = .tuple elements) :
    world.exceptionText exception = commaJoined (elements.toList.map world.display) := by
  rw [exceptionText, given, Option.map_some, held]

/-! ### The main result -/

/-- Asking for the text of a value succeeds, with one unit of fuel for each level of nesting. It
gives what listings and messages show, or the quoted text if the value is one. That a listing of a
table shows each value in this way, and a message the arguments of an exception, is said along with
it. -/
theorem repr_eq_display {world : World} {depth fuel : Nat} {ref : Ref} (intact : world.Intact)
    (value : world.Displayable depth ref) (less : depth < fuel) :
    (∃ text after, repr (.ofFuel fuel) ref world = .ok text after ∧ world.Grows after ∧
      ((∀ content, world.payload ref ≠ .str content) → text = world.display ref) ∧
      ∀ content, world.payload ref = .str content →
        text = Text.quote content ∧ world.display ref = content) ∧
    (∀ space name, (name, ref) ∈ (world.namespaceAt space).entries →
      ⟨name, world.typeName ref, world.display ref⟩ ∈ world.listing space) ∧
    ∀ id arguments elements, world.ownAttribute? (world.raisedAt id).value "args" = some arguments →
      world.payload arguments = .tuple elements →
      (Failure.raised id).message world =
        let shown := commaJoined (elements.toList.map world.display)
        let kind := world.typeName (world.raisedAt id).value
        if shown == "" then kind else kind ++ ": " ++ shown := by
  refine ⟨?_, fun space name listed => ?_, fun id arguments elements given held => ?_⟩
  · obtain ⟨after, text, grows⟩ := writes_value value less intact (.refl world)
    refine ⟨_, after, text, grows, written_of_ne, fun content held => ⟨written_str held, ?_⟩⟩
    rw [display, displayWithin, held]
  · rw [listing]
    exact List.mem_map_of_mem (f := fun entry : String × Ref =>
      (⟨entry.1, world.typeName entry.2, world.display entry.2⟩ : Listed)) listed
  · rw [message_raised, exceptionText_eq given held]

open World in
/-- A number, a list with a text that needs the other quotation mark, and a tuple of one element. -/
theorem nested_tuple_displayed :
    let start := beginning { files := ⟨"/", []⟩, input := "", output := "" } []
    let place (offset : Nat) : Ref := ⟨start.objects.size + offset⟩
    let cells := #[place 1, trueRef]
    let early : World := { start with buffers := start.buffers.push (.exact cells) }
    let new : Array Object := #[
      ⟨BuiltinClass.int.ref, none, .int (-3), none⟩,
      ⟨BuiltinClass.str.ref, none, .str "it's", none⟩,
      ⟨BuiltinClass.list.ref, none, .list ⟨start.buffers.size⟩, none⟩,
      ⟨BuiltinClass.tuple.ref, none, .tuple #[noneRef], none⟩,
      ⟨BuiltinClass.tuple.ref, none, .tuple #[place 0, place 2, place 3], none⟩]
    let world : World := { early with objects := early.objects ++ new }
    (world.Intact ∧ world.Displayable 2 (place 4)) ∧
    (∃ after, repr (.ofFuel 3) (place 4) world =
      .ok "(-3, [\"it's\", True], (None,))" after) ∧
    world.display (place 4) = "(-3, [\"it's\", True], (None,))" := by
  intro start place cells early new world
  have begun : start.Intact := beginning_intact _ []
  have beganWith : start.Keeps [.none, .truth true] := beginning_keeps _ [] _
  -- What the first world holds otherwise must not be computed.
  clear_value start
  have grows : start.Grows world := (World.GrowsBut.pushBuffer start _).trans (.append early _)
  have intact : world.Intact := begun.grow grows fun _ impossible => impossible.elim
  have singles : world.Keeps [.none, .truth true] := beganWith.grow grows fun _ => id
  have made (offset : Nat) {object : Object} (found : new[offset]? = some object) :
      world.object (place offset) = object := by
    obtain ⟨inside, same⟩ := Array.getElem?_eq_some_iff.mp found
    simp [world, early, place, World.object, Array.getElem?_append_right, found]
  have number : world.Plain (place 0) .int (.int (-3)) := .of_object (made 0 rfl)
  have text : world.Plain (place 1) .str (.str "it's") := .of_object (made 1 rfl)
  have list : world.Plain (place 2) .list (.list ⟨start.buffers.size⟩) := .of_object (made 2 rfl)
  have single : world.Plain (place 3) .tuple (.tuple #[noneRef]) := .of_object (made 3 rfl)
  have whole : world.Plain (place 4) .tuple (.tuple #[place 0, place 2, place 3]) :=
    .of_object (made 4 rfl)
  have nothing : world.Plain noneRef .noneType .none := singles .none (by simp)
  have truth : world.Plain trueRef .bool (.bool true) := singles (.truth true) (by simp)
  have listed : (world.buffer ⟨start.buffers.size⟩).cells = cells := by
    simp [world, early, World.buffer, Buffer.exact]
  have isList : world.Displayable 1 (place 2) :=
    .list list (by simp [world, early]) fun part inside => by
      simp only [listed, cells, List.mem_cons, List.not_mem_nil, or_false] at inside
      obtain rfl | rfl := inside
      · exact .simple (.str _) text
      · exact .simple (.bool _) truth
  have isSingle : world.Displayable 1 (place 3) := .tuple single fun part inside => by
    obtain rfl := List.mem_singleton.mp inside
    exact .simple .none nothing
  have value : world.Displayable 2 (place 4) := .tuple whole fun part inside => by
    simp only [List.mem_cons, List.not_mem_nil, or_false] at inside
    obtain rfl | rfl | rfl := inside
    · exact .simple (.int _) number
    · exact isList
    · exact isSingle
  have shown : world.display (place 4) = "(-3, [\"it's\", True], (None,))" := by
    rw [value.display_eq (show 2 < 3 by decide), displayWithin, whole.payload]
    simp only [List.map_cons, List.map_nil, number.payload, list.payload, single.payload,
      displayWithin, listed, cells, text.payload, truth.payload, nothing.payload]
    rfl
  obtain ⟨⟨_, after, got, -, same, -⟩, -, -⟩ := repr_eq_display intact value (show 2 < 3 by decide)
  rw [same (by simp [whole.payload]), shown] at got
  exact ⟨⟨intact, value⟩, ⟨after, got⟩, shown⟩

end Exec

end Offside
