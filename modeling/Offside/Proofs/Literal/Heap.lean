/-
This file says which objects of a heap stand for a value. An object stands for a value
if it has the class and the payload of the value, no attributes of its own, and the
objects it refers to stand for the parts of the value, in the same order. Only one
object is the absent value, and one each are the truth values.

A step that evaluates or writes a literal makes new objects and leaves the old ones
alone, so what stood for a value before stands for it afterwards. The one exception is a
dict that is being filled: it changes in place while its keys and values are made, and
what is made meanwhile never refers to it. For this reason the objects that may take part
in standing for a value are named by a predicate.

Evaluation and writing also rely on the methods of the built-in classes. A world in which
these are as they were made is called intact.
-/

import Mathlib.Order.Nat
import Offside.Eval.Beginning
import Offside.Eval.Interpreter
import Offside.Proofs.Literal.Basic

namespace Offside

namespace World

/-! ### Objects for values -/

/-- The object has this class and payload, and neither attributes nor code of its own. -/
structure Plain (world : World) (ref : Ref) (builtin : BuiltinClass) (payload : Payload) :
    Prop where
  class_ : (world.object ref).class_ = builtin.ref
  payload : world.payload ref = payload
  attributes : (world.attributes ref).store = []
  function : (world.object ref).function = none

mutual

/-- The object stands for the value, and all objects that take part in this are allowed. -/
def RepresentsIn (allowed : Ref → Prop) (world : World) : Literal → Ref → Prop
  | .none, ref => ref = noneRef ∧ allowed ref ∧ world.Plain ref .noneType .none
  | .bool value, ref => ref = truthRef value ∧ allowed ref ∧ world.Plain ref .bool (.bool value)
  | .int value, ref => allowed ref ∧ world.Plain ref .int (.int value)
  | .str value, ref => allowed ref ∧ world.Plain ref .str (.str value)
  | .list elements, ref => allowed ref ∧ ∃ id : BufferId, world.Plain ref .list (.list id) ∧
      id.index < world.buffers.size ∧
      RepresentsAll allowed world elements (world.buffer id).cells.toList
  | .tuple elements, ref => allowed ref ∧ ∃ cells : Array Ref,
      world.Plain ref .tuple (.tuple cells) ∧ RepresentsAll allowed world elements cells.toList
  | .dict entries, ref => allowed ref ∧ ∃ table : Table SlotId,
      world.Plain ref .dict (.dict table) ∧
      RepresentsEntries allowed world entries table.entries.toList
  | .set elements, ref => allowed ref ∧ ∃ table : Table Unit,
      world.Plain ref .set (.set table) ∧ RepresentsKeys allowed world elements table.entries.toList

def RepresentsAll (allowed : Ref → Prop) (world : World) : List Literal → List Ref → Prop
  | [], [] => True
  | first :: rest, ref :: refs =>
    RepresentsIn allowed world first ref ∧ RepresentsAll allowed world rest refs
  | _, _ => False

/-- An entry knows the hash of its key and the place of its value. -/
def RepresentsEntries (allowed : Ref → Prop) (world : World) :
    List (Literal × Literal) → List (Table.Entry SlotId) → Prop
  | [], [] => True
  | (key, value) :: rest, entry :: entries =>
    (entry.hash = key.hash ∧ RepresentsIn allowed world key entry.key) ∧
      (entry.value.index < world.slots.size ∧
        RepresentsIn allowed world value (world.slot entry.value)) ∧
      RepresentsEntries allowed world rest entries
  | _, _ => False

def RepresentsKeys (allowed : Ref → Prop) (world : World) :
    List Literal → List (Table.Entry Unit) → Prop
  | [], [] => True
  | key :: rest, entry :: entries =>
    (entry.hash = key.hash ∧ RepresentsIn allowed world key entry.key) ∧
      RepresentsKeys allowed world rest entries
  | _, _ => False

end

theorem RepresentsAll.length {allowed : Ref → Prop} {world : World} :
    ∀ (elements : List Literal) {refs : List Ref}, world.RepresentsAll allowed elements refs →
      refs.length = elements.length
  | [], [], _ => rfl
  | _ :: rest, _ :: _, represented => congrArg Nat.succ (RepresentsAll.length rest represented.2)

/-- The object stands for the value. -/
def Represents (world : World) (ref : Ref) (literal : Literal) : Prop :=
  world.RepresentsIn (fun _ => True) literal ref

/-! ### Growing -/

/-- Everything that there was is still there and as it was, some objects apart. -/
structure GrowsBut (changed : Ref → Prop) (before after : World) : Prop where
  objects : before.objects.size ≤ after.objects.size
  object : ∀ ref : Ref, ref.index < before.objects.size → ¬ changed ref →
    after.object ref = before.object ref
  spaces : after.spaces = before.spaces
  buffers : before.buffers.size ≤ after.buffers.size
  buffer : ∀ id : BufferId, id.index < before.buffers.size → after.buffer id = before.buffer id
  slots : before.slots.size ≤ after.slots.size
  slot : ∀ id : SlotId, id.index < before.slots.size → after.slot id = before.slot id

/-- Everything that there was is still there and as it was. -/
abbrev Grows : World → World → Prop :=
  GrowsBut fun _ => False

namespace GrowsBut

variable {changed : Ref → Prop} {before middle after : World}

theorem refl (world : World) : GrowsBut changed world world :=
  ⟨Nat.le_refl _, fun _ _ _ => rfl, rfl, Nat.le_refl _, fun _ _ => rfl, Nat.le_refl _,
    fun _ _ => rfl⟩

theorem trans (first : before.GrowsBut changed middle) (last : middle.GrowsBut changed after) :
    before.GrowsBut changed after where
  objects := first.objects.trans last.objects
  object ref bound same := by
    rw [last.object ref (bound.trans_le first.objects) same, first.object ref bound same]
  spaces := last.spaces.trans first.spaces
  buffers := first.buffers.trans last.buffers
  buffer id bound := by rw [last.buffer id (bound.trans_le first.buffers), first.buffer id bound]
  slots := first.slots.trans last.slots
  slot id bound := by rw [last.slot id (bound.trans_le first.slots), first.slot id bound]

/-- Fewer objects may have changed than are said to. -/
theorem weaken {other : Ref → Prop} (grows : before.GrowsBut changed after)
    (fewer : ∀ ref : Ref, ref.index < before.objects.size → changed ref → other ref) :
    before.GrowsBut other after :=
  { grows with
    object := fun ref bound same =>
      grows.object ref bound fun change => same (fewer ref bound change) }

theorem push (world : World) (new : Object) :
    world.Grows { world with objects := world.objects.push new } := by
  refine { (refl world : world.Grows world) with
    objects := by simp
    object := fun ref bound _ => ?_ }
  simp [World.object, Array.getElem?_push, Nat.ne_of_lt bound]

theorem append (world : World) (new : Array Object) :
    world.Grows { world with objects := world.objects ++ new } := by
  refine { (refl world : world.Grows world) with
    objects := by simp
    object := fun ref bound _ => ?_ }
  simp [World.object, Array.getElem?_append_left bound]

theorem pushBuffer (world : World) (new : Buffer) :
    world.Grows { world with buffers := world.buffers.push new } := by
  refine { (refl world : world.Grows world) with
    buffers := by simp
    buffer := fun id bound => ?_ }
  simp [World.buffer, Array.getElem?_push, Nat.ne_of_lt bound]

theorem pushSlot (world : World) (new : Ref) :
    world.Grows { world with slots := world.slots.push new } := by
  refine { (refl world : world.Grows world) with
    slots := by simp
    slot := fun id bound => ?_ }
  simp [World.slot, Array.getElem?_push, Nat.ne_of_lt bound]

/-- A change in place concerns one object. -/
theorem modify (world : World) (ref : Ref) (step : Object → Object) :
    world.GrowsBut (· = ref) { world with objects := world.objects.modify ref.index step } := by
  refine { (refl world : world.GrowsBut (· = ref) world) with
    objects := by simp
    object := fun other _ different => ?_ }
  simp [World.object, Array.getElem?_modify, index_ne_of_ne different]

end GrowsBut

/-! ### What growing keeps -/

/-- An object that is not what an absent one looks like is there. -/
theorem bound_of_object {world : World} {ref : Ref} (present : world.object ref ≠ default) :
    ref.index < world.objects.size := by
  by_contra outside
  have absent : world.objects[ref.index]? = none := Array.getElem?_eq_none (Nat.not_lt.mp outside)
  refine present ?_
  rw [World.object, Array.getD_eq_getD_getElem?, absent]
  rfl

theorem Plain.bound {world : World} {ref : Ref} {builtin : BuiltinClass} {payload : Payload}
    (plain : world.Plain ref builtin payload) (present : payload ≠ .empty) :
    ref.index < world.objects.size := by
  refine bound_of_object fun absent => present ?_
  rw [← plain.payload, World.payload, absent]
  rfl

theorem Plain.grow {changed : Ref → Prop} {before after : World} {ref : Ref}
    {builtin : BuiltinClass} {payload : Payload} (plain : before.Plain ref builtin payload)
    (present : payload ≠ .empty) (grows : before.GrowsBut changed after)
    (unchanged : ¬ changed ref) : after.Plain ref builtin payload := by
  have same := grows.object ref (plain.bound present) unchanged
  have attributes : after.attributes ref = before.attributes ref := by
    simp only [World.attributes, World.namespaceAt, same, grows.spaces]
  refine ⟨?_, ?_, ?_, ?_⟩
  · rw [same, plain.class_]
  · rw [World.payload, same]
    exact plain.payload
  · rw [attributes, plain.attributes]
  · rw [same, plain.function]

section Kept

variable {changed allowed others : Ref → Prop} {before after : World}

mutual

/-- What stands for a value still does so once the world has grown. -/
theorem RepresentsIn.grow (grows : before.GrowsBut changed after)
    (kept : ∀ ref, allowed ref → others ref ∧ ¬ changed ref) : ∀ (literal : Literal) {ref : Ref},
    before.RepresentsIn allowed literal ref → after.RepresentsIn others literal ref
  | .none, ref, represented => by
    obtain ⟨single, inside, plain⟩ := represented
    obtain ⟨inside, unchanged⟩ := kept ref inside
    exact ⟨single, inside, plain.grow (by simp) grows unchanged⟩
  | .bool value, ref, represented => by
    obtain ⟨single, inside, plain⟩ := represented
    obtain ⟨inside, unchanged⟩ := kept ref inside
    exact ⟨single, inside, plain.grow (by simp) grows unchanged⟩
  | .int value, ref, represented => by
    obtain ⟨inside, plain⟩ := represented
    obtain ⟨inside, unchanged⟩ := kept ref inside
    exact ⟨inside, plain.grow (by simp) grows unchanged⟩
  | .str value, ref, represented => by
    obtain ⟨inside, plain⟩ := represented
    obtain ⟨inside, unchanged⟩ := kept ref inside
    exact ⟨inside, plain.grow (by simp) grows unchanged⟩
  | .list elements, ref, represented => by
    obtain ⟨inside, id, plain, bound, parts⟩ := represented
    obtain ⟨inside, unchanged⟩ := kept ref inside
    refine ⟨inside, id, plain.grow (by simp) grows unchanged, bound.trans_le grows.buffers, ?_⟩
    rw [grows.buffer id bound]
    exact RepresentsAll.grow grows kept elements parts
  | .tuple elements, ref, represented => by
    obtain ⟨inside, cells, plain, parts⟩ := represented
    obtain ⟨inside, unchanged⟩ := kept ref inside
    exact ⟨inside, cells, plain.grow (by simp) grows unchanged,
      RepresentsAll.grow grows kept elements parts⟩
  | .dict entries, ref, represented => by
    obtain ⟨inside, table, plain, parts⟩ := represented
    obtain ⟨inside, unchanged⟩ := kept ref inside
    exact ⟨inside, table, plain.grow (by simp) grows unchanged,
      RepresentsEntries.grow grows kept entries parts⟩
  | .set elements, ref, represented => by
    obtain ⟨inside, table, plain, parts⟩ := represented
    obtain ⟨inside, unchanged⟩ := kept ref inside
    exact ⟨inside, table, plain.grow (by simp) grows unchanged,
      RepresentsKeys.grow grows kept elements parts⟩

theorem RepresentsAll.grow (grows : before.GrowsBut changed after)
    (kept : ∀ ref, allowed ref → others ref ∧ ¬ changed ref) :
    ∀ (elements : List Literal) {refs : List Ref},
    before.RepresentsAll allowed elements refs → after.RepresentsAll others elements refs
  | [], [], _ => trivial
  | first :: rest, _ :: _, represented =>
    ⟨RepresentsIn.grow grows kept first represented.1,
      RepresentsAll.grow grows kept rest represented.2⟩

theorem RepresentsEntries.grow (grows : before.GrowsBut changed after)
    (kept : ∀ ref, allowed ref → others ref ∧ ¬ changed ref) :
    ∀ (entries : List (Literal × Literal)) {cells : List (Table.Entry SlotId)},
    before.RepresentsEntries allowed entries cells → after.RepresentsEntries others entries cells
  | [], [], _ => trivial
  | (key, value) :: rest, cell :: cells, represented => by
    obtain ⟨⟨hashed, represented⟩, ⟨bound, held⟩, others⟩ := represented
    refine ⟨⟨hashed, RepresentsIn.grow grows kept key represented⟩,
      ⟨bound.trans_le grows.slots, ?_⟩, RepresentsEntries.grow grows kept rest others⟩
    rw [grows.slot cell.value bound]
    exact RepresentsIn.grow grows kept value held

theorem RepresentsKeys.grow (grows : before.GrowsBut changed after)
    (kept : ∀ ref, allowed ref → others ref ∧ ¬ changed ref) :
    ∀ (elements : List Literal) {cells : List (Table.Entry Unit)},
    before.RepresentsKeys allowed elements cells → after.RepresentsKeys others elements cells
  | [], [], _ => trivial
  | key :: rest, cell :: cells, represented => by
    obtain ⟨⟨hashed, represented⟩, others⟩ := represented
    exact ⟨⟨hashed, RepresentsIn.grow grows kept key represented⟩,
      RepresentsKeys.grow grows kept rest others⟩

end

end Kept

theorem Represents.grow {before after : World} {ref : Ref} {literal : Literal}
    (represented : before.Represents ref literal) (grows : before.Grows after) :
    after.Represents ref literal :=
  RepresentsIn.grow grows (fun _ _ => ⟨trivial, id⟩) literal represented

/-! ### Intact worlds -/

/-- The function runs a method of a built-in class. -/
structure RunsMethod (world : World) (function : Ref) (builtin : BuiltinClass) (name : String)
    (method : Method) : Prop where
  class_ : (world.object function).class_ = BuiltinClass.function.ref
  code : (world.object function).function = some ⟨name, .native (.method builtin name method), []⟩

theorem RunsMethod.bound {world : World} {function : Ref} {builtin : BuiltinClass} {name : String}
    {method : Method} (runs : world.RunsMethod function builtin name method) :
    function.index < world.objects.size := by
  refine bound_of_object fun absent => ?_
  have code := runs.code
  rw [absent] at code
  cases code

/-- The built-in classes and their methods are as they were made, and so is what vacant cells
hold. -/
structure Intact (world : World) : Prop where
  class_ : ∀ builtin : BuiltinClass, world.object builtin.ref =
    ⟨BuiltinClass.klass.ref, some builtin.space, .empty, none⟩
  method : ∀ (builtin : BuiltinClass) (name : String) (method : Method),
    (name, method) ∈ builtin.methods → ∃ function : Ref,
      (world.namespaceAt builtin.space).get? name = some function ∧
        world.RunsMethod function builtin name method
  vacant : world.object vacantRef = ⟨BuiltinClass.noneType.ref, none, .empty, none⟩

namespace Intact

variable {world : World} (intact : world.Intact)

include intact

theorem bound_class (builtin : BuiltinClass) : builtin.ref.index < world.objects.size := by
  refine bound_of_object ?_
  rw [intact.class_ builtin]
  intro same
  injection same with _ space
  cases space

theorem bound_vacant : vacantRef.index < world.objects.size := by
  refine bound_of_object ?_
  rw [intact.vacant]
  intro same
  injection same with class_
  exact absurd class_ (by decide)

/-- A world that grows stays intact, also if values change in place. -/
theorem grow {changed : Ref → Prop} {after : World} (grows : world.GrowsBut changed after)
    (values : ∀ ref, changed ref → ∃ builtin payload, world.Plain ref builtin payload ∧
      payload ≠ .empty) : after.Intact := by
  have keeps {ref : Ref} (empty : world.payload ref = .empty) : ¬ changed ref := by
    intro change
    obtain ⟨builtin, payload, plain, present⟩ := values ref change
    exact present (plain.payload.symm.trans empty)
  refine ⟨fun builtin => ?_, fun builtin name method listed => ?_, ?_⟩
  · have kept : ¬ changed builtin.ref := keeps (by rw [World.payload, intact.class_])
    rw [grows.object _ (intact.bound_class builtin) kept, intact.class_]
  · obtain ⟨function, found, runs⟩ := intact.method builtin name method listed
    have kept : ¬ changed function := by
      intro change
      obtain ⟨builtin, payload, plain, -⟩ := values function change
      exact absurd (runs.code.symm.trans plain.function) (by simp)
    have same := grows.object function runs.bound kept
    refine ⟨function, ?_, ?_, ?_⟩
    · rw [World.namespaceAt, grows.spaces]
      exact found
    · rw [same, runs.class_]
    · rw [same, runs.code]
  · have kept : ¬ changed vacantRef := keeps (by rw [World.payload, intact.vacant])
    rw [grows.object _ intact.bound_vacant kept, intact.vacant]

end Intact

end World

end Offside
