/-
This file says what it means that a step raises: it ends with a new exception of a certain
class, whose only argument is a certain text. Every complaint that has a wording raises in
this sense, whatever the world, because its exception is made from new objects only and no
code of the program takes part.
-/

import Offside.Proofs.Literal.Beginning

namespace Offside

open World

/-- The object is an exception of this class, and the text is its only argument. -/
structure World.IsException (world : World) (ref : Ref) (builtin : BuiltinClass) (text : String) :
    Prop where
  class_ : (world.object ref).class_ = builtin.ref
  arguments : ∃ tuple message : Ref, world.ownAttribute? ref "args" = some tuple ∧
    world.Plain tuple .tuple (.tuple #[message]) ∧ world.Plain message .str (.str text)

namespace Exec

variable {α β : Type}

/-- The step ends with an exception of this class that has this text. -/
def Raises (step : Exec α) (world : World) (builtin : BuiltinClass) (text : String) : Prop :=
  ∃ id after, step world = .error (.raised id) after ∧
    after.IsException (after.raisedAt id).value builtin text

theorem Raises.of_eq {first : Exec α} {second : Exec α} {world later : World}
    {builtin : BuiltinClass} {text : String} (raises : Raises second later builtin text)
    (same : first world = second later) : Raises first world builtin text := by
  rwa [Raises, same]

theorem Raises.ne_ok {step : Exec α} {world after : World} {builtin : BuiltinClass}
    {text : String} (raises : Raises step world builtin text) (value : α) :
    step world ≠ .ok value after := by
  obtain ⟨id, later, raised, -⟩ := raises
  rw [raised]
  exact nofun

/-- A complaint with a wording raises it, and leaves alone what there was. -/
theorem complain_extends {complaint : Complaint} {text : String}
    (worded : complaint.message = some text) (world : World) :
    ∃ id after, (complain complaint : Exec α) world = .error (.raised id) after ∧
      after.IsException (after.raisedAt id).value complaint.exception text ∧
      world.Extends [] after ∧ after.buffers = world.buffers := by
  -- The text, the tuple around it, the table and the exception are made one after the other.
  let message : Object := ⟨BuiltinClass.str.ref, none, .str text, none⟩
  let early : World := { world with objects := world.objects.push message }
  let arguments : Object :=
    ⟨BuiltinClass.tuple.ref, none, .tuple #[⟨world.objects.size⟩], none⟩
  let middle : World := { early with
    objects := early.objects.push arguments
    spaces := early.spaces.push (Namespace.empty.set "args" ⟨early.objects.size⟩) }
  let value : Object := ⟨complaint.exception.ref, some ⟨world.spaces.size⟩, .empty, none⟩
  let after : World := { middle with
    objects := middle.objects.push value
    raised := middle.raised.push ⟨⟨middle.objects.size⟩, [], none⟩ }
  have raised : (complain complaint : Exec α) world =
      .error (.raised ⟨world.raised.size⟩) after := by
    simp only [complain, newComplaint, worded]
    rfl
  have bound : world.objects.size < ((world.objects.push message).push arguments).size := by
    rw [Array.size_push, Array.size_push]
    exact Nat.lt_succ_of_lt (Nat.lt_succ_self _)
  have messageFound : after.object ⟨world.objects.size⟩ = message := by
    simp only [after, middle, early, World.object, Array.getD_eq_getD_getElem?]
    rw [Array.getElem?_push_lt bound, Option.getD_some, Array.getElem_push_lt (by simp),
      Array.getElem_push_eq]
  have argumentsFound : after.object ⟨early.objects.size⟩ = arguments := by
    simp [after, middle, early, World.object, Array.getElem_push]
  have found : after.object ⟨middle.objects.size⟩ = value := by
    simp [after, World.object]
  have named : after.ownAttribute? ⟨middle.objects.size⟩ "args" = some ⟨early.objects.size⟩ := by
    rw [ownAttribute?, World.attributes, found]
    simp [value, after, middle, early, namespaceAt, Namespace.get?_set]
  have entered : (after.raisedAt ⟨world.raised.size⟩).value = ⟨middle.objects.size⟩ := by
    simp [after, middle, early, raisedAt]
  refine ⟨_, after, raised, ?_, ?_, rfl⟩
  · rw [entered]
    exact ⟨by rw [found], _, _, named, .of_object argumentsFound, .of_object messageFound⟩
  · have first : world.Extends [] early := .push world message
    have second : early.Extends [] { early with objects := early.objects.push arguments } :=
      .push early arguments
    have third : World.Extends [] { early with objects := early.objects.push arguments } middle :=
      .pushSpace _ _
    have last : middle.Extends [] { middle with objects := middle.objects.push value } :=
      .push middle value
    have whole := first.trans (second.trans (third.trans last))
    exact ⟨whole.objects, whole.object, whole.spaces, whole.space⟩

/-- A complaint with a wording raises it. -/
theorem raises_complain {complaint : Complaint} {text : String}
    (worded : complaint.message = some text) (world : World) :
    Raises (complain complaint : Exec α) world complaint.exception text := by
  obtain ⟨id, after, raised, exception, -⟩ := complain_extends worded world
  exact ⟨id, after, raised, exception⟩

end Exec

end Offside
