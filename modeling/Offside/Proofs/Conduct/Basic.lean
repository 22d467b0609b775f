/-
This file is the base for everything that is proved about all runs. A run is made of
many functions that have little to do with most of such statements: they look at
objects, make new ones, change payloads and names, and now and then call back into
the program. What all of them may do to the world is said once, as a relation
between the world before and the world after: such a change is quiet.

A conduct is a property of worlds that no quiet change breaks, with the failures
that may end a step and what is known of the world then, for a machine whose calls
keep to it. It is then a matter
of going through the functions that every one of them keeps to every conduct,
which is the statement that the lemmas here and in the modules after this one make.
-/

import Mathlib
import Offside.Eval.Handling

open Std.Do

set_option mvcgen.warning false

namespace Offside

/-! ### Quiet changes -/

/-- The name was announced in a table of names and not bound since. -/
def World.isPending (world : World) (space : SpaceId) (name : String) : Bool :=
  (world.namespaceAt space).isPending name

/-- Announcing a name in a table makes no other name pending. -/
theorem World.isPending_announce {world : World} {space other : SpaceId} {name found : String}
    (waits : World.isPending
      { world with spaces := world.spaces.modify space.index (·.announce name) } other found =
        true) :
    world.isPending other found = true ∨ other = space ∧ found = name := by
  rw [isPending] at waits
  by_cases here : other = space
  · subst here
    by_cases bound : other.index < world.spaces.size
    · rw [namespaceAt_modify bound, Namespace.isPending_announce, Bool.or_eq_true,
        beq_iff_eq] at waits
      exact waits.symm.imp_right fun same => ⟨rfl, same⟩
    · rw [namespaceAt_modify_of_le (Nat.le_of_not_lt bound)] at waits
      cases waits
  · rw [namespaceAt_modify_of_ne here] at waits
    exact .inl waits

/-- The objects and the tables of names that there were are still there. An object keeps its class,
and its table once it has one. -/
structure World.Lasts (before after : World) : Prop where
  objects : before.objects.size ≤ after.objects.size
  spaces : before.spaces.size ≤ after.spaces.size
  class_ : ∀ ref : Ref, ref.index < before.objects.size →
    (after.object ref).class_ = (before.object ref).class_
  space : ∀ (ref : Ref) (space : SpaceId), (before.object ref).space = some space →
    (after.object ref).space = some space

theorem World.Lasts.of_objects {before after : World} (objects : after.objects = before.objects)
    (spaces : before.spaces.size ≤ after.spaces.size) : before.Lasts after := by
  have same (ref : Ref) : after.object ref = before.object ref := by
    rw [object, object, objects]
  exact ⟨Nat.le_of_eq (congrArg _ objects.symm), spaces, fun ref _ => by rw [same],
    fun ref space held => by rw [same, held]⟩

theorem World.Lasts.of_same {before after : World} (objects : after.objects = before.objects)
    (spaces : after.spaces = before.spaces) : before.Lasts after :=
  .of_objects objects (Nat.le_of_eq (congrArg _ spaces.symm))

theorem World.Lasts.trans {before middle after : World} (first : before.Lasts middle)
    (last : middle.Lasts after) : before.Lasts after where
  objects := first.objects.trans last.objects
  spaces := first.spaces.trans last.spaces
  class_ ref bound := by
    rw [last.class_ ref (bound.trans_le first.objects), first.class_ ref bound]
  space ref space held := last.space ref space (first.space ref space held)

/-- An object that has a table is there. -/
theorem World.bound_of_space {world : World} {ref : Ref} {space : SpaceId}
    (held : (world.object ref).space = some space) : ref.index < world.objects.size := by
  by_contra outside
  have absent : world.objects[ref.index]? = none := Array.getElem?_eq_none (Nat.not_lt.mp outside)
  rw [object, Array.getD_eq_getD_getElem?, absent] at held
  cases held

theorem World.Lasts.push (world : World) (new : Object) :
    world.Lasts { world with objects := world.objects.push new } := by
  have same (ref : Ref) (bound : ref.index < world.objects.size) :
      World.object { world with objects := world.objects.push new } ref = world.object ref := by
    simp [object, Array.getElem?_push, Nat.ne_of_lt bound]
  refine ⟨by simp, Nat.le_refl _, fun ref bound => by rw [same ref bound], ?_⟩
  intro ref space held
  rw [same ref (bound_of_space held), held]

/-- The table of the object is there, if it has one. -/
def World.Tabled (world : World) (ref : Ref) : Prop :=
  ∀ space : SpaceId, (world.object ref).space = some space → space.index < world.spaces.size

/-- The tables of the modules are there. -/
def World.ModulesTabled (world : World) : Prop :=
  ∀ ref : Ref, (world.object ref).class_ = BuiltinClass.moduleType.ref → world.Tabled ref

/-- Tables do not go away. A module may have one that is there now, or the one of a module that
there was. -/
theorem World.ModulesTabled.last {before after : World} (tabled : before.ModulesTabled)
    (spaces : before.spaces.size ≤ after.spaces.size)
    (kept : ∀ (ref : Ref) (space : SpaceId),
      (after.object ref).class_ = BuiltinClass.moduleType.ref →
      (after.object ref).space = some space → space.index < after.spaces.size ∨
        ∃ earlier : Ref, (before.object earlier).class_ = BuiltinClass.moduleType.ref ∧
          (before.object earlier).space = some space) :
    after.ModulesTabled := by
  intro ref isModule space held
  obtain bound | ⟨earlier, wasModule, known⟩ := kept ref space isModule held
  · exact bound
  · exact (tabled earlier wasModule space known).trans_le spaces

theorem World.ModulesTabled.of_same {before after : World} (tabled : before.ModulesTabled)
    (objects : after.objects = before.objects)
    (spaces : before.spaces.size ≤ after.spaces.size) : after.ModulesTabled := by
  refine tabled.last spaces fun ref space isModule held => .inr ⟨ref, ?_⟩
  rw [object, objects] at isModule held
  exact ⟨isModule, held⟩

theorem World.ModulesTabled.push {world : World} (tabled : world.ModulesTabled) {new : Object}
    (newTabled : ∀ space, new.class_ = BuiltinClass.moduleType.ref → new.space = some space →
      space.index < world.spaces.size ∨
        ∃ earlier : Ref, (world.object earlier).class_ = BuiltinClass.moduleType.ref ∧
          (world.object earlier).space = some space) :
    World.ModulesTabled { world with objects := world.objects.push new } := by
  refine tabled.last (Nat.le_refl _) fun ref space isModule held => ?_
  by_cases last : ref.index = world.objects.size
  · have found : World.object { world with objects := world.objects.push new } ref = new := by
      simp [object, last]
    rw [found] at isModule held
    exact newTabled space isModule held
  · have same : World.object { world with objects := world.objects.push new } ref =
        world.object ref := by
      simp [object, Array.getElem?_push, last]
    rw [same] at isModule held
    exact .inr ⟨ref, isModule, held⟩

/-- A change of the world that makes no new code, and that leaves alone what belongs to calls,
handlers, modules and files. -/
structure World.Quiet (before after : World) : Prop where
  lasts : before.Lasts after
  /-- The objects that there were keep their classes and their code. -/
  kept : ∀ ref : Ref, ref.index < before.objects.size →
    (after.object ref).class_ = (before.object ref).class_ ∧
      (after.object ref).function = (before.object ref).function
  /-- New functions run code that some function ran before. -/
  code : ∀ (ref : Ref) (function : Function), (after.object ref).function = some function →
    ∃ (earlier : Ref) (model : Function),
      (before.object earlier).function = some model ∧ function.code = model.code
  /-- Exceptions are only added, and a new one has no trace and no link. -/
  raised : ∃ added : List Raised, after.raised = before.raised ++ added.toArray ∧
    ∀ entry ∈ added, entry.trace = [] ∧ entry.below = none
  registry : after.registry = before.registry
  sources : after.sources = before.sources
  files : after.host.files = before.host.files
  handling : after.handling = before.handling
  callDepth : after.callDepth = before.callDepth
  calls : after.calls = before.calls
  /-- No name is announced. -/
  pending : ∀ (space : SpaceId) (name : String), after.isPending space name = true →
    before.isPending space name = true
  /-- No module loses its table, or has one that is not there. -/
  tabled : before.ModulesTabled → after.ModulesTabled

namespace World.Quiet

/-- Nothing that matters for a quiet change depends on anything but these parts of the world. -/
theorem of_same {before after : World} (objects : after.objects = before.objects)
    (spaces : after.spaces = before.spaces) (raised : after.raised = before.raised)
    (registry : after.registry = before.registry) (sources : after.sources = before.sources)
    (files : after.host.files = before.host.files)
    (handling : after.handling = before.handling) (callDepth : after.callDepth = before.callDepth)
    (calls : after.calls = before.calls) : before.Quiet after := by
  have same (ref : Ref) : after.object ref = before.object ref := by
    rw [object, object, objects]
  refine ⟨.of_same objects spaces, fun ref _ => by simp [same],
    fun ref function found => ⟨ref, function, ?_, rfl⟩,
    ⟨[], by simp [raised]⟩, registry, sources, files, handling, callDepth, calls,
    fun space name => ?_, fun tabled => tabled.of_same objects (congrArg _ spaces.symm).le⟩
  · rw [← same, found]
  · rw [isPending, namespaceAt, spaces]
    exact id

/-- A change of the objects alone. -/
theorem of_objects {before : World} (objects : Array Object)
    (lasts : before.Lasts { before with objects })
    (kept : ∀ ref : Ref, ref.index < before.objects.size →
      (objects.getD ref.index default).class_ = (before.object ref).class_ ∧
        (objects.getD ref.index default).function = (before.object ref).function)
    (code : ∀ (ref : Ref) (function : Function),
      (objects.getD ref.index default).function = some function →
      ∃ (earlier : Ref) (model : Function),
        (before.object earlier).function = some model ∧ function.code = model.code)
    (tabled : before.ModulesTabled → World.ModulesTabled { before with objects }) :
    before.Quiet { before with objects } :=
  ⟨lasts, kept, code, ⟨[], by simp⟩, rfl, rfl, rfl, rfl, rfl, rfl, fun _ _ => id, tabled⟩

/-- A change of the tables of names alone. -/
theorem of_spaces {before : World} (spaces : Array Namespace)
    (lasts : before.spaces.size ≤ spaces.size)
    (pending : ∀ (space : SpaceId) (name : String),
      (spaces.getD space.index .empty).isPending name = true →
      before.isPending space name = true) :
    before.Quiet { before with spaces } :=
  ⟨⟨Nat.le_refl _, lasts, fun _ _ => rfl, fun _ _ => id⟩, fun _ _ => ⟨rfl, rfl⟩,
    fun ref function found => ⟨ref, function, found, rfl⟩, ⟨[], by simp⟩, rfl, rfl, rfl, rfl, rfl,
    rfl, pending, fun tabled => tabled.of_same rfl lasts⟩

theorem pushSpace (before : World) {table : Namespace} (settled : table.pending = []) :
    before.Quiet { before with spaces := before.spaces.push table } := by
  refine of_spaces _ (by simp) fun space name => ?_
  by_cases last : space.index = before.spaces.size
  · simp [last, Namespace.isPending, settled]
  · simp [World.isPending, namespaceAt, Array.getElem?_push, last]

/-- A change of one table that announces nothing. -/
theorem modifySpace (before : World) (space : SpaceId) {step : Namespace → Namespace}
    (settled : ∀ table : Namespace, (step table).pending ⊆ table.pending) :
    before.Quiet { before with spaces := before.spaces.modify space.index step } := by
  refine of_spaces _ (by simp) fun other name => ?_
  rw [World.isPending, namespaceAt, Array.getD_eq_getD_getElem?, Array.getD_eq_getD_getElem?,
    Array.getElem?_modify]
  split
  · cases before.spaces[other.index]? with
    | none => exact id
    | some table =>
      simp only [Option.map_some, Option.getD_some, Namespace.isPending, List.contains_iff_mem]
      exact fun waits => settled table waits
  · exact id

/-- A new object whose code, if it has any, was there before, and so was its table if it is a
module. -/
theorem push {before : World} (new : Object)
    (code : ∀ function, new.function = some function → ∃ (earlier : Ref) (model : Function),
      (before.object earlier).function = some model ∧ function.code = model.code)
    (newTabled : ∀ space, new.class_ = BuiltinClass.moduleType.ref → new.space = some space →
      space.index < before.spaces.size ∨
        ∃ earlier : Ref, (before.object earlier).class_ = BuiltinClass.moduleType.ref ∧
          (before.object earlier).space = some space) :
    before.Quiet { before with objects := before.objects.push new } := by
  refine of_objects _ (.push before new) (fun ref bound => ?_) (fun ref function found => ?_)
    fun tabled => tabled.push newTabled
  · simp [object, Array.getElem?_push, Nat.ne_of_lt bound]
  · by_cases last : ref.index = before.objects.size
    · refine code function ?_
      simpa [Array.getElem?_push, last] using found
    · refine ⟨ref, function, ?_, rfl⟩
      simpa [object, Array.getElem?_push, last] using found

/-- A change in place that keeps class and code, and a table that the object has. A new table is
there. -/
theorem modify {before : World} (ref : Ref) (step : Object → Object)
    (kept : (step (before.object ref)).class_ = (before.object ref).class_ ∧
      (step (before.object ref)).function = (before.object ref).function ∧
      ∀ space, (before.object ref).space = some space →
        (step (before.object ref)).space = some space)
    (given : ∀ space, (step (before.object ref)).space = some space →
      space.index < before.spaces.size ∨ (before.object ref).space = some space) :
    before.Quiet { before with objects := before.objects.modify ref.index step } := by
  have same (other : Ref) :
      ((before.objects.modify ref.index step).getD other.index default).class_ =
          (before.object other).class_ ∧
        ((before.objects.modify ref.index step).getD other.index default).function =
          (before.object other).function ∧
        (∀ space, (before.object other).space = some space →
          ((before.objects.modify ref.index step).getD other.index default).space =
            some space) ∧
        ∀ space, ((before.objects.modify ref.index step).getD other.index default).space =
            some space →
          space.index < before.spaces.size ∨ (before.object other).space = some space := by
    simp only [object, Array.getD_eq_getD_getElem?, Array.getElem?_modify] at kept given ⊢
    split
    next here =>
      rw [here] at kept given
      cases found : before.objects[other.index]? with
      | none => exact ⟨rfl, rfl, fun _ => id, fun _ => .inr⟩
      | some object =>
        rw [found] at kept given
        exact ⟨kept.1, kept.2.1, kept.2.2, given⟩
    next => exact ⟨rfl, rfl, fun _ => id, fun _ => .inr⟩
  refine of_objects _ ⟨by simp, Nat.le_refl _, fun other _ => (same other).1,
    fun other => (same other).2.2.1⟩ (fun other _ => ⟨(same other).1, (same other).2.1⟩)
    (fun other function found => ?_) fun tabled => ?_
  · exact ⟨other, function, by rw [← found, (same other).2.1], rfl⟩
  · refine tabled.last (Nat.le_refl _) fun other space isModule held => ?_
    obtain ⟨sameClass, -, -, sameTable⟩ := same other
    exact (sameTable space held).imp_right fun known => ⟨other, sameClass ▸ isModule, known⟩

/-- A new exception. -/
theorem raise (before : World) (value : Ref) :
    before.Quiet { before with raised := before.raised.push ⟨value, [], none⟩ } := by
  refine ⟨.of_same rfl rfl, fun _ _ => ⟨rfl, rfl⟩,
    fun ref function found => ⟨ref, function, found, rfl⟩, ?_, rfl, rfl, rfl, rfl, rfl, rfl,
    fun _ _ => id, fun tabled => tabled.of_same rfl (Nat.le_refl _)⟩
  exact ⟨[⟨value, [], none⟩], by simp, by simp⟩

end World.Quiet

/-! ### Conducts -/

/-- The world that a step leaves behind, however it ended. -/
def World.leftBy {α : Type} : EStateM.Result Failure World α → World
  | .ok _ after => after
  | .error _ after => after

/-- A property of worlds, and the failures that are allowed to end a step in a world. -/
structure Rule where
  holds : World → Prop
  allows : Failure → World → Prop

/-- A step keeps to a rule: from a world where the rule holds it leads to one where it holds, or
fails in a world where the failure is allowed. -/
abbrev Rule.Obeys {α : Type} (rule : Rule) (step : Exec α) : Prop :=
  ⦃fun world => ⌜rule.holds world⌝⦄ step
  ⦃post⟨fun _ world => ⌜rule.holds world⌝,
    fun failure world => ⌜rule.allows failure world⌝⟩⦄

/-- A step keeps to a rule, and the value that it gives has a property. -/
abbrev Rule.Ensures {α : Type} (rule : Rule) (step : Exec α) (property : α → Prop) : Prop :=
  ⦃fun world => ⌜rule.holds world⌝⦄ step
  ⦃post⟨fun value world => ⌜rule.holds world ∧ property value⌝,
    fun failure world => ⌜rule.allows failure world⌝⟩⦄

theorem Rule.ensures_iff {α : Type} {rule : Rule} {step : Exec α} {property : α → Prop} :
    rule.Ensures step property ↔ ∀ world, rule.holds world →
      match step world with
      | .ok value after => rule.holds after ∧ property value
      | .error failure after => rule.allows failure after := by
  refine forall_congr' fun world => imp_congr_right fun holds => ?_
  simp only [wp, PredTrans.apply, EStateM.run]
  cases step world <;> rfl

theorem Rule.Ensures.obeys {α : Type} {rule : Rule} {step : Exec α} {property : α → Prop}
    (ensures : rule.Ensures step property) : rule.Obeys step := by
  mvcgen [ensures]
  exact fun holds _ => holds

theorem Rule.Obeys.ensures {α : Type} {rule : Rule} {step : Exec α} (obeys : rule.Obeys step) :
    rule.Ensures step fun _ => True := by
  mvcgen [obeys]
  exact id

theorem Rule.Ensures.mono {α : Type} {rule : Rule} {step : Exec α} {property weaker : α → Prop}
    (ensures : rule.Ensures step property) (implies : ∀ value, property value → weaker value) :
    rule.Ensures step weaker := by
  refine ensures_iff.mpr fun world holds => ?_
  have given := ensures_iff.mp ensures world holds
  cases done : step world with
  | ok value after =>
    rw [done] at given
    exact ⟨given.1, implies value given.2⟩
  | error failure after =>
    rw [done] at given
    exact given

theorem Rule.ensures_pure {α : Type} {rule : Rule} {value : α} {property : α → Prop}
    (given : property value) : rule.Ensures (pure value) property :=
  fun _ holds => ⟨holds, given⟩

/-- From a world with one property a step leads to a value and a world with another one, or fails as
the rule allows. Between the ends of a longer step the rule itself need not hold. -/
def Rule.Leads {α : Type} (rule : Rule) (before : World → Prop) (step : Exec α)
    (after : α → World → Prop) : Prop :=
  ∀ world, before world → match step world with
    | .ok value last => after value last
    | .error failure last => rule.allows failure last

theorem Rule.Leads.bind {α β : Type} {rule : Rule} {before : World → Prop} {first : Exec α}
    {next : α → Exec β} {between : α → World → Prop} {after : β → World → Prop}
    (leads : rule.Leads before first between)
    (nextLeads : ∀ value, rule.Leads (between value) (next value) after) :
    rule.Leads before (first >>= next) after := by
  intro world holds
  have given := leads world holds
  cases done : first world with
  | ok value last =>
    rw [done] at given
    rw [Exec.bind_of_ok done]
    exact nextLeads value last given
  | error failure last =>
    rw [done] at given
    rw [Exec.bind_of_error done]
    exact given

/-- A step that looks at the world and then goes on. -/
theorem Rule.leads_read {α β : Type} {rule : Rule} {before : World → Prop} {view : World → α}
    {next : α → Exec β} {after : β → World → Prop}
    (nextLeads : ∀ value, rule.Leads before (next value) after) :
    rule.Leads before (Exec.read view >>= next) after :=
  fun world holds => nextLeads (view world) world holds

theorem Rule.leads_iff_ensures {α : Type} {rule : Rule} {step : Exec α} {property : α → Prop} :
    rule.Leads rule.holds step (fun value world => rule.holds world ∧ property value) ↔
      rule.Ensures step property :=
  ensures_iff.symm

theorem Rule.obeys_iff_leads {α : Type} {rule : Rule} {step : Exec α} :
    rule.Obeys step ↔ rule.Leads rule.holds step fun _ => rule.holds := by
  refine forall_congr' fun world => imp_congr_right fun holds => ?_
  simp only [wp, PredTrans.apply, EStateM.run]
  cases step world <;> rfl

theorem Rule.Ensures.bind {α β : Type} {rule : Rule} {first : Exec α} {next : α → Exec β}
    {property : α → Prop} {result : β → Prop} (ensures : rule.Ensures first property)
    (nextEnsures : ∀ value, property value → rule.Ensures (next value) result) :
    rule.Ensures (first >>= next) result := by
  refine leads_iff_ensures.mp ((leads_iff_ensures.mpr ensures).bind fun value world given => ?_)
  exact leads_iff_ensures.mpr (nextEnsures value given.2) world given.1

/-- A rule that no quiet change breaks, that allows what every function may end with, and that the
calls of a machine keep to. -/
structure Conduct (machine : Machine) extends Rule where
  quiet : ∀ {before after : World}, holds before → before.Quiet after → holds after
  /-- A new exception may be raised. -/
  complaint : ∀ {world : World} (value : Ref), holds world →
    allows (.raised ⟨world.raised.size⟩)
      { world with raised := world.raised.push ⟨value, [], none⟩ }
  fatal : ∀ {world : World} {failure : Failure}, holds world → failure.isFatal →
    allows failure world
  /-- Where an exception is caught, the property holds again. -/
  caught : ∀ {world : World} {id : RaisedId}, allows (.raised id) world → holds world
  call : ∀ callee arguments named, toRule.Obeys (machine.call callee arguments named)

/-- The failure is an exception of a class. -/
def World.isRaised (world : World) (failure : Failure) (builtin : BuiltinClass) : Bool :=
  match failure with
  | .raised id => world.isInstance (world.raisedAt id).value builtin.ref
  | _ => false

namespace Conduct

open Exec

variable {machine : Machine} (conduct : Conduct machine)

/-! ### Steps on the world -/

attribute [spec] Conduct.call

@[spec]
theorem discard_eq {α : Type} (step : Exec α) : discard step = step >>= fun _ => pure () :=
  rfl

/-- Looking something up changes nothing. -/
@[spec]
theorem read_exact {α : Type} (view : World → α)
    (after : PostCond α (.except Failure (.arg World .pure))) :
    ⦃fun world => after.1 (view world) world⦄ read view ⦃after⦄ :=
  fun _ holds => holds

theorem obeys_change (step : World → World) (quiet : ∀ world : World, world.Quiet (step world)) :
    conduct.Obeys (change step) :=
  fun world holds => conduct.quiet holds (quiet world)

/-- An object without a table and without code. -/
@[spec]
theorem obeys_alloc (class_ : Ref) (payload : Payload) :
    conduct.Obeys (alloc ⟨class_, none, payload, none⟩) := by
  intro world holds
  refine conduct.quiet holds (.push _ (fun function found => ?_) fun space _ held => ?_)
  · cases found
  · cases held

/-- An object that is no module. -/
theorem obeys_alloc_other {class_ : Ref} (other : class_ ≠ BuiltinClass.moduleType.ref)
    (space : Option SpaceId) (payload : Payload) :
    conduct.Obeys (alloc ⟨class_, space, payload, none⟩) := by
  intro world holds
  refine conduct.quiet holds (.push _ (fun function found => ?_) fun _ isModule => ?_)
  · cases found
  · exact absurd isModule other

/-- An object whose table is there. -/
theorem leads_alloc (class_ : Ref) (space : SpaceId) (payload : Payload) :
    conduct.Leads (fun world => conduct.holds world ∧ space.index < world.spaces.size)
      (alloc ⟨class_, some space, payload, none⟩) fun _ => conduct.holds := by
  rintro world ⟨holds, bound⟩
  refine conduct.quiet holds (.push _ (fun function found => ?_) fun other _ held => ?_)
  · cases found
  · cases held
    exact .inl bound

theorem obeys_modifyObject (ref : Ref) (step : Object → Object)
    (kept : ∀ object, (step object).class_ = object.class_ ∧
      (step object).function = object.function ∧ (step object).space = object.space) :
    conduct.Obeys (modifyObject ref step) := by
  intro world holds
  obtain ⟨class_, function, space⟩ := kept (world.object ref)
  exact conduct.quiet holds
    (.modify ref step ⟨class_, function, fun _ => space.trans⟩ fun _ held =>
      .inr (space.symm.trans held))

theorem obeys_newSpace {table : Namespace} (settled : table.pending = []) :
    conduct.Obeys (newSpace table) :=
  fun world holds => conduct.quiet holds (.pushSpace world settled)

/-- A new table is there. -/
theorem leads_newSpace {table : Namespace} (settled : table.pending = []) :
    conduct.Leads conduct.holds (newSpace table) fun space world =>
      conduct.holds world ∧ space.index < world.spaces.size :=
  fun world holds => ⟨conduct.quiet holds (.pushSpace world settled), by simp⟩

@[spec]
theorem obeys_newSpace_set (name : String) (value : Ref) :
    conduct.Obeys (newSpace (Namespace.empty.set name value)) :=
  conduct.obeys_newSpace rfl

@[spec]
theorem obeys_newSpace_setAll (entries : List (String × Ref)) :
    conduct.Obeys (newSpace (Namespace.empty.setAll entries)) :=
  conduct.obeys_newSpace (Namespace.pending_setAll rfl entries)

@[spec]
theorem obeys_newSpace_empty : conduct.Obeys (newSpace .empty) :=
  conduct.obeys_newSpace rfl

theorem obeys_modifySpace (space : SpaceId) {step : Namespace → Namespace}
    (settled : ∀ table : Namespace, (step table).pending ⊆ table.pending) :
    conduct.Obeys (modifySpace space step) :=
  fun world holds => conduct.quiet holds (.modifySpace world space settled)

/-- Binding a name settles it. -/
theorem pending_set (name : String) (value : Ref) (table : Namespace) :
    (table.set name value).pending ⊆ table.pending := by
  rw [Namespace.pending_set]
  exact List.filter_subset_self _

@[spec]
theorem obeys_modifySpace_set (space : SpaceId) (name : String) (value : Ref) :
    conduct.Obeys (modifySpace space (·.set name value)) :=
  conduct.obeys_modifySpace space (pending_set name value)

@[spec]
theorem obeys_modifySpace_erase (space : SpaceId) (name : String) :
    conduct.Obeys (modifySpace space (·.erase name)) :=
  conduct.obeys_modifySpace space fun table => by rw [Namespace.pending_erase]; exact .refl _

@[spec]
theorem obeys_newBuffer (buffer : Buffer) : conduct.Obeys (newBuffer buffer) :=
  fun _ holds => conduct.quiet holds (.of_same rfl rfl rfl rfl rfl rfl rfl rfl rfl)

@[spec]
theorem obeys_modifyBuffer (id : BufferId) (step : Array Ref → Array Ref) :
    conduct.Obeys (modifyBuffer id step) :=
  fun _ holds => conduct.quiet holds (.of_same rfl rfl rfl rfl rfl rfl rfl rfl rfl)

@[spec]
theorem obeys_newSlot (value : Ref) : conduct.Obeys (newSlot value) :=
  fun _ holds => conduct.quiet holds (.of_same rfl rfl rfl rfl rfl rfl rfl rfl rfl)

@[spec]
theorem obeys_setSlot (id : SlotId) (value : Ref) : conduct.Obeys (setSlot id value) :=
  fun _ holds => conduct.quiet holds (.of_same rfl rfl rfl rfl rfl rfl rfl rfl rfl)

@[spec]
theorem obeys_setPayload (ref : Ref) (payload : Payload) :
    conduct.Obeys (setPayload ref payload) :=
  conduct.obeys_modifyObject ref _ fun _ => ⟨rfl, rfl, rfl⟩

/-- Only an object without a table gets one. -/
@[spec]
theorem obeys_spaceOf (ref : Ref) : conduct.Obeys (spaceOf ref) := by
  refine (Rule.ensures_iff.mpr fun world holds => ?_ :
    conduct.Ensures (spaceOf ref) fun _ => True).obeys
  cases found : (world.object ref).space with
  | some space =>
    have done : spaceOf ref world = .ok space world := by
      rw [spaceOf, read_bind, found]
      rfl
    rw [done]
    exact ⟨holds, trivial⟩
  | none =>
    let early : World := { world with spaces := world.spaces.push .empty }
    let step (object : Object) : Object := { object with space := some ⟨world.spaces.size⟩ }
    have done : spaceOf ref world =
        .ok ⟨world.spaces.size⟩ { early with objects := early.objects.modify ref.index step } := by
      rw [spaceOf, read_bind, found]
      rfl
    have without : (early.object ref).space = none := found
    rw [done]
    refine ⟨conduct.quiet (conduct.quiet holds (.pushSpace world rfl))
      (.modify ref step ⟨rfl, rfl, fun space held => ?_⟩ fun space held => ?_), trivial⟩
    · cases without.symm.trans held
    · cases held
      exact .inl (by simp)

@[spec]
theorem obeys_setAttribute (ref : Ref) (name : String) (value : Ref) :
    conduct.Obeys (setAttribute ref name value) := by
  mvcgen [setAttribute]

@[spec]
theorem obeys_newValue (builtin : BuiltinClass) (payload : Payload) :
    conduct.Obeys (newValue builtin payload) := by
  mvcgen [newValue]

@[spec]
theorem obeys_newInt (value : Int64) : conduct.Obeys (newInt value) :=
  conduct.obeys_newValue _ _

@[spec]
theorem obeys_newFloat (value : Number.Double) : conduct.Obeys (newFloat value) :=
  conduct.obeys_newValue _ _

@[spec]
theorem obeys_newStr (value : String) : conduct.Obeys (newStr value) :=
  conduct.obeys_newValue _ _

@[spec]
theorem obeys_newTuple (elements : Array Ref) : conduct.Obeys (newTuple elements) :=
  conduct.obeys_newValue _ _

@[spec]
theorem obeys_newDict : conduct.Obeys newDict :=
  conduct.obeys_newValue _ _

@[spec]
theorem obeys_newSet (table : Table Unit) : conduct.Obeys (newSet table) :=
  conduct.obeys_newValue _ _

@[spec]
theorem obeys_newIterator (cursor : Cursor) : conduct.Obeys (newIterator cursor) :=
  conduct.obeys_newValue _ _

@[spec]
theorem obeys_newCount (count : Nat) : conduct.Obeys (newCount count) :=
  conduct.obeys_newInt _

@[spec]
theorem obeys_newListIn (buffer : Buffer) : conduct.Obeys (newListIn buffer) := by
  mvcgen [newListIn]

@[spec]
theorem obeys_newList (elements : Array Ref) : conduct.Obeys (newList elements) :=
  conduct.obeys_newListIn _

@[spec]
theorem obeys_newSlice (start stop step : Ref) : conduct.Obeys (newSlice start stop step) :=
  Rule.obeys_iff_leads.mpr ((conduct.leads_newSpace (Namespace.pending_setAll rfl _)).bind
    fun space => conduct.leads_alloc _ space _)

/-- A module is made for a table that is there. -/
theorem leads_newModule (name : String) (space : SpaceId) :
    conduct.Leads (fun world => conduct.holds world ∧ space.index < world.spaces.size)
      (newModule name space) fun _ => conduct.holds := by
  rintro world ⟨holds, bound⟩
  rw [newModule, read_bind]
  dsimp only
  by_cases unnamed : ((world.namespaceAt space).get? "__name__").isNone = true
  · rw [if_pos unnamed]
    have named := (Rule.obeys_iff_leads.mp (conduct.obeys_newStr name)) world holds
    refine conduct.leads_alloc _ space _ _
      ⟨conduct.quiet named (.modifySpace _ space (pending_set _ _)), ?_⟩
    simpa using bound
  · rw [if_neg unnamed]
    exact conduct.leads_alloc _ space _ world ⟨holds, bound⟩

@[spec]
theorem obeys_newClass (name : String) (base : Option Ref) (space : SpaceId) :
    conduct.Obeys (newClass name base space) := by
  have other : BuiltinClass.klass.ref ≠ BuiltinClass.moduleType.ref := by decide
  have made := conduct.obeys_alloc_other other (some space) .empty
  mvcgen [newClass, made]

/-- A bound method runs the code of the function that it comes from. -/
@[spec]
theorem obeys_toRef (found : World.Found) : conduct.Obeys found.toRef := by
  cases found with
  | value ref => exact fun _ holds => holds
  | method function receiver =>
    intro world holds
    refine conduct.quiet holds (.push _ (fun bound found => ?_) fun space isModule held => ?_)
    · obtain ⟨model, known, rfl⟩ := Option.map_eq_some_iff.mp found
      exact ⟨function, model, known, rfl⟩
    · exact .inr ⟨function, isModule, held⟩

/-! ### Raising -/

@[spec]
theorem obeys_newException (class_ : Ref) (arguments : Array Ref) :
    conduct.Obeys (newException class_ arguments) :=
  Rule.obeys_iff_leads.mpr ((Rule.obeys_iff_leads.mp (conduct.obeys_newTuple arguments)).bind
    fun _ => (conduct.leads_newSpace (Namespace.pending_set_of_settled rfl _ _)).bind
      fun space => conduct.leads_alloc class_ space _)

/-- An exception that was just made may be raised. -/
@[spec]
theorem newRaised_allowed (value : Ref) :
    ⦃fun world => ⌜conduct.holds world⌝⦄ newRaised value
    ⦃post⟨fun id world => ⌜conduct.holds world ∧ conduct.allows (.raised id) world⌝,
      fun failure world => ⌜conduct.allows failure world⌝⟩⦄ :=
  fun world holds => ⟨conduct.quiet holds (.raise world value), conduct.complaint value holds⟩

@[spec]
theorem newComplaint_allowed (complaint : Complaint) :
    ⦃fun world => ⌜conduct.holds world⌝⦄ newComplaint complaint
    ⦃post⟨fun id world => ⌜conduct.holds world ∧ conduct.allows (.raised id) world⌝,
      fun failure world => ⌜conduct.allows failure world⌝⟩⦄ := by
  mvcgen [newComplaint]

/-- A complaint gives no value, so whatever is said of its value holds. -/
theorem ensures_complain {α : Type} (complaint : Complaint) (property : α → Prop) :
    conduct.Ensures (complain complaint) property := by
  mvcgen [complain]
  rename_i made
  exact made.2

@[spec]
theorem obeys_complain {α : Type} (complaint : Complaint) :
    conduct.Obeys (complain complaint : Exec α) :=
  (conduct.ensures_complain complaint fun _ => True).obeys

/-- A step that looks at the world and then goes on. -/
theorem ensures_read {α β : Type} {view : World → α} {next : α → Exec β} {property : β → Prop}
    (nextEnsures : ∀ value, conduct.Ensures (next value) property) :
    conduct.Ensures (read view >>= next) property :=
  Rule.Ensures.bind (fun _ holds => ⟨holds, trivial⟩) fun value (_ : True) => nextEnsures value

@[spec]
theorem obeys_checkPresent (ref : Ref) : conduct.Obeys (checkPresent ref) := by
  mvcgen [checkPresent]
  exact conduct.fatal ‹_› rfl

@[spec]
theorem obeys_typeName (ref : Ref) : conduct.Obeys (typeName ref) :=
  fun _ holds => holds

@[spec]
theorem obeys_moduleName (ref : Ref) : conduct.Obeys (moduleName ref) :=
  fun _ holds => holds

@[spec]
theorem obeys_spanOf (ref : Ref) : conduct.Obeys (spanOf ref) :=
  fun _ holds => holds

@[spec]
theorem obeys_elementOf (span : Span) (position : Nat) : conduct.Obeys (elementOf span position) :=
  fun _ holds => holds

/-- Asking for the class of a failure only looks it up. -/
theorem isRaised_eq (failure : Failure) (builtin : BuiltinClass) :
    isRaised failure builtin = read (·.isRaised failure builtin) := by
  cases failure <;> rfl

/-- What was found to be an exception can be caught. -/
theorem holds_of_isRaised {failure : Failure} {builtin : BuiltinClass} {world : World}
    (allowed : conduct.allows failure world) (isRaised : world.isRaised failure builtin) :
    conduct.holds world := by
  cases failure with
  | raised id => exact conduct.caught allowed
  | _ => cases isRaised

/-! ### Special methods -/

@[spec]
theorem obeys_invoke? (ref : Ref) (name : String) (arguments : List Ref) :
    conduct.Obeys (invoke? machine ref name arguments) := by
  mvcgen [invoke?]

@[spec]
theorem obeys_truthy (ref : Ref) : conduct.Obeys (truthy machine ref) := by
  mvcgen [truthy]

@[spec]
theorem obeys_repr (ref : Ref) : conduct.Obeys (repr machine ref) := by
  mvcgen [Exec.repr]

@[spec]
theorem obeys_str (ref : Ref) : conduct.Obeys (str machine ref) := by
  mvcgen [str]

@[spec]
theorem obeys_reprOnto (found : List String) (refs : List Ref) :
    conduct.Obeys (reprOnto machine found refs) := by
  induction refs generalizing found with
  | nil => mvcgen [reprOnto]
  | cons ref rest inductionHypothesis => mvcgen [reprOnto, inductionHypothesis]

@[spec]
theorem obeys_reprAll (refs : List Ref) : conduct.Obeys (reprAll machine refs) :=
  conduct.obeys_reprOnto [] refs

@[spec]
theorem obeys_reprSpanOnto (span : Span) (found : List String) (count position : Nat) :
    conduct.Obeys (reprSpanOnto machine span found count position) := by
  induction count generalizing found position with
  | zero => mvcgen [reprSpanOnto]
  | succ count inductionHypothesis => mvcgen [reprSpanOnto, inductionHypothesis]

@[spec]
theorem obeys_reprSpan (span : Span) : conduct.Obeys (reprSpan machine span) :=
  conduct.obeys_reprSpanOnto span [] span.size 0

/-! ### Iterating -/

@[spec]
theorem obeys_iter (ref : Ref) : conduct.Obeys (iter machine ref) := by
  mvcgen [iter]

@[spec]
theorem obeys_advance (iterator : Ref) (cursor : Cursor) :
    conduct.Obeys (advance iterator cursor) := by
  mvcgen [advance]

@[spec]
theorem obeys_next? (iterator : Ref) : conduct.Obeys (next? machine iterator) := by
  mvcgen [next?, isRaised_eq]
  rename_i allowed isRaised
  exact conduct.holds_of_isRaised allowed isRaised

/-- A loop keeps to a conduct if each of its rounds does. -/
theorem obeys_repeatUntil {α σ : Type} (round : σ → Exec (Except σ α)) (budget : Nat) (state : σ)
    (obeys : ∀ state, conduct.Obeys (round state)) :
    conduct.Obeys (repeatUntil round budget state) := by
  induction budget generalizing state with
  | zero =>
    mvcgen [repeatUntil]
    exact conduct.fatal ‹_› rfl
  | succ budget inductionHypothesis => mvcgen [repeatUntil, obeys, inductionHypothesis]

@[spec]
theorem obeys_drain (iterator : Ref) : conduct.Obeys (drain machine iterator) := by
  refine conduct.obeys_repeatUntil _ _ _ fun found => ?_
  mvcgen

@[spec]
theorem obeys_collect (ref : Ref) : conduct.Obeys (collect machine ref) := by
  mvcgen [collect]

/-! ### Comparing and hashing -/

@[spec]
theorem obeys_equal (left right : Ref) : conduct.Obeys (equal machine left right) := by
  mvcgen [equal]

@[spec]
theorem obeys_checkHashable (ref : Ref) : conduct.Obeys (checkHashable ref) := by
  mvcgen [checkHashable]

@[spec]
theorem obeys_hash (ref : Ref) : conduct.Obeys (Exec.hash machine ref) := by
  mvcgen [Exec.hash]

/-! ### Operators -/

@[spec]
theorem obeys_unsupported {α : Type} (operator : String) (left right : Ref) :
    conduct.Obeys (unsupported operator left right : Exec α) := by
  mvcgen [unsupported]

@[spec]
theorem obeys_contains (left right : Ref) : conduct.Obeys (contains machine left right) := by
  mvcgen [contains]

@[spec]
theorem obeys_subtract (left right : Ref) : conduct.Obeys (subtract machine left right) := by
  mvcgen [subtract, isRaised_eq]
  rename_i allowed isRaised
  exact conduct.holds_of_isRaised allowed isRaised

/-- Every operator but the two that look at their right operand only if needed. -/
@[spec]
theorem obeys_binaryOperation (operator : BinaryOperator) (left right : Ref)
    (known : isShortCircuit operator = false) :
    conduct.Obeys (binaryOperation machine operator left right) := by
  cases operator <;> mvcgen [binaryOperation, operatorMethod?]

@[spec]
theorem obeys_lessThan (left right : Ref) : conduct.Obeys (lessThan machine left right) := by
  mvcgen [lessThan]

/-! ### Attributes and items -/

@[spec]
theorem obeys_getAttribute (ref : Ref) (name : String) :
    conduct.Obeys (getAttribute ref name) := by
  mvcgen [getAttribute]

@[spec]
theorem obeys_getItem (ref index : Ref) : conduct.Obeys (getItem machine ref index) := by
  mvcgen [getItem]

@[spec]
theorem obeys_setItem (ref index value : Ref) :
    conduct.Obeys (setItem machine ref index value) := by
  mvcgen [setItem]

@[spec]
theorem obeys_deleteItem (ref index : Ref) : conduct.Obeys (deleteItem machine ref index) := by
  mvcgen [deleteItem]

end Conduct

end Offside
