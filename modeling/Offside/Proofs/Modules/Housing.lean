/-
This file says where modules live and how the run of a file makes one. Whatever a run does,
objects and tables of names stay where they are, an object keeps its class, and its table
once it has one. So a module that was made with a table of names keeps it.
-/

import Offside.Proofs.Course
import Offside.Proofs.Reached

namespace Offside

/-! ### What lasts -/

namespace World

theorem Lasts.refl (world : World) : world.Lasts world :=
  .of_same rfl rfl

theorem lasts_announce (world : World) (space : SpaceId) (name : String) :
    world.Lasts { world with spaces := world.spaces.modify space.index (·.announce name) } :=
  .of_objects rfl (Nat.le_of_eq Array.size_modify.symm)

end World

/-- Objects and tables stay where they are. -/
def Trail.lasting : Trail where
  leads := World.Lasts
  refl := .refl
  trans := .trans
  quiet quiet := quiet.lasts
  recording _ _ _ := .of_same rfl rfl
  linking world id below := (world.calm_link id below).lasts
  handled led := ⟨led.objects, led.spaces, led.class_, led.space⟩
  called _ led := ⟨led.objects, led.spaces, led.class_, led.space⟩
  defining world object _ := .push world object
  loading _ _ _ := .of_same rfl rfl

theorem Trail.lasting_forSessions : Trail.lasting.ForSessions where
  registering _ _ := .of_same rfl rfl
  announcing := World.lasts_announce
  writing _ _ := .of_same rfl rfl

namespace World

/-- A table that binds a name is there. -/
theorem bound_of_get? {world : World} {space : SpaceId} {name : String} {value : Ref}
    (known : (world.namespaceAt space).get? name = some value) :
    space.index < world.spaces.size := by
  by_contra outside
  rw [namespaceAt, Array.getD_eq_getD_getElem?,
    Array.getElem?_eq_none (Nat.not_lt.mp outside)] at known
  cases known

/-- No module is the object of vacant cells, in a world that a session leads to. -/
theorem Lasts.ne_vacantRef {host : Host} {searchPath : List String} {world : World}
    (begun : (bare host searchPath).Lasts world) {ref : Ref}
    (class_ : (world.object ref).class_ = BuiltinClass.moduleType.ref) : ref ≠ vacantRef := by
  rintro rfl
  have there : vacantRef.index < (bare host searchPath).objects.size := by
    change vacantRef.index < bareObjects.size
    decide
  have known : ((bare host searchPath).object vacantRef).class_ = BuiltinClass.noneType.ref := by
    change (bareObjects.getD vacantRef.index default).class_ = _
    decide
  rw [begun.class_ vacantRef there, known] at class_
  exact absurd class_ (by decide)

end World

/-! ### Housed modules -/

/-- The object is a module, and its table of names is there. -/
structure World.Housed (world : World) (ref : Ref) : Prop where
  class_ : (world.object ref).class_ = BuiltinClass.moduleType.ref
  table : ∃ space : SpaceId, (world.object ref).space = some space ∧
    space.index < world.spaces.size

namespace World

variable {world before after : World} {ref : Ref}

theorem Housed.bound (housed : world.Housed ref) : ref.index < world.objects.size := by
  obtain ⟨space, held, -⟩ := housed.table
  exact bound_of_space held

theorem Housed.last (housed : before.Housed ref) (lasts : before.Lasts after) :
    after.Housed ref where
  class_ := by rw [lasts.class_ ref housed.bound, housed.class_]
  table := by
    obtain ⟨space, held, bound⟩ := housed.table
    exact ⟨space, lasts.space ref space held, bound.trans_le lasts.spaces⟩

theorem Housed.isModule (housed : world.Housed ref) : Exec.isModule world ref = true := by
  rw [Exec.isModule, housed.class_, beq_self_eq_true]

end World

/-! ### Making modules -/

namespace Exec

open Course

variable {machine : Machine}

theorem still_newModuleSpace (name file : String) : still.Follows (newModuleSpace name file) :=
  still_of_obeys fun conduct => conduct.obeys_newModuleSpace name file

theorem still_newFileModule (name file : String) : still.Follows (newFileModule name file) :=
  still_of_obeys fun conduct => conduct.obeys_newFileModule name file

theorem leftBy_bind_pure {α β : Type} (step : Exec α) (value : α → β) (world : World) :
    World.leftBy ((step >>= fun result => pure (value result)) world) =
      World.leftBy (step world) := by
  cases done : step world with
  | ok result after =>
    rw [bind_of_ok done]
    rfl
  | error failure after =>
    rw [bind_of_error done]
    rfl

/-- Nothing that comes from outside has changed: neither what the host has, nor what was requested
of the session. -/
structure SameOutside (before after : World) : Prop where
  host : after.host = before.host
  interrupted : after.interrupted = before.interrupted

theorem SameOutside.trans {before middle after : World} (early : SameOutside before middle)
    (late : SameOutside middle after) : SameOutside before after :=
  ⟨late.host.trans early.host, late.interrupted.trans early.interrupted⟩

/-- A module is made with its table, and is a new object. -/
theorem newModule_housed (name : String) {space : SpaceId} {world : World}
    (bound : space.index < world.spaces.size) :
    ∃ module_ after, newModule name space world = .ok module_ after ∧ after.Housed module_ ∧
      world.objects.size ≤ module_.index ∧ SameOutside world after := by
  have stepped : ∃ middle : World, world.Lasts middle ∧ SameOutside world middle ∧
      newModule name space world =
        alloc ⟨BuiltinClass.moduleType.ref, some space, .empty, none⟩ middle := by
    unfold newModule
    change ∃ middle : World, _ ∧ _ ∧ (ite _ _ _ : Exec Ref) world = _
    split
    · let text : Object := ⟨BuiltinClass.str.ref, none, .str name, none⟩
      let early : World := { world with objects := world.objects.push text }
      refine ⟨{ early with
        spaces := early.spaces.modify space.index (·.set "__name__" ⟨world.objects.size⟩) },
        World.Lasts.trans (.push world text) ?_, ⟨rfl, rfl⟩, rfl⟩
      exact ⟨Nat.le_refl _, by simp [early], fun _ _ => rfl, fun _ _ => id⟩
    · exact ⟨world, .refl world, ⟨rfl, rfl⟩, rfl⟩
  obtain ⟨middle, lasts, outside, same⟩ := stepped
  let new : Object := ⟨BuiltinClass.moduleType.ref, some space, .empty, none⟩
  let after : World := { middle with objects := middle.objects.push new }
  have found : after.object ⟨middle.objects.size⟩ = new := by
    simp [after, World.object]
  exact ⟨_, after, same.trans rfl,
    ⟨by rw [found], space, by rw [found], bound.trans_le lasts.spaces⟩, lasts.objects,
    outside.trans ⟨rfl, rfl⟩⟩

/-- A module's table is made. -/
theorem newModuleSpace_makes (name file : String) (world : World) :
    ∃ space after, newModuleSpace name file world = .ok space after ∧
      space.index < after.spaces.size ∧ SameOutside world after ∧
      after.searchPath = world.searchPath :=
  ⟨_, _, rfl, by simp, ⟨rfl, rfl⟩, rfl⟩

/-- What a module needs before its file is run. -/
theorem makeModule (name file : String) (world : World) :
    ∃ space module_ ready, newFileModule name file world = .ok (space, module_) ready ∧
      world.Calm ready ∧ ready.Housed module_ ∧ world.objects.size ≤ module_.index ∧
      SameOutside world ready := by
  obtain ⟨space, middle, spaceMade, bound, same, -⟩ := newModuleSpace_makes name file world
  have early := (still_newModuleSpace name file).of_ok spaceMade
  obtain ⟨module_, ready, moduleMade, housed, new, outside⟩ := newModule_housed name bound
  have made : newFileModule name file world = .ok (space, module_) ready := by
    rw [newFileModule, bind_of_ok spaceMade, bind_of_ok moduleMade]
    rfl
  exact ⟨space, module_, ready, made, (still_newFileModule name file).of_ok made, housed,
    early.lasts.objects.trans new, same.trans outside⟩

/-- A file is run once its module is made. -/
theorem loadFresh_eq {path name : String} {world ready : World} {space : SpaceId} {module_ : Ref}
    (made : newFileModule name path { world with registry := world.registry.begin path name } =
      .ok (space, module_) ready) :
    loadFresh machine path name world = (do
      complete path module_ (runModule machine path .imported module_ space)
      return module_) ready := by
  rw [loadFresh, bind_of_ok (rfl : modifyRegistry (·.begin path name) world = .ok () _),
    bind_of_ok made]

/-! ### How the run of a file ends -/

section Complete

variable {path : String} {module_ : Ref} {body : Exec Unit} {world after : World}

variable {machine : Machine} {purpose : Purpose} {space : SpaceId}

theorem runModule_of_error {failure : Failure} (failed : runPath machine path space
      { world with registry := world.registry.note (.started path purpose) } =
        .error failure after) :
    runModule machine path purpose module_ space world =
      .error failure { after with registry := after.registry.note (.failed path) } := by
  rw [runModule, bind_of_ok (rfl : modifyRegistry _ world = .ok () _)]
  exact bind_of_error ((tryCatch_error failed).trans rfl)

theorem runModule_of_ok (done : runPath machine path space
      { world with registry := world.registry.note (.started path purpose) } = .ok () after) :
    runModule machine path purpose module_ space world =
      .ok () { after with registry := after.registry.note (.finished path module_) } := by
  rw [runModule, bind_of_ok (rfl : modifyRegistry _ world = .ok () _),
    bind_of_ok (tryCatch_ok done)]
  rfl

/-- A module whose file failed is given up. -/
theorem complete_of_error {failure : Failure} (failed : body world = .error failure after) :
    complete path module_ body world =
      .error failure { after with registry := after.registry.abandon path } := by
  have abandoned : (tryCatch body fun failure => do
      modifyRegistry (·.abandon path)
      throw failure : Exec Unit) world =
        .error failure { after with registry := after.registry.abandon path } :=
    (tryCatch_error failed).trans rfl
  rw [complete, bind_of_error abandoned]

/-- A module whose file was run to its end is kept, and then what waits for it is bound. -/
theorem complete_of_ok (done : body world = .ok () after) :
    complete path module_ body world =
      (((after.registry.running? path).elim [] Job.deferred).forM (carryOut path module_) :
        Exec Unit) { after with registry := after.registry.finish path module_ } := by
  rw [complete, bind_of_ok (tryCatch_ok done), read_bind]
  cases after.registry.running? path <;> rfl

end Complete

end Exec

end Offside
