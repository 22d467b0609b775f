/-
This file proves how modules are loaded. Whatever a run does, it leaves the registry as
imports do: every import that was running when a step began is running when the step ends,
whether it fails or not, and what was loaded stays loaded. Since a file is only started
for an import that finds it neither loaded nor running, no file is started twice at a
time, and none is run again once it has a module.

A session can also run a file as the main program. Then the file is run again if it has a
module, and its new module takes the place of the old one; while it is running, imports
still find the old one.
-/

import Offside.Proofs.Modules.Housing
import Offside.Proofs.Modules.Registry

namespace Offside

/-! ### Binding -/

namespace Exec

open Course

theorem still_settleDeferred (module_ : Ref) (binding : Deferred) :
    still.Follows (settleDeferred module_ binding) := by
  cases binding with
  | bindModule env path newName =>
    exact still_of_obeys fun conduct => conduct.obeys_bindModule env path newName module_
  | bindNames env path names location =>
    refine follows_traced ?_ location env
    exact still_of_obeys fun conduct => conduct.obeys_bindNames env path module_ names

/-- The journal tells whether a binding could be carried out. -/
theorem carryOut_cases (path : String) (module_ : Ref) (binding : Deferred) (world : World) :
    (∃ after, settleDeferred module_ binding world = .ok () after ∧
      carryOut path module_ binding world = .ok ()
        { after with registry := world.registry.note (.settled path module_ binding) }) ∨
    ∃ failure after, settleDeferred module_ binding world = .error failure after ∧
      carryOut path module_ binding world = .error failure
        { after with registry := world.registry.note (.unsettled path module_ binding) } := by
  unfold carryOut
  cases done : settleDeferred module_ binding world with
  | ok value after =>
    have calm := (still_settleDeferred module_ binding).of_ok done
    refine .inl ⟨after, rfl, ?_⟩
    rw [bind_of_ok (tryCatch_ok done), ← calm.registry]
    rfl
  | error failure after =>
    have calm := (still_settleDeferred module_ binding).of_error done
    refine .inr ⟨failure, after, rfl, ?_⟩
    rw [← calm.registry]
    exact bind_of_error ((tryCatch_error done).trans rfl)

theorem carryAll_registry (path : String) (module_ : Ref) (owed : List Deferred) (world : World) :
    ∃ notes, Registry.Settlement path module_ owed notes ∧
      (World.leftBy ((owed.forM (carryOut path module_) : Exec Unit) world)).registry =
        world.registry.noteAll notes := by
  induction owed generalizing world with
  | nil => exact ⟨[], .done, rfl⟩
  | cons binding rest inductionHypothesis =>
    have unfolded : ((binding :: rest).forM (carryOut path module_) : Exec Unit) =
        carryOut path module_ binding >>= fun _ => rest.forM (carryOut path module_) := rfl
    obtain ⟨after, -, done⟩ | ⟨failure, after, -, failed⟩ :=
      carryOut_cases path module_ binding world
    · obtain ⟨notes, settlement, registry⟩ := inductionHypothesis
        { after with registry := world.registry.note (.settled path module_ binding) }
      refine ⟨_, .settled settlement, ?_⟩
      rw [unfolded, bind_of_ok done]
      refine registry.trans ?_
      rw [Registry.noteAll, Registry.noteAll, List.append_assoc]
      rfl
    · refine ⟨_, .stopped, ?_⟩
      rw [unfolded, bind_of_error failed]
      rfl

end Exec

/-! ### Loading -/

/-- The registry is left as imports leave it. -/
def Course.advancing : Course where
  leads before after := before.registry.Advances after.registry
  refl _ := .refl _
  trans first last := first.trans last
  calm calm := by
    rw [calm.registry]
    exact .refl _

namespace Exec

open Course

variable {machine : Machine}

theorem complete_registry (path : String) (purpose : Purpose) (module_ : Ref) {space : SpaceId}
    (follows : advancing.Follows (runPath machine path space)) (world : World) :
    Registry.Completes path module_ (world.registry.note (.started path purpose))
      (World.leftBy (complete path module_ (runModule machine path purpose module_ space)
        world)).registry := by
  let started : World := { world with registry := world.registry.note (.started path purpose) }
  cases done : runPath machine path space started with
  | error failure after =>
    have advances : started.registry.Advances after.registry := follows.of_error done
    rw [complete_of_error (runModule_of_error done)]
    exact .failed advances
  | ok value after =>
    have advances : started.registry.Advances after.registry := follows.of_ok done
    let noted := after.registry.note (.finished path module_)
    obtain ⟨notes, settlement, registry⟩ := carryAll_registry path module_
      (after.registry.waiting path) { after with registry := noted.finish path module_ }
    have completes := Registry.Completes.finished advances settlement
    rw [← registry] at completes
    rw [complete_of_ok (runModule_of_ok done)]
    exact completes

theorem loadFresh_registry (follows : machine.Follows advancing) (path name : String)
    (world : World) : ∃ module_,
    Registry.Completes path module_
      ((world.registry.begin path name).note (.started path .imported))
      (World.leftBy (loadFresh machine path name world)).registry := by
  let begun : World := { world with registry := world.registry.begin path name }
  obtain ⟨space, module_, ready, made, calm, -⟩ := makeModule name path begun
  have body := complete_registry path .imported module_ (follows.follows_runPath path space) ready
  refine ⟨module_, ?_⟩
  rw [calm.registry] at body
  rw [loadFresh_eq made, leftBy_bind_pure]
  exact body

section Load

variable {name directory path : String} {world : World}

theorem load_unresolved (unresolved : world.resolve? name directory = none) :
    load machine name directory world = complain (.noModule name) world := by
  rw [load, read_bind, unresolved]

/-- A module that was loaded is found, and the file is left alone. -/
theorem load_found {module_ : Ref} (resolved : world.resolve? name directory = some path)
    (loaded : world.registry.loaded? path = some module_) :
    load machine name directory world =
      .ok (.ready module_)
        { world with registry := world.registry.note (.found path module_) } := by
  rw [load, read_bind, resolved]
  dsimp only
  rw [read_bind, loaded]
  rfl

theorem load_unfinished {job : Job} (resolved : world.resolve? name directory = some path)
    (unloaded : world.registry.loaded? path = none)
    (running : world.registry.running? path = some job) :
    load machine name directory world = .ok (.unfinished path job.name) world := by
  rw [load, read_bind, resolved]
  dsimp only
  rw [read_bind, unloaded, running]
  rfl

theorem load_fresh (resolved : world.resolve? name directory = some path)
    (unloaded : world.registry.loaded? path = none)
    (idle : world.registry.running? path = none) :
    load machine name directory world =
      (do return Loaded.ready (← loadFresh machine path name)) world := by
  rw [load, read_bind, resolved]
  dsimp only
  rw [read_bind, unloaded, idle]

/-- The import statement binds the module that was loaded. -/
theorem importModule_found {env : Env} {location : Location} {names : List String}
    {newName : Option String} {module_ : Ref}
    (resolved : world.resolve? (dotted names)
      (Path.directory world.host.files.working location.file) = some path)
    (loaded : world.registry.loaded? path = some module_) :
    importModule machine env location names newName world =
      bindModule env names newName module_
        { world with registry := world.registry.note (.found path module_) } := by
  rw [importModule, directoryOf, read_bind]
  exact bind_of_ok (load_found resolved loaded)

theorem importNames_found {env : Env} {location : Location} {module_ : Ref} {place : List String}
    {names : Option (List String)}
    (resolved : world.resolve? (dotted place)
      (Path.directory world.host.files.working location.file) = some path)
    (loaded : world.registry.loaded? path = some module_) :
    importNames machine env location place names world =
      names.elim (bindPublic env module_) (bindNames env place module_)
        { world with registry := world.registry.note (.found path module_) } := by
  rw [importNames, directoryOf, read_bind, bind_of_ok (load_found resolved loaded)]
  cases names <;> rfl

theorem startImport_found {module_ : Ref} (resolved : world.resolve? name "." = some path)
    (loaded : world.registry.loaded? path = some module_) :
    startImport machine name world = .ok ⟨(world.object module_).space, none⟩
      { world with registry := world.registry.note (.found path module_) } :=
  bind_of_ok (attempt_ok (load_found resolved loaded))

/-- A file whose import failed is not loaded. -/
theorem loaded?_load_of_failed (follows : machine.Follows advancing)
    (resolved : world.resolve? name directory = some path)
    (unloaded : world.registry.loaded? path = none)
    (idle : world.registry.running? path = none)
    (failed : (World.leftBy (load machine name directory world)).registry.journal.head? =
      some (.failed path)) :
    (World.leftBy (load machine name directory world)).registry.loaded? path = none := by
  rw [load_fresh resolved unloaded idle, leftBy_bind_pure] at failed ⊢
  obtain ⟨module_, completes⟩ := loadFresh_registry follows path name world
  exact completes.loaded?_of_failed unloaded failed

end Load

theorem follows_load (follows : machine.Follows advancing) (name directory : String) :
    advancing.Follows (load machine name directory) := by
  intro world
  change world.registry.Advances _
  cases resolved : world.resolve? name directory with
  | none =>
    rw [load_unresolved resolved]
    exact follows.follows_complain _ world
  | some path =>
    cases loaded : world.registry.loaded? path with
    | some module_ =>
      rw [load_found resolved loaded]
      exact Registry.advances_found loaded
    | none =>
      cases running : world.registry.running? path with
      | some job =>
        rw [load_unfinished resolved loaded running]
        exact .refl _
      | none =>
        obtain ⟨module_, completes⟩ := loadFresh_registry follows path name world
        rw [load_fresh resolved loaded running, leftBy_bind_pure]
        exact completes.advances loaded running

/-! ### Import statements -/

theorem complain_ne_ok {α : Type} (complaint : Complaint) {value : α} {world after : World} :
    complain complaint world ≠ .ok value after := by
  intro done
  obtain ⟨_, _, _, thrown⟩ := exists_of_bind_eq_ok done
  cases thrown

/-- What is found unfinished is running, and nothing has happened. -/
theorem load_eq_unfinished {name directory path running : String} {world after : World}
    (found : load machine name directory world = .ok (.unfinished path running) after) :
    after = world ∧ ∃ job, world.registry.running? path = some job := by
  cases resolved : world.resolve? name directory with
  | none =>
    rw [load_unresolved resolved] at found
    exact absurd found (complain_ne_ok _)
  | some place =>
    cases loaded : world.registry.loaded? place with
    | some module_ =>
      rw [load_found resolved loaded] at found
      cases found
    | none =>
      cases job? : world.registry.running? place with
      | some job =>
        rw [load_unfinished resolved loaded job?] at found
        cases found
        exact ⟨rfl, job, job?⟩
      | none =>
        rw [load_fresh resolved loaded job?] at found
        cases done : loadFresh machine place name world with
        | ok =>
          rw [bind_of_ok done] at found
          cases found
        | error =>
          rw [bind_of_error done] at found
          cases found

/-- Announcing names succeeds, and nothing else becomes pending. -/
theorem announceAll_succeeds (env : Env) (names : List String) (world : World) :
    ∃ after, announceAll env names world = .ok () after ∧ after.registry = world.registry ∧
      after.objects = world.objects ∧ after.spaces.size = world.spaces.size ∧
      ∀ (space : SpaceId) (name : String), after.isPending space name = true →
        world.isPending space name = true ∨
          (∃ frame ∈ env.head?, frame.space = space) ∧ name ∈ names := by
  induction names generalizing world with
  | nil => exact ⟨world, rfl, rfl, rfl, rfl, fun _ _ => .inl⟩
  | cons first rest inductionHypothesis =>
    obtain ⟨middle, announced, same, objects, spaces, waits⟩ : ∃ middle,
        modifyFrame env (·.announce first) world = .ok () middle ∧
          middle.registry = world.registry ∧ middle.objects = world.objects ∧
          middle.spaces.size = world.spaces.size ∧
          ∀ (space : SpaceId) (name : String), middle.isPending space name = true →
            world.isPending space name = true ∨
              (∃ frame ∈ env.head?, frame.space = space) ∧ name = first := by
      cases env with
      | nil => exact ⟨world, rfl, rfl, rfl, rfl, fun _ _ => .inl⟩
      | cons frame outer =>
        refine ⟨_, rfl, rfl, rfl, Array.size_modify, fun space name waits => ?_⟩
        exact (World.isPending_announce waits).imp_right fun ⟨here, isFirst⟩ =>
          ⟨⟨frame, rfl, here.symm⟩, isFirst⟩
    obtain ⟨after, others, sameRest, objectsRest, spacesRest, waitsRest⟩ :=
      inductionHypothesis middle
    refine ⟨after, (bind_of_ok announced).trans others, sameRest.trans same,
      objectsRest.trans objects, spacesRest.trans spaces, ?_⟩
    intro space name late
    obtain early | ⟨here, inside⟩ := waitsRest space name late
    · exact (waits space name early).imp_right fun ⟨here, isFirst⟩ =>
        ⟨here, List.mem_cons.mpr (.inl isFirst)⟩
    · exact .inr ⟨here, List.mem_cons_of_mem _ inside⟩

/-- A binding that waits is entered where its import is running. -/
theorem deferred_registry (env : Env) (names : List String) {path : String} {job : Job}
    {world : World} (running : world.registry.running? path = some job) (binding : Deferred) :
    world.registry.Advances (World.leftBy ((do
      announceAll env names
      postpone path binding : Exec Unit) world)).registry := by
  obtain ⟨after, announced, same, -⟩ := announceAll_succeeds env names world
  rw [bind_of_ok announced, ← same]
  rw [← same] at running
  exact Registry.advances_defer running binding

theorem follows_importModule (follows : machine.Follows advancing) (env : Env)
    (location : Location) (path : List String) (newName : Option String) :
    advancing.Follows (importModule machine env location path newName) := by
  refine follows_read fun directory world => ?_
  cases done : load machine (dotted path) directory world with
  | error failure after =>
    rw [bind_of_error done]
    exact (follows_load follows _ _).of_error done
  | ok loaded after =>
    have advances : world.registry.Advances after.registry := (follows_load follows _ _).of_ok done
    rw [bind_of_ok done]
    cases loaded with
    | ready module_ =>
      have bound : still.Follows (bindModule env path newName module_) :=
        still_of_obeys fun conduct => conduct.obeys_bindModule env path newName module_
      exact advancing.trans advances (bound.of_still after)
    | unfinished place running =>
      obtain ⟨rfl, job, known⟩ := load_eq_unfinished done
      exact deferred_registry env _ known _

theorem follows_importNames (follows : machine.Follows advancing) (env : Env)
    (location : Location) (path : List String) (names : Option (List String)) :
    advancing.Follows (importNames machine env location path names) := by
  refine follows_read fun directory world => ?_
  cases done : load machine (dotted path) directory world with
  | error failure after =>
    rw [bind_of_error done]
    exact (follows_load follows _ _).of_error done
  | ok loaded after =>
    have advances : world.registry.Advances after.registry := (follows_load follows _ _).of_ok done
    rw [bind_of_ok done]
    cases loaded with
    | ready module_ =>
      refine advancing.trans advances ?_
      cases names with
      | none =>
        have bound : still.Follows (bindPublic env module_) :=
          still_of_obeys fun conduct => conduct.obeys_bindPublic env module_
        exact bound.of_still after
      | some names =>
        have bound : still.Follows (bindNames env path module_ names) :=
          still_of_obeys fun conduct => conduct.obeys_bindNames env path module_ names
        exact bound.of_still after
    | unfinished place running =>
      obtain ⟨rfl, job, known⟩ := load_eq_unfinished done
      cases names with
      | none => exact follows.follows_complain _ after
      | some names => exact deferred_registry env _ known _

theorem advancing_coversImports : advancing.CoversImports :=
  ⟨follows_load, follows_importModule, follows_importNames⟩

end Exec

/-- Whatever a run does, it leaves the registry as imports do. -/
theorem Machine.ofFuel_advancing (fuel : Nat) : (Machine.ofFuel fuel).Follows Course.advancing :=
  Machine.ofFuel_follows Exec.advancing_coversImports fuel

theorem Machine.standard_advancing : Machine.standard.Follows Course.advancing :=
  Machine.ofFuel_advancing fuelOfRun

end Offside
