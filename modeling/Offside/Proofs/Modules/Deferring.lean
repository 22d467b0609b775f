/-
This file proves what becomes of names that were announced. An import inside of a cycle
announces the names that it would bind, and the binding waits for the other import. If
that import succeeds, the bindings that wait for it are carried out one after the other,
and a binding that was carried out leaves none of its names pending. They mean the module then, or
what they mean in the module; under a dotted name its first part is bound, and from there on the
parts lead to the module.

Nothing makes up for a binding that was not carried out. If the other import fails, the
bindings that wait for it are given up, and so are those behind a binding that fails
itself, even though the module they wait for is loaded by then. Between the runs of a
session this is the only reason why a name can be pending.
-/

import Offside.Proofs.Modules.Packages

namespace Offside

/-! ### Carrying out a binding -/

namespace Deferred

/-- The scope in which names are to be bound. -/
def env : Deferred → Env
  | .bindModule env _ _ => env
  | .bindNames env _ _ _ => env

/-- The names that are announced. -/
def names : Deferred → List String
  | .bindModule _ path newName => [Exec.importedName path newName]
  | .bindNames _ _ names _ => names

/-- The name is announced in this table, which is the innermost one of the scope. -/
def Announces (binding : Deferred) (space : SpaceId) (name : String) : Prop :=
  (∃ frame ∈ binding.env.head?, frame.space = space) ∧ name ∈ binding.names

/-- What a name stands for when the binding was carried out: the module itself, or what the name
stands for in the module. From the first part of a longer path on, the parts lead to the module. -/
def Gives (binding : Deferred) (module_ : Ref) (before after : World) (name : String)
    (value? : Option Ref) : Prop :=
  match binding with
  | .bindModule _ (first :: second :: rest) none =>
    after.Arrives value? first (second :: rest) module_
  | .bindModule .. => value? = some module_
  | .bindNames .. => value?.isSome = true ∧ value? = before.ownAttribute? module_ name

/-- None of the names is pending any more, and they stand for what they should. -/
def Binds (binding : Deferred) (module_ : Ref) (before after : World) : Prop :=
  ∀ {space : SpaceId} {name : String}, binding.Announces space name →
    after.isPending space name = false ∧ (space.index < before.spaces.size →
      binding.Gives module_ before after name ((after.namespaceAt space).get? name))

end Deferred

namespace Exec

open Course

section Binding

variable {frame : Frame} {outer : Env} {name : String} {value : Ref} {before after : World}

theorem size_of_bindName (done : bindName (frame :: outer) name value before = .ok () after) :
    after.spaces.size = before.spaces.size := by
  cases done
  exact Array.size_modify

/-- A name that was bound is not pending. -/
theorem not_pending_of_bindName
    (done : bindName (frame :: outer) name value before = .ok () after) :
    after.isPending frame.space name = false := by
  cases done
  rw [World.isPending]
  by_cases bound : frame.space.index < before.spaces.size
  · rw [World.namespaceAt_modify bound, Namespace.isPending_set]
  · rw [World.namespaceAt_modify_of_le (Nat.le_of_not_lt bound)]
    rfl

theorem get?_of_bindName (done : bindName (frame :: outer) name value before = .ok () after)
    (bound : frame.space.index < before.spaces.size) (other : String) :
    (after.namespaceAt frame.space).get? other =
      if other = name then some value else (before.namespaceAt frame.space).get? other := by
  cases done
  rw [World.namespaceAt_modify bound, Namespace.get?_set]

/-- Taking a name over from a module does not change the module, even if the scope is its own. -/
theorem ownAttribute?_of_bindName {env : Env} {module_ : Ref}
    (known : before.ownAttribute? module_ name = some value)
    (done : bindName env name value before = .ok () after) (other : String) :
    after.ownAttribute? module_ other = before.ownAttribute? module_ other := by
  cases env with
  | nil =>
    cases done
    rfl
  | cons frame outer =>
    have object : after.object module_ = before.object module_ := by
      cases done
      rfl
    unfold World.ownAttribute? World.attributes at known ⊢
    rw [object]
    cases space : (before.object module_).space with
    | none =>
      rw [space] at known
    | some own =>
      rw [space] at known
      dsimp only at known ⊢
      by_cases same : own = frame.space
      · subst same
        rw [get?_of_bindName done (World.bound_of_get? known)]
        split
        · next isName => rw [isName, known]
        · rfl
      · cases done
        rw [World.namespaceAt_modify_of_ne same]

end Binding

theorem bindNames_binds {frame : Frame} {outer : Env} {path names : List String} {module_ : Ref}
    {before after : World}
    (done : bindNames (frame :: outer) path module_ names before = .ok () after)
    (bound : frame.space.index < before.spaces.size) :
    (∀ name ∈ names, (before.ownAttribute? module_ name).isSome = true) ∧
    ∀ name, (after.namespaceAt frame.space).get? name =
      if name ∈ names then before.ownAttribute? module_ name
      else (before.namespaceAt frame.space).get? name := by
  induction names generalizing before with
  | nil =>
    cases done
    simp
  | cons first rest inductionHypothesis =>
    rw [bindNames, read_bind] at done
    cases known : before.ownAttribute? module_ first with
    | none =>
      rw [known] at done
      exact absurd done (complain_ne_ok _)
    | some value =>
      rw [known] at done
      obtain ⟨middle, bindDone⟩ : ∃ middle,
          bindName (frame :: outer) first value before = .ok () middle := ⟨_, rfl⟩
      have restDone := (bind_of_ok bindDone).symm.trans done
      have restBound : frame.space.index < middle.spaces.size := by
        rwa [size_of_bindName bindDone]
      obtain ⟨found, table⟩ := inductionHypothesis restDone restBound
      have same := ownAttribute?_of_bindName known bindDone
      refine ⟨fun name inside => ?_, fun name => ?_⟩
      · rcases List.mem_cons.mp inside with rfl | inside
        · rw [known]
          rfl
        · rw [← same]
          exact found name inside
      · rw [table, same, get?_of_bindName bindDone bound]
        by_cases isFirst : name = first
        · subst isFirst
          simp [known]
        · simp [isFirst]

theorem not_pending_of_bindNames {frame : Frame} {outer : Env} {path names : List String}
    {module_ : Ref} {before after : World}
    (done : bindNames (frame :: outer) path module_ names before = .ok () after) {name : String}
    (inside : name ∈ names) : after.isPending frame.space name = false := by
  induction names generalizing before with
  | nil => cases inside
  | cons first rest inductionHypothesis =>
    rw [bindNames, read_bind] at done
    cases known : before.ownAttribute? module_ first with
    | none =>
      rw [known] at done
      exact absurd done (complain_ne_ok _)
    | some value =>
      rw [known] at done
      obtain ⟨_, middle, bindDone, restDone⟩ := exists_of_bind_eq_ok done
      rcases List.mem_cons.mp inside with rfl | inside
      · have still := still_of_obeys fun conduct =>
          conduct.obeys_bindNames (frame :: outer) path module_ rest
        exact (still.of_ok restDone).not_pending (not_pending_of_bindName bindDone)
      · exact inductionHypothesis restDone inside

theorem still_graft (parent : Ref) (walked : List String) (module_ : Ref) (rest : List String) :
    still.Follows (graft parent walked module_ rest) :=
  still_of_obeys fun conduct => conduct.obeys_graft parent walked module_ rest

theorem not_pending_of_bindModule {frame : Frame} {outer : Env} {path : List String}
    {newName : Option String} {module_ : Ref} {before after : World}
    (done : bindModule (frame :: outer) path newName module_ before = .ok () after) :
    after.isPending frame.space (importedName path newName) = false := by
  unfold bindModule at done
  split at done
  · obtain ⟨root, _, _, rest⟩ := exists_of_bind_eq_ok done
    obtain ⟨_, middle, bindDone, grafted⟩ := exists_of_bind_eq_ok rest
    exact ((still_graft root _ module_ _).of_ok grafted).not_pending
      (not_pending_of_bindName bindDone)
  · exact not_pending_of_bindName done

theorem bindModule_gives {frame : Frame} {outer : Env} {path : List String}
    {newName : Option String} {module_ : Ref} {before after : World} (tabled : before.ModulesTabled)
    (done : bindModule (frame :: outer) path newName module_ before = .ok () after)
    (bound : frame.space.index < before.spaces.size) :
    (Deferred.bindModule (frame :: outer) path newName).Gives module_ before after
      (importedName path newName)
      ((after.namespaceAt frame.space).get? (importedName path newName)) := by
  have whole (same : bindModule (frame :: outer) path newName module_ =
      bindName (frame :: outer) (importedName path newName) module_) :
      (after.namespaceAt frame.space).get? (importedName path newName) = some module_ := by
    rw [same] at done
    rw [get?_of_bindName done bound, if_pos rfl]
  match newName, path with
  | some _, [] | some _, [_] | some _, _ :: _ :: _ | none, [] | none, [_] => exact whole rfl
  | none, first :: second :: rest =>
    obtain ⟨last, carried, arrives⟩ :=
      bindModule_arrives outer first second rest module_ bound tabled
    cases carried.symm.trans done
    exact arrives

/-- A binding that succeeds leaves none of its names pending, and they mean what they should. -/
theorem settleDeferred_binds {module_ : Ref} {binding : Deferred} {before after : World}
    (tabled : before.ModulesTabled)
    (done : settleDeferred module_ binding before = .ok () after) :
    binding.Binds module_ before after := by
  rintro space name ⟨⟨frame, head, rfl⟩, inside⟩
  cases binding with
  | bindModule env path newName =>
    obtain ⟨outer, rfl⟩ := List.head?_eq_some_iff.mp head
    obtain rfl : name = importedName path newName := List.mem_singleton.mp inside
    exact ⟨not_pending_of_bindModule done, bindModule_gives tabled done⟩
  | bindNames env path names location =>
    obtain ⟨outer, rfl⟩ := List.head?_eq_some_iff.mp head
    have done := of_traced_eq_ok done
    refine ⟨not_pending_of_bindNames done inside, fun bound => ?_⟩
    obtain ⟨found, table⟩ := bindNames_binds done bound
    have taken := (table name).trans (if_pos inside)
    exact ⟨by rw [taken]; exact found name inside, taken⟩

end Exec

/-! ### Why names are pending -/

/-- The name was announced for a binding that was deferred, and no binding of the name was carried
out since. -/
def Journal.Awaits (space : SpaceId) (name : String) (journal : Journal) : Prop :=
  ∃ (later : Journal) (path : String) (binding : Deferred) (earlier : Journal),
    journal = later ++ .deferred path binding :: earlier ∧ binding.Announces space name ∧
    ∀ place module_ other, .settled place module_ other ∈ later → ¬ other.Announces space name

theorem Journal.Awaits.cons {space : SpaceId} {name : String} {journal : Journal}
    (awaits : journal.Awaits space name) {event : ModuleEvent}
    (leaves : ∀ place module_ other, event = .settled place module_ other →
      ¬ other.Announces space name) :
    Journal.Awaits space name (event :: journal) := by
  obtain ⟨later, path, binding, earlier, rfl, announces, unsettled⟩ := awaits
  refine ⟨event :: later, path, binding, earlier, rfl, announces, ?_⟩
  intro place module_ other inside
  rcases List.mem_cons.mp inside with same | inside
  · exact leaves place module_ other same.symm
  · exact unsettled place module_ other inside

/-- The binding was carried out in a world that had the tables of its modules. This was noted, and
since then nothing that was there went away. -/
def Deferred.CarriedOut (binding : Deferred) (path : String) (module_ : Ref) (earlier : Journal)
    (world : World) : Prop :=
  ∃ before after, before.ModulesTabled ∧
    Exec.carryOut path module_ binding before = .ok () after ∧
    after.registry.journal = .settled path module_ binding :: earlier ∧ after.Lasts world

theorem Deferred.CarriedOut.last {binding : Deferred} {path : String} {module_ : Ref}
    {earlier : Journal} {before after : World}
    (carried : binding.CarriedOut path module_ earlier before) (lasts : before.Lasts after) :
    binding.CarriedOut path module_ earlier after := by
  obtain ⟨start, stop, tabled, done, noted, kept⟩ := carried
  exact ⟨start, stop, tabled, done, noted, kept.trans lasts⟩

/-- Modules have their tables, every name that is pending is awaited, and the bindings that are
noted as carried out were. -/
structure World.Explained (world : World) : Prop where
  tabled : world.ModulesTabled
  pending : ∀ (space : SpaceId) (name : String), world.isPending space name = true →
    Journal.Awaits space name world.registry.journal
  settled : ∀ {later earlier : Journal} {path : String} {module_ : Ref} {binding : Deferred},
    world.registry.journal = later ++ .settled path module_ binding :: earlier →
      binding.CarriedOut path module_ earlier world

/-- A change without an event. -/
theorem World.Explained.same {before after : World} (explained : before.Explained)
    (lasts : before.Lasts after) (tabled : after.ModulesTabled)
    (journal : after.registry.journal = before.registry.journal)
    (pending : ∀ space name, after.isPending space name = true →
      before.isPending space name = true) : after.Explained where
  tabled := tabled
  pending space name waits := journal ▸ explained.pending space name (pending space name waits)
  settled split := (explained.settled (journal ▸ split)).last lasts

/-- An event that carries out no binding of a name that is pending afterwards. What is pending was
pending before, or is announced by it. -/
theorem World.Explained.cons {before after : World} (explained : before.Explained)
    (lasts : before.Lasts after) (tabled : after.ModulesTabled)
    {event : ModuleEvent} (journal : after.registry.journal = event :: before.registry.journal)
    (pending : ∀ space name, after.isPending space name = true →
      before.isPending space name = true ∨
        Journal.Awaits space name (event :: before.registry.journal))
    (leaves : ∀ place module_ binding, event = .settled place module_ binding →
      (∀ space name, binding.Announces space name → after.isPending space name = false) ∧
      binding.CarriedOut place module_ before.registry.journal after) :
    after.Explained where
  tabled := tabled
  pending space name waits := by
    rw [journal]
    obtain early | new := pending space name waits
    · refine (explained.pending space name early).cons fun place module_ other same clears => ?_
      rw [(leaves place module_ other same).1 space name clears] at waits
      cases waits
    · exact new
  settled := by
    intro later earlier path module_ binding split
    rw [journal] at split
    cases later with
    | nil =>
      obtain ⟨rfl, rfl⟩ := List.cons.inj split
      exact (leaves path module_ binding rfl).2
    | cons first later =>
      exact (explained.settled (List.cons.inj split).2).last lasts

/-- What was there stays, and what is pending or was carried out is explained if it was before. -/
def Course.explaining : Course where
  leads before after := before.Lasts after ∧ (before.Explained → after.Explained)
  refl world := ⟨.refl world, id⟩
  trans first last := ⟨first.1.trans last.1, last.2 ∘ first.2⟩
  calm calm := ⟨calm.lasts, fun explained => explained.same calm.lasts
    (calm.tabled explained.tabled) (congrArg _ calm.registry) calm.pending⟩

namespace Exec

open Course

variable {machine : Machine}

/-- Every event but the carrying out of a binding leaves the pending names alone. -/
theorem explaining_note {event : ModuleEvent}
    (otherwise : ∀ place module_ binding, event ≠ .settled place module_ binding) :
    explaining.Follows (modifyRegistry (·.note event)) := by
  intro world
  have lasts : world.Lasts { world with registry := world.registry.note event } :=
    .of_same rfl rfl
  exact ⟨lasts, fun explained => explained.cons lasts explained.tabled rfl (fun _ _ => .inl)
    fun place module_ binding same => absurd same (otherwise place module_ binding)⟩

/-- A change of the registry is no event. -/
theorem explaining_modifyRegistry {step : Registry → Registry}
    (unnoted : ∀ registry, (step registry).journal = registry.journal) :
    explaining.Follows (modifyRegistry step) := by
  intro world
  have lasts : world.Lasts { world with registry := step world.registry } := .of_same rfl rfl
  exact ⟨lasts, fun explained =>
    explained.same lasts explained.tabled (unnoted world.registry) fun _ _ => id⟩

theorem explaining_carryOut (path : String) (module_ : Ref) (binding : Deferred) :
    explaining.Follows (carryOut path module_ binding) := by
  intro world
  obtain ⟨after, done, carried⟩ | ⟨failure, after, failed, stopped⟩ :=
    carryOut_cases path module_ binding world
  · have calm := (still_settleDeferred module_ binding).of_ok done
    have quiet := explaining.calm calm
    rw [← calm.registry] at carried
    rw [carried]
    refine ⟨calm.lasts.trans (.of_same rfl rfl), fun explained => ?_⟩
    have middle := quiet.2 explained
    refine middle.cons (.of_same rfl rfl) middle.tabled rfl (fun _ _ => .inl)
      fun place other own same => ?_
    cases same
    exact ⟨fun space name announces => (settleDeferred_binds explained.tabled done announces).1,
      world, _, explained.tabled, carried, rfl, .refl _⟩
  · have calm := (still_settleDeferred module_ binding).of_error failed
    rw [stopped, ← calm.registry]
    exact explaining.trans (explaining.calm calm) (explaining_note (by simp) after)

/-- A binding that was carried out leaves none of its names pending, and they mean what they
should. -/
theorem carryOut_binds {path : String} {module_ : Ref} {binding : Deferred} {before after : World}
    (tabled : before.ModulesTabled) (done : carryOut path module_ binding before = .ok () after) :
    binding.Binds module_ before after := by
  obtain ⟨middle, settled, carried⟩ | ⟨failure, middle, -, stopped⟩ :=
    carryOut_cases path module_ binding before
  · cases carried.symm.trans done
    exact settleDeferred_binds tabled settled
  · cases stopped.symm.trans done

theorem explaining_runModule (follows : machine.Follows explaining) (path : String)
    (purpose : Purpose) (module_ : Ref) (space : SpaceId) :
    explaining.Follows (runModule machine path purpose module_ space) := by
  refine follows_bind (explaining_note (by simp)) fun _ => follows_bind ?_ fun _ => ?_
  · refine follows_tryCatch (follows.follows_runPath path space) fun failure => ?_
    exact follows_bind (explaining_note (by simp)) fun _ => follows_throw failure
  · exact explaining_note (by simp)

theorem explaining_complete (path : String) (module_ : Ref) {body : Exec Unit}
    (follows : explaining.Follows body) : explaining.Follows (complete path module_ body) := by
  refine follows_bind (follows_tryCatch follows fun failure => ?_) fun _ => ?_
  · refine follows_bind ?_ fun _ => follows_throw failure
    exact explaining_modifyRegistry fun _ => rfl
  · refine follows_read fun job => follows_bind ?_ fun _ => ?_
    · exact explaining_modifyRegistry fun _ => rfl
    · cases job with
      | some job => exact follows_forM _ fun binding _ => explaining_carryOut path module_ binding
      | none => exact follows_pure _

theorem explaining_load (follows : machine.Follows explaining) (name directory : String) :
    explaining.Follows (load machine name directory) := by
  refine follows_read fun resolved => ?_
  cases resolved with
  | none => exact follows.follows_complain _
  | some path =>
    refine follows_read fun registry => ?_
    split
    · exact follows_bind (explaining_note (by simp)) fun _ => follows_pure _
    · exact follows_pure _
    · refine follows_bind (follows_bind ?_ fun _ => ?_) fun _ => follows_pure _
      · exact explaining_modifyRegistry fun _ => rfl
      · refine follows_bind (still_newFileModule _ _).of_still fun made => ?_
        obtain ⟨space, module_⟩ := made
        refine follows_bind ?_ fun _ => follows_pure _
        exact explaining_complete path module_ (explaining_runModule follows path _ module_ space)

/-- A binding that waits announces its names. -/
theorem explaining_defer (path : String) (binding : Deferred) : explaining.Follows (do
    announceAll binding.env binding.names
    postpone path binding : Exec Unit) := by
  intro world
  obtain ⟨after, announced, same, objects, spaces, waits⟩ :=
    announceAll_succeeds binding.env binding.names world
  rw [bind_of_ok announced]
  have lasts : world.Lasts after := .of_objects objects spaces.ge
  have journal : (World.leftBy (postpone path binding after)).registry.journal =
      .deferred path binding :: world.registry.journal := by
    rw [← same]
    rfl
  refine ⟨lasts.trans (.of_same rfl rfl), fun explained => ?_⟩
  have tabled := explained.tabled.of_same objects spaces.ge
  refine explained.cons (lasts.trans (.of_same rfl rfl)) tabled journal
    (fun space name waiting => ?_) fun _ _ _ same => by cases same
  refine (waits space name waiting).imp_right fun new => ?_
  exact ⟨[], path, binding, world.registry.journal, rfl, new, by simp⟩

theorem explaining_importModule (follows : machine.Follows explaining) (env : Env)
    (location : Location) (path : List String) (newName : Option String) :
    explaining.Follows (importModule machine env location path newName) := by
  refine follows_read fun directory => follows_bind (explaining_load follows _ _) fun loaded => ?_
  cases loaded with
  | ready module_ =>
    exact (still_of_obeys fun conduct =>
      conduct.obeys_bindModule env path newName module_).of_still
  | unfinished place => exact explaining_defer place (.bindModule env path newName)

theorem explaining_importNames (follows : machine.Follows explaining) (env : Env)
    (location : Location) (path : List String) (names : Option (List String)) :
    explaining.Follows (importNames machine env location path names) := by
  refine follows_read fun directory => follows_bind (explaining_load follows _ _) fun loaded => ?_
  cases loaded with
  | ready module_ =>
    cases names with
    | none =>
      exact (still_of_obeys fun conduct => conduct.obeys_bindPublic env module_).of_still
    | some names =>
      exact (still_of_obeys fun conduct => conduct.obeys_bindNames env path module_ names).of_still
  | unfinished place =>
    cases names with
    | none => exact follows.follows_complain _
    | some names => exact explaining_defer place (.bindNames env path names location)

theorem explaining_coversImports : explaining.CoversImports :=
  ⟨explaining_load, explaining_importModule, explaining_importNames⟩

theorem explaining_startFile (follows : machine.Follows explaining) (path : String) :
    explaining.Follows (startFile machine path) := by
  refine follows_read fun place => follows_bind (still_newFileModule _ _).of_still fun made => ?_
  obtain ⟨space, module_⟩ := made
  refine follows_read fun registry => ?_
  dsimp only
  split
  · exact follows_bind (follows.follows_newComplaint _) fun _ => follows_pure _
  · refine follows_bind ?_ fun _ => follows_bind (follows_attempt ?_) fun _ => follows_pure _
    · exact explaining_modifyRegistry fun registry => registry.startMain_journal place
    · exact explaining_complete place module_ (explaining_runModule follows place _ module_ space)

end Exec

namespace World

theorem bare_namespaceAt (host : Host) (searchPath : List String) (space : SpaceId) :
    (bare host searchPath).namespaceAt space = .empty := by
  rw [namespaceAt, bare, Array.getD_eq_getD_getElem?, Array.getElem?_replicate]
  split <;> rfl

theorem bare_modulesTabled (host : Host) (searchPath : List String) :
    (bare host searchPath).ModulesTabled := by
  have modules : ∀ position < bareObjects.size,
      (bareObjects.getD position default).class_ ≠ BuiltinClass.moduleType.ref := by decide
  intro ref isModule
  exact absurd isModule (modules ref.index (bound_of_isModule (beq_iff_eq.mpr isModule)))

theorem bare_explained (host : Host) (searchPath : List String) :
    (bare host searchPath).Explained where
  tabled := bare_modulesTabled host searchPath
  pending space name waits := by
    rw [isPending, bare_namespaceAt] at waits
    cases waits
  settled split := by
    cases (List.append_eq_nil_iff.mp split.symm).2

theorem Reached.explained {world : World} (reached : world.Reached) : world.Explained := by
  refine reached.keeps Exec.explaining_coversImports Explained (fun led => led.2) bare_explained ?_
  intro world path explained
  rw [runFile, perform_snd]
  have standard := Machine.ofFuel_follows Exec.explaining_coversImports fuelOfRun
  exact (Exec.explaining_startFile standard path world).2 explained

/-! ### Between runs -/

/-- What a session can rely on between its runs, about the bindings that were deferred. -/
structure SettlesBindings (world : World) : Prop where
  /-- No import is running. -/
  idle : world.registry.running = []
  /-- A name is pending only because of an import whose binding was given up. -/
  pending : ∀ (space : SpaceId) (name : String), world.isPending space name = true →
    ∃ (later : Journal) (path : String) (binding : Deferred) (earlier : Journal),
      world.registry.journal = later ++ .deferred path binding :: earlier ∧
      binding.Announces space name ∧ Journal.GivenUp path later
  /-- A binding that was not given up was carried out, with the module that the file has until it is
  run as the main program. -/
  settled : ∀ {later earlier : Journal} {path : String} {binding : Deferred},
    world.registry.journal = later ++ .deferred path binding :: earlier →
      ¬ Journal.GivenUp path later → ∃ module_, .settled path module_ binding ∈ later ∧
        (.started path .main ∉ later → world.registry.loaded? path = some module_)
  /-- Where a binding was carried out, its names were bound. -/
  bound : ∀ {later earlier : Journal} {path : String} {module_ : Ref} {binding : Deferred},
    world.registry.journal = later ++ .settled path module_ binding :: earlier →
      ∃ before after, Exec.carryOut path module_ binding before = .ok () after ∧
        after.registry.journal = .settled path module_ binding :: earlier ∧ after.Lasts world ∧
        binding.Binds module_ before after

/-- Between the runs of a session every deferred binding was carried out or given up, and only names
of those that were given up are pending. Carrying out a binding, in whatever world that has the
tables of its modules, gives its names the values that they should have. -/
theorem Reached.settles_bindings {world : World} (reached : world.Reached) :
    world.SettlesBindings ∧
    ∀ {path : String} {module_ : Ref} {binding : Deferred} {before after : World},
      before.ModulesTabled → Exec.carryOut path module_ binding before = .ok () after →
        binding.Binds module_ before after := by
  have rests := reached.rests
  have lawful := rests.agrees.lawful
  have decided {later earlier : Journal} {path : String} {binding : Deferred}
      (same : world.registry.journal = later ++ .deferred path binding :: earlier) :
      (∃ module_, .settled path module_ binding ∈ later) ∨ Journal.GivenUp path later := by
    have owed := rests.agrees.owed_eq path
    rw [Registry.waiting, rests.running?_eq_none] at owed
    rw [same] at lawful owed
    refine lawful.owed_or_settled.resolve_left fun owes => ?_
    rw [owed] at owes
    cases owes.1
  refine ⟨⟨rests.running, fun space name waits => ?_, fun same kept => ?_, fun same => ?_⟩,
    Exec.carryOut_binds⟩
  · obtain ⟨later, path, binding, earlier, same, announces, unsettled⟩ :=
      reached.explained.pending space name waits
    refine ⟨later, path, binding, earlier, same, announces, (decided same).resolve_left ?_⟩
    rintro ⟨module_, settled⟩
    exact unsettled path module_ binding settled announces
  · obtain ⟨module_, settled⟩ := (decided same).resolve_right kept
    refine ⟨module_, settled, fun unstarted => ?_⟩
    obtain ⟨latest, rest, split⟩ := List.append_of_mem settled
    rw [split, List.append_assoc, List.cons_append] at same
    rw [split, List.mem_append, not_or] at unstarted
    rw [same] at lawful
    rw [← (rests.agrees.matches_ _).loaded, same]
    exact lawful.module_of_settled unstarted.1
  · obtain ⟨before, after, tabled, done, noted, lasts⟩ := reached.explained.settled same
    exact ⟨before, after, done, noted, lasts, Exec.carryOut_binds tabled done⟩

/-- A session with two files that import each other, and bindings that are carried out in the table
of the built-in names. -/
theorem beginning_settles_bindings :
    let host : Host :=
      { files := ⟨"/", [("/a.minipy", "import b\n"), ("/b.minipy", "import a\n")]⟩
        input := ""
        output := "" }
    let start := bare host []
    let env : Env := [⟨builtinsSpace, "", false⟩]
    ((beginning host []).importByName "a").2.SettlesBindings ∧
    (∃ after, Exec.carryOut "/a.minipy" noneRef (.bindModule env ["a"] none) start = .ok () after ∧
      after.isPending builtinsSpace "a" = false ∧
      (after.namespaceAt builtinsSpace).get? "a" = some noneRef) ∧
    ∃ after,
      Exec.carryOut "/a.minipy" noneRef (.bindModule env ["pkg", "a"] none) start = .ok () after ∧
      after.isPending builtinsSpace "pkg" = false ∧
      after.below? ((after.namespaceAt builtinsSpace).get? "pkg") ["a"] = some noneRef := by
  intro host start env
  have settles := (Reached.imported "a" (Reached.beginning host [])).settles_bindings
  have bound : builtinsSpace.index < (bare host []).spaces.size := by
    rw [bare, Array.size_replicate]
    decide
  have announces (path : List String) : (Deferred.bindModule env path none).Announces builtinsSpace
      (Exec.importedName path none) :=
    ⟨⟨_, rfl, rfl⟩, List.mem_cons_self⟩
  refine ⟨settles.1, ?_, ?_⟩
  · obtain ⟨after, carried⟩ : ∃ after,
        Exec.carryOut "/a.minipy" noneRef (.bindModule env ["a"] none) start = .ok () after :=
      ⟨_, rfl⟩
    obtain ⟨settled, gives⟩ := settles.2 (bare_modulesTabled host []) carried (announces ["a"])
    exact ⟨after, carried, settled, gives bound⟩
  · obtain ⟨after, carried⟩ : ∃ after,
        Exec.carryOut "/a.minipy" noneRef (.bindModule env ["pkg", "a"] none) start =
          .ok () after :=
      ⟨_, rfl⟩
    obtain ⟨settled, gives⟩ :=
      settles.2 (bare_modulesTabled host []) carried (announces ["pkg", "a"])
    have arrives :
        after.Arrives ((after.namespaceAt builtinsSpace).get? "pkg") "pkg" ["a"] noneRef :=
      gives bound
    exact ⟨after, carried, settled, arrives.whole (by decide : "a" ∉ ["pkg"])⟩

end World

end Offside
