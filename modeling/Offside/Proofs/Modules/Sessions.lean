/-
This file proves what becomes of modules over a whole session. Between the runs of a
session no import is running and nothing waits, and the registry agrees with its journal.
So the journal of a session is lawful: no file was ever started while an earlier start of
it had not ended, and once a file had a module, imports found this module and left the
file alone until the file was run as the main program.
-/

import Offside.Proofs.Modules.Loading

namespace Offside

/-! ### The beginning -/

namespace Exec

open Course Machine.Follows

theorem still_set (space : SpaceId) (name : String) (value : Ref) :
    still.Follows (modifySpace space (·.set name value)) :=
  still_of_obeys fun conduct => conduct.obeys_modifySpace_set space name value

theorem still_newNative (name : String) (native : Native) :
    still.Follows (newNative name native) := by
  have other : BuiltinClass.function.ref ≠ BuiltinClass.moduleType.ref := by decide
  exact follows_bind (still_of_obeys fun conduct => conduct.obeys_newSpace_empty) fun _ =>
    follows_alloc other

theorem still_fillMethod (builtin : BuiltinClass) (entry : String × Method) :
    still.Follows (fillMethod builtin entry) :=
  follows_bind (still_newNative _ _) fun _ => still_set _ _ _

theorem still_fillClass (builtin : BuiltinClass) : still.Follows (fillClass builtin) := by
  have rest : still.Follows (do
      builtin.methods.forM (fillMethod builtin)
      if builtin.isGlobal then modifySpace builtinsSpace (·.set builtin.name builtin.ref)) := by
    refine follows_bind (follows_forM _ fun entry _ => still_fillMethod builtin entry) fun _ => ?_
    split
    · exact still_set _ _ _
    · exact follows_pure _
  refine follows_bind (still_of_obeys fun conduct => conduct.obeys_newStr _) fun name =>
    follows_bind (still_set _ _ _) fun _ => ?_
  cases builtin.base? with
  | some base => exact follows_bind (still_set _ _ _) fun _ => rest
  | none => exact rest

theorem still_fillBuiltins : still.Follows fillBuiltins := by
  rw [fillBuiltins]
  -- Which classes and functions there are plays no part, and is kept from being computed.
  generalize BuiltinClass.all = classes
  generalize FreeFunction.all = functions
  refine follows_bind (follows_forM _ fun builtin _ => still_fillClass builtin) fun _ => ?_
  refine follows_forM _ fun function _ => ?_
  exact follows_bind (still_newNative _ _) fun ref => still_set _ _ _

end Exec

namespace World

theorem bare_calm_beginning (host : Host) (searchPath : List String) :
    (bare host searchPath).Calm (beginning host searchPath) := by
  have filled := Exec.still_fillBuiltins (bare host searchPath)
  delta beginning
  generalize Exec.fillBuiltins (bare host searchPath) = result at filled ⊢
  cases result with
  | ok => exact filled
  | error => exact filled

/-! ### Sessions -/

/-- What holds of a bare world and is kept along a course, and by running files as the main program,
holds of every world of a session. -/
theorem Reached.keeps {course : Course} (imports : course.CoversImports) (property : World → Prop)
    (led : ∀ {before after : World}, course.leads before after → property before → property after)
    (bareHolds : ∀ host searchPath, property (bare host searchPath))
    (ranFile : ∀ (world : World) (path : String), property world → property (world.runFile path).2)
    {world : World} (reached : world.Reached) : property world := by
  have standard : Machine.standard.Follows course := Machine.ofFuel_follows imports fuelOfRun
  have kept {before after : World} (holds : property before) (calm : before.Calm after) :
      property after := led (course.calm calm) holds
  induction reached with
  | beginning host searchPath => exact kept (bareHolds _ _) (bare_calm_beginning host searchPath)
  | ran fuel env _ _ inductionHypothesis =>
    exact led ((Machine.ofFuel_follows imports fuel).run _ env _) inductionHypothesis
  | ranSource file text _ inductionHypothesis =>
    rw [runSource, perform_snd]
    exact led (standard.follows_startText file text _) inductionHypothesis
  | ranFile path _ inductionHypothesis => exact ranFile _ path inductionHypothesis
  | imported name _ inductionHypothesis =>
    rw [importByName, perform_snd]
    exact led (standard.follows_startImport imports name _) inductionHypothesis
  | reported failure _ inductionHypothesis =>
    rw [reportOf, perform_snd]
    exact led (standard.follows_report failure _) inductionHypothesis
  | interrupted _ inductionHypothesis => exact kept inductionHypothesis (.of_same rfl rfl rfl)
  | outputTaken _ inductionHypothesis => exact kept inductionHypothesis (.of_same rfl rfl rfl)
  | fileWritten path text _ inductionHypothesis =>
    exact kept inductionHypothesis (.of_same rfl rfl rfl)
  | searchVariableSet value _ inductionHypothesis =>
    exact kept inductionHypothesis (.of_same rfl rfl rfl)
  | searchPathAdded directories _ inductionHypothesis =>
    exact kept inductionHypothesis (.of_same rfl rfl rfl)

end World

/-! ### Running a file as the main program -/

namespace Exec

open Course

variable {machine : Machine}

/-- The run of a file as the main program, once its module is made. -/
def runMain (machine : Machine) (place : String) (space : SpaceId) (module_ : Ref) :
    Exec Outcome := do
  modifyRegistry (·.startMain place)
  let body := runModule machine place .main module_ space
  return .ofRun space (← attempt (complete place module_ body))

theorem startFile_eq (machine : Machine) (path : String) {world ready : World}
    {place : String} {space : SpaceId} {module_ : Ref}
    (absolute : Path.absolute world.host.files.working path = place)
    (idle : world.registry.loaded? place = none → world.registry.running? place = none)
    (made : newFileModule "__main__" place world = .ok (space, module_) ready) :
    startFile machine path world = runMain machine place space module_ ready := by
  have calm : world.Calm ready := (still_newFileModule "__main__" place).of_ok made
  rw [startFile, read_bind, absolute, bind_of_ok made]
  dsimp only
  rw [read_bind, calm.registry]
  cases loaded : world.registry.loaded? place with
  | some known => rfl
  | none =>
    rw [idle loaded]
    rfl

/-- A file that is loaded, or not running, is run with a new module. -/
theorem startFile_runs (machine : Machine) (path : String) {world : World} {place : String}
    (absolute : Path.absolute world.host.files.working path = place)
    (idle : world.registry.loaded? place = none → world.registry.running? place = none) :
    ∃ space module_ ready, world.Calm ready ∧ ready.Housed module_ ∧
      world.objects.size ≤ module_.index ∧ ready.host = world.host ∧
      startFile machine path world = runMain machine place space module_ ready := by
  obtain ⟨space, module_, ready, made, calm, housed, new, outside⟩ :=
    makeModule "__main__" place world
  exact ⟨space, module_, ready, calm, housed, new, outside.host,
    startFile_eq machine path absolute idle made⟩

/-- A file that is being run is not run again. -/
theorem startFile_refuses (machine : Machine) (path : String) {world : World} {place : String}
    {job : Job} (absolute : Path.absolute world.host.files.working path = place)
    (unloaded : world.registry.loaded? place = none)
    (running : world.registry.running? place = some job) :
    ∃ ready, world.Calm ready ∧ startFile machine path world =
      (do return ⟨none, some (.raised (← newComplaint (.alreadyRunning path)))⟩ : Exec Outcome)
        ready := by
  obtain ⟨space, module_, ready, made, calm, -⟩ := makeModule "__main__" place world
  refine ⟨ready, calm, ?_⟩
  rw [startFile, read_bind, absolute, bind_of_ok made]
  dsimp only
  rw [read_bind, calm.registry, unloaded, running]

/-- Handling the failures of a step changes nothing more. -/
theorem leftBy_attempt {α : Type} (step : Exec α) (world : World) :
    World.leftBy (attempt step world) = World.leftBy (step world) := by
  cases done : step world with
  | ok value after => rw [attempt_ok done, World.leftBy, World.leftBy]
  | error failure after => rw [attempt_error done, World.leftBy, World.leftBy]

theorem leftBy_runMain (place : String) (space : SpaceId) (module_ : Ref) (world : World) :
    World.leftBy (runMain machine place space module_ world) =
      World.leftBy (complete place module_ (runModule machine place .main module_ space)
        { world with registry := world.registry.startMain place }) := by
  rw [runMain, bind_of_ok (rfl : modifyRegistry (·.startMain place) world = .ok () _)]
  exact (leftBy_bind_pure _ _ _).trans (leftBy_attempt _ _)

theorem startFile_registry (follows : machine.Follows advancing) (path : String) (world : World) :
    let place := Path.absolute world.host.files.working path
    let after := (World.leftBy (startFile machine path world)).registry
    (world.registry.loaded? place = none ∧ (world.registry.running? place).isSome = true ∧
      after = world.registry) ∨
    ((world.registry.loaded? place = none → world.registry.running? place = none) ∧
      ∃ module_, Registry.Completes place module_
        ((world.registry.startMain place).note (.started place .main)) after) := by
  intro place after
  by_cases idle : world.registry.loaded? place = none → world.registry.running? place = none
  · obtain ⟨space, module_, ready, calm, -, -, -, runs⟩ :=
      startFile_runs machine path rfl idle
    let begun : World := { ready with registry := ready.registry.startMain place }
    have completes :=
      complete_registry place .main module_ (follows.follows_runPath place space) begun
    rw [← leftBy_runMain, ← runs, show begun.registry = world.registry.startMain place from
      calm.registry ▸ rfl] at completes
    exact .inr ⟨idle, module_, completes⟩
  · rw [Classical.not_imp] at idle
    obtain ⟨unloaded, running⟩ := idle
    obtain ⟨job, running⟩ := Option.ne_none_iff_exists'.mp running
    obtain ⟨ready, calm, refused⟩ :=
      startFile_refuses machine path rfl unloaded running
    have complained : still.Follows (newComplaint (.alreadyRunning path)) :=
      (Machine.zero_follows still).follows_newComplaint _
    refine .inl ⟨unloaded, Option.isSome_iff_exists.mpr ⟨job, running⟩, ?_⟩
    rw [show after = (World.leftBy (startFile machine path world)).registry from rfl, refused,
      leftBy_bind_pure, (complained ready).registry, calm.registry]

end Exec

/-! ### Between runs -/

namespace Registry

theorem startMain_loaded? (registry : Registry) (place path : String) :
    (registry.startMain place).loaded? path = registry.loaded? path := by
  rw [startMain]
  split <;> rfl

theorem startMain_journal (registry : Registry) (path : String) :
    (registry.startMain path).journal = registry.journal := by
  rw [startMain]
  split <;> rfl

/-- What was running before the main program is running again. -/
theorem Completes.resumes_main {path : String} {module_ : Ref} {registry after : Registry}
    (completes : Completes path module_
      ((registry.startMain path).note (.started path .main)) after)
    (idle : registry.running? path = none) : registry.Resumes after := by
  have resumes := completes.resumes
  have same : ((registry.startMain path).abandon path).running = registry.running := by
    rw [startMain]
    split
    · rw [abandon, begin, List.filter_cons, if_neg (by simp), filter_running idle]
    · rw [abandon, filter_running idle]
  rw [Resumes] at resumes
  change List.Forall₂ _ ((registry.startMain path).abandon path).running _ at resumes
  rwa [same] at resumes

/-- Nothing is being run, and the registry agrees with its journal. -/
structure Rests (registry : Registry) : Prop where
  agrees : registry.Agrees noDebts
  running : registry.running = []
  idle : ∀ path, (Journal.state path registry.journal).run = none

theorem empty_rests : Rests ⟨[], [], []⟩ where
  agrees := ⟨trivial, fun _ => ⟨rfl, fun _ _ => rfl, (fun _ same => by cases same), fun _ => rfl⟩⟩
  running := rfl
  idle _ := rfl

namespace Rests

variable {registry after : Registry} (rests : registry.Rests)

include rests

theorem running?_eq_none (path : String) : registry.running? path = none := by
  rw [running?, rests.running]
  rfl

theorem advances (advances : registry.Advances after) : after.Rests := by
  obtain ⟨agrees, runs⟩ := advances.agrees rests.agrees
  refine ⟨agrees, ?_, fun path => (runs path).trans (rests.idle path)⟩
  have resumes := advances.resumes
  rwa [Resumes, rests.running, List.forall₂_nil_left_iff] at resumes

theorem startMain_agrees (path : String) :
    ((registry.startMain path).note (.started path .main)).Agrees noDebts := by
  rw [startMain]
  split
  · next unloaded =>
    rw [Option.isNone_iff_eq_none] at unloaded
    exact rests.agrees.begin unloaded (rests.running?_eq_none path) "__main__" .main
  · next loaded =>
    rw [Bool.not_eq_true, Option.isNone_eq_false_iff] at loaded
    exact rests.agrees.startAgain loaded (rests.idle path)

/-- When the main program has ended, nothing is being run again. -/
theorem completes {path : String} {module_ : Ref}
    (completes : Completes path module_
      ((registry.startMain path).note (.started path .main)) after) : after.Rests := by
  have journal : ((registry.startMain path).note (.started path .main)).journal =
      .started path .main :: registry.journal := by
    rw [note, startMain_journal]
  have started : (Journal.state path
      ((registry.startMain path).note (.started path .main)).journal).run.isSome = true := by
    rw [journal]
    exact congrArg (·.run.isSome) (Journal.state_cons_self (.started path .main) registry.journal)
  obtain ⟨agrees, ended, others⟩ := completes.agrees (rests.startMain_agrees path) started
  refine ⟨agrees, ?_, fun other => ?_⟩
  · have resumes := completes.resumes_main (rests.running?_eq_none path)
    rwa [Resumes, rests.running, List.forall₂_nil_left_iff] at resumes
  · by_cases same : other = path
    · rw [same, ended]
    · rw [others other same, journal,
        Journal.state_cons_of_ne (.started path .main) (Ne.symm same), rests.idle other]

end Rests

end Registry

namespace World

theorem runFile_rests {world : World} (rests : world.registry.Rests) (path : String) :
    (world.runFile path).2.registry.Rests := by
  rw [runFile, perform_snd]
  obtain ⟨-, -, same⟩ | ⟨-, module_, completes⟩ :=
    Exec.startFile_registry Machine.standard_advancing path world
  · rw [same]
    exact rests
  · exact rests.completes completes

/-- Between the runs of a session nothing is being run. -/
theorem Reached.rests {world : World} (reached : world.Reached) : world.registry.Rests :=
  reached.keeps Exec.advancing_coversImports (·.registry.Rests)
    (fun advances rests => rests.advances advances) (fun _ _ => Registry.empty_rests)
    fun _ path rests => runFile_rests rests path

end World

/-! ### Modules are loaded once -/

/-- What loading a module comes to, in whatever world and whoever asks for it. -/
structure Machine.LoadsOnce (machine : Machine) : Prop where
  /-- Whether it fails or not, what was running before is running afterwards, and nothing else. -/
  resumes : ∀ (name directory : String) (world : World),
    world.registry.Resumes (World.leftBy (Exec.load machine name directory world)).registry
  /-- A module that was loaded is given without its file being run. -/
  found : ∀ {name directory path : String} {world : World} {module_ : Ref},
    world.resolve? name directory = some path → world.registry.loaded? path = some module_ →
      Exec.load machine name directory world = .ok (.ready module_)
        { world with registry := world.registry.note (.found path module_) }
  /-- The import statement binds it. -/
  bound : ∀ {env : Env} {location : Location} {names : List String} {newName : Option String}
    {path : String} {world : World} {module_ : Ref},
    world.resolve? (dotted names) (Path.directory world.host.files.working location.file) =
      some path → world.registry.loaded? path = some module_ →
      Exec.importModule machine env location names newName world =
        Exec.bindModule env names newName module_
          { world with registry := world.registry.note (.found path module_) }
  /-- Names are taken from it. -/
  taken : ∀ {env : Env} {location : Location} {place : List String}
    {names : Option (List String)} {path : String} {world : World} {module_ : Ref},
    world.resolve? (dotted place) (Path.directory world.host.files.working location.file) =
      some path → world.registry.loaded? path = some module_ →
      Exec.importNames machine env location place names world =
        names.elim (Exec.bindPublic env module_) (Exec.bindNames env place module_)
          { world with registry := world.registry.note (.found path module_) }
  /-- Loading a module takes away none that there is. -/
  loadKeeps : ∀ (name directory : String) (world : World) (path : String) (module_ : Ref),
    world.registry.loaded? path = some module_ →
      (World.leftBy (Exec.load machine name directory world)).registry.loaded? path = some module_
  /-- Nor does anything else that the code of a program does. -/
  runKeeps : ∀ (block : List Stmt) (env : Env) (world : World) (path : String) (module_ : Ref),
    world.registry.loaded? path = some module_ →
      (World.leftBy (machine.run block env world)).registry.loaded? path = some module_
  /-- A file that was run for an import and failed is not loaded. -/
  failed : ∀ {name directory path : String} {world : World},
    world.resolve? name directory = some path → world.registry.loaded? path = none →
      world.registry.running? path = none →
      (World.leftBy (Exec.load machine name directory world)).registry.journal.head? =
        some (.failed path) →
      (World.leftBy (Exec.load machine name directory world)).registry.loaded? path = none

theorem Machine.ofFuel_loadsOnce (fuel : Nat) : (Machine.ofFuel fuel).LoadsOnce where
  resumes name directory world :=
    (Exec.follows_load (ofFuel_advancing fuel) name directory world).resumes
  found := Exec.load_found
  bound := Exec.importModule_found
  taken := Exec.importNames_found
  loadKeeps name directory world :=
    (Exec.follows_load (ofFuel_advancing fuel) name directory world).loaded
  runKeeps block env world := ((ofFuel_advancing fuel).run block env world).loaded
  failed := Exec.loaded?_load_of_failed (ofFuel_advancing fuel)

namespace World

/-- What a session can rely on between its runs, about the modules of all of its runs. -/
structure LoadsOnce (world : World) : Prop where
  /-- No file was started while an earlier start of it had not ended. -/
  apart : ∀ {path : String} {purpose again : Purpose} {later between earlier : Journal},
    world.registry.journal =
      later ++ .started path again :: (between ++ .started path purpose :: earlier) →
      ∃ event ∈ between, Journal.Ends path event
  /-- Once a file was run to its end, its module is the module of the file, and all that happens to
  the file is that imports find the module and bindings that waited for it are carried out. This
  ends when the file is run as the main program. -/
  kept : ∀ {path : String} {module_ : Ref} {later earlier : Journal},
    world.registry.journal = later ++ .finished path module_ :: earlier →
      .started path .main ∉ later →
      world.registry.loaded? path = some module_ ∧
      ∀ event ∈ later, event.path = path → event = .found path module_ ∨
        ∃ binding, event = .settled path module_ binding ∨ event = .unsettled path module_ binding
  /-- A file whose import failed is not loaded until it is run to its end. -/
  failed : ∀ {path : String} {later between earlier : Journal},
    world.registry.journal =
      later ++ .failed path :: (between ++ .started path .imported :: earlier) →
      (∀ event ∈ between, ¬ Journal.Ends path event) →
      (∀ module_, .finished path module_ ∉ later) → world.registry.loaded? path = none
  /-- Loading a module that there is gives its names. -/
  importFound : ∀ {name path : String} {module_ : Ref}, world.resolve? name "." = some path →
    world.registry.loaded? path = some module_ →
      world.importByName name = (⟨(world.object module_).space, none⟩,
        { world with registry := world.registry.note (.found path module_) })
  /-- Only running a file as the main program starts it as such. -/
  sourceStarts : ∀ (file text path : String),
    .started path .main ∈ (world.runSource file text).2.registry.journal →
      .started path .main ∈ world.registry.journal
  importStarts : ∀ (name path : String),
    .started path .main ∈ (world.importByName name).2.registry.journal →
      .started path .main ∈ world.registry.journal
  fileStarts : ∀ (file path : String),
    .started path .main ∈ (world.runFile file).2.registry.journal →
      path = Path.absolute world.host.files.working file ∨
        .started path .main ∈ world.registry.journal
  /-- Running a file leaves nothing running, whether it fails or not. -/
  fileResumes : ∀ file, (world.runFile file).2.registry.running = world.registry.running

theorem importByName_found {world : World} {name path : String} {module_ : Ref}
    (resolved : world.resolve? name "." = some path)
    (loaded : world.registry.loaded? path = some module_) :
    world.importByName name = (⟨(world.object module_).space, none⟩,
      { world with registry := world.registry.note (.found path module_) }) := by
  rw [importByName, perform, Exec.startImport_found resolved loaded]

/-- Every file is run at most once at a time, and is not run again once it has a module. -/
theorem Reached.loads_once {world : World} (reached : world.Reached) :
    world.LoadsOnce ∧ ∀ fuel, (Machine.ofFuel fuel).LoadsOnce := by
  have rests := reached.rests
  have lawful := rests.agrees.lawful
  have loaded (path : String) := (rests.agrees.matches_ path).loaded
  refine ⟨⟨?_, ?_, ?_, importByName_found, ?_, ?_, ?_, ?_⟩, Machine.ofFuel_loadsOnce⟩
  · intro path purpose again later between earlier same
    rw [same] at lawful
    exact lawful.exists_ends
  · intro path module_ later earlier same unstarted
    rw [same] at lawful
    obtain ⟨finished, idle⟩ := Journal.state_finished module_
    obtain ⟨only, made, -⟩ := lawful.only_found finished idle unstarted
    rw [← loaded, same]
    exact ⟨made, only⟩
  · intro path later between earlier same unended unfinished
    rw [same] at lawful
    rw [← loaded, same]
    exact lawful.module_eq_none_of_failed unended unfinished
  · intro file text path
    rw [runSource, perform_snd]
    exact (Machine.standard_advancing.follows_startText file text world).main_mem
  · intro name path
    rw [importByName, perform_snd]
    exact (Machine.standard_advancing.follows_startImport Exec.advancing_coversImports name
      world).main_mem
  · intro file path started
    rw [runFile, perform_snd] at started
    obtain ⟨-, -, same⟩ | ⟨-, module_, completes⟩ :=
      Exec.startFile_registry Machine.standard_advancing file world
    · rw [same] at started
      exact .inr started
    · have begun := completes.main_mem started
      rw [Registry.note, Registry.startMain_journal, List.mem_cons] at begun
      exact begun.imp_left fun same => by cases same; rfl
  · intro file
    rw [rests.running, (runFile_rests rests file).running]

/-- A session with one file, which imports itself, and a text that imports the file twice. -/
theorem beginning_loads_once :
    let host : Host :=
      { files := ⟨"/", [("/self.minipy", "import self\n")]⟩
        input := ""
        output := "" }
    ((beginning host []).runSource "/main" "import self\nimport self\n").2.LoadsOnce ∧
      ∀ fuel, (Machine.ofFuel fuel).LoadsOnce := by
  intro host
  have reached := Reached.ranSource "/main" "import self\nimport self\n"
    (Reached.beginning host [])
  exact reached.loads_once

end World

end Offside
