/-
This file proves what becomes of the modules of a session, one request of the host after the
other. A module that is in the registry never gets lost. It stays the module of its file
until the file is run as the main program and ends without a failure; then a new module
takes its place. No other request has this effect, whether it fails or not, and nor does
anything that programs do.

Two things make the new module another one. It is a new object, and every module in the
registry is an object that is there: the registry only gets modules from imports and from
main programs, which make them anew, and objects stay where they are.
-/

import Offside.Proofs.Modules.Sessions

namespace Offside

/-! ### Housed modules -/

namespace World

variable {before after : World}

/-- Every module in the registry has its table. -/
def ModulesHoused (world : World) : Prop :=
  ∀ path module_, world.registry.loaded? path = some module_ → world.Housed module_

theorem ModulesHoused.last (housed : before.ModulesHoused) (lasts : before.Lasts after)
    (same : ∀ path, after.registry.loaded? path = before.registry.loaded? path) :
    after.ModulesHoused := by
  intro path module_ loaded
  rw [same] at loaded
  exact (housed path module_ loaded).last lasts

end World

/-- Objects and tables stay where they are, and no module without a table gets into the registry. -/
def Course.housing : Course where
  leads before after := before.Lasts after ∧ (before.ModulesHoused → after.ModulesHoused)
  refl world := ⟨.refl world, id⟩
  trans first last := ⟨first.1.trans last.1, last.2 ∘ first.2⟩
  calm calm := ⟨calm.lasts, fun housed => housed.last calm.lasts fun _ => by rw [calm.registry]⟩

namespace Exec

open Course

variable {machine : Machine}

theorem housing_register (world : World) (registry : Registry)
    (same : ∀ path, registry.loaded? path = world.registry.loaded? path) :
    housing.leads world { world with registry } :=
  ⟨.of_same rfl rfl, fun housed => housed.last (.of_same rfl rfl) same⟩

theorem housing_carryOut (path : String) (module_ : Ref) (binding : Deferred) :
    housing.Follows (carryOut path module_ binding) := by
  intro world
  obtain ⟨after, settled, done⟩ | ⟨failure, after, settled, failed⟩ :=
    carryOut_cases path module_ binding world
  · have calm := (still_settleDeferred module_ binding).of_ok settled
    rw [done, ← calm.registry]
    exact housing.trans (housing.calm calm) (housing_register after _ fun _ => rfl)
  · have calm := (still_settleDeferred module_ binding).of_error settled
    rw [failed, ← calm.registry]
    exact housing.trans (housing.calm calm) (housing_register after _ fun _ => rfl)

/-- A module that ran to its end gets into the registry with its table. -/
theorem housing_complete (path : String) {module_ : Ref} {body : Exec Unit}
    (follows : housing.Follows body) {world : World} (housed : world.Housed module_) :
    housing.leads world (World.leftBy (complete path module_ body world)) := by
  cases done : body world with
  | error failure after =>
    rw [complete_of_error done]
    exact housing.trans (follows.of_error done) (housing_register after _ fun _ => rfl)
  | ok value after =>
    have led := follows.of_ok done
    let finished : World := { after with registry := after.registry.finish path module_ }
    have same : after.Lasts finished := .of_same rfl rfl
    have entered : housing.leads after finished := by
      refine ⟨same, fun others other known loaded => ?_⟩
      change (after.registry.finish path module_).loaded? other = some known at loaded
      rw [Registry.loaded?_finish] at loaded
      split at loaded
      · cases loaded
        exact (housed.last led.1).last same
      · exact (others other known loaded).last same
    have carried := follows_forM ((after.registry.running? path).elim [] Job.deferred)
      fun binding _ => housing_carryOut path module_ binding
    rw [complete_of_ok done]
    exact housing.trans led (housing.trans entered (carried finished))

theorem housing_runModule (follows : machine.Follows housing) (path : String) (purpose : Purpose)
    (module_ : Ref) (space : SpaceId) :
    housing.Follows (runModule machine path purpose module_ space) := by
  have notes (event : ModuleEvent) : housing.Follows (modifyRegistry (·.note event)) :=
    fun world => housing_register world _ fun _ => rfl
  refine follows_bind (notes _) fun _ => follows_bind ?_ fun _ => notes _
  exact follows_tryCatch (follows.follows_runPath path space) fun failure =>
    follows_bind (notes _) fun _ => follows_throw failure

/-- A module of a file is made when the file is run, and then kept. -/
theorem housing_loadFresh (follows : machine.Follows housing) (path name : String)
    (world : World) : housing.leads world (World.leftBy (loadFresh machine path name world)) ∧
      ∀ module_ after, loadFresh machine path name world = .ok module_ after →
        after.Housed module_ := by
  let begun : World := { world with registry := world.registry.begin path name }
  obtain ⟨space, module_, ready, made, calm, housed, -⟩ := makeModule name path begun
  have begins : housing.leads world begun := housing_register world _ fun _ => rfl
  have toReady : housing.leads world ready := housing.trans begins (housing.calm calm)
  have completed :=
    housing_complete path (housing_runModule follows path .imported module_ space) housed
  rw [loadFresh_eq made, leftBy_bind_pure]
  refine ⟨housing.trans toReady completed, fun given after done => ?_⟩
  obtain ⟨_, last, done, same⟩ := exists_of_bind_eq_ok done
  cases same
  rw [done] at completed
  exact housed.last completed.1

theorem follows_load_housing (follows : machine.Follows housing) (name directory : String) :
    housing.Follows (load machine name directory) := by
  intro world
  cases resolved : world.resolve? name directory with
  | none =>
    rw [load_unresolved resolved]
    exact follows.follows_complain _ world
  | some path =>
    cases loaded : world.registry.loaded? path with
    | some module_ =>
      rw [load_found resolved loaded]
      exact housing_register world _ fun _ => rfl
    | none =>
      cases running : world.registry.running? path with
      | some job =>
        rw [load_unfinished resolved loaded running]
        exact housing.refl world
      | none =>
        rw [load_fresh resolved loaded running, leftBy_bind_pure]
        exact (housing_loadFresh follows path name world).1

/-- An import that is ready gives a module with its table. -/
theorem housed_of_load (follows : machine.Follows housing) {name directory : String}
    {world after : World} {module_ : Ref} (others : world.ModulesHoused)
    (ready : load machine name directory world = .ok (.ready module_) after) :
    after.Housed module_ := by
  cases resolved : world.resolve? name directory with
  | none =>
    rw [load_unresolved resolved] at ready
    exact absurd ready (complain_ne_ok _)
  | some path =>
    cases loaded : world.registry.loaded? path with
    | some known =>
      rw [load_found resolved loaded] at ready
      cases ready
      exact (others path _ loaded).last (.of_same rfl rfl)
    | none =>
      cases running : world.registry.running? path with
      | some job =>
        rw [load_unfinished resolved loaded running] at ready
        cases ready
      | none =>
        rw [load_fresh resolved loaded running] at ready
        obtain ⟨given, last, done, same⟩ := exists_of_bind_eq_ok ready
        cases same
        exact (housing_loadFresh follows path name world).2 _ _ done

theorem housing_announceAll (env : Env) (names : List String) :
    housing.Follows (announceAll env names) := by
  refine follows_forM names fun name _ world => ?_
  cases env with
  | nil => exact housing.refl world
  | cons frame outer =>
    exact ⟨world.lasts_announce frame.space name, fun housed =>
      housed.last (world.lasts_announce frame.space name) fun _ => rfl⟩

theorem housing_defer (env : Env) (names : List String) (place : String) (binding : Deferred) :
    housing.Follows (do
      announceAll env names
      postpone place binding : Exec Unit) :=
  follows_bind (housing_announceAll env names) fun _ world =>
    housing_register world _ fun _ => rfl

theorem housing_coversImports : housing.CoversImports where
  load := follows_load_housing
  importModule follows env location path newName := by
    refine follows_read fun directory => follows_bind (follows_load_housing follows _ _) ?_
    intro loaded
    cases loaded with
    | ready module_ =>
      have bound : still.Follows (bindModule env path newName module_) :=
        still_of_obeys fun conduct => conduct.obeys_bindModule env path newName module_
      exact bound.of_still
    | unfinished place running => exact housing_defer env _ place _
  importNames follows env location path names := by
    refine follows_read fun directory => follows_bind (follows_load_housing follows _ _) ?_
    intro loaded
    cases loaded with
    | ready module_ =>
      cases names with
      | none =>
        have bound : still.Follows (bindPublic env module_) :=
          still_of_obeys fun conduct => conduct.obeys_bindPublic env module_
        exact bound.of_still
      | some names =>
        have bound : still.Follows (bindNames env path module_ names) :=
          still_of_obeys fun conduct => conduct.obeys_bindNames env path module_ names
        exact bound.of_still
    | unfinished place running =>
      cases names with
      | none => exact follows.follows_complain _
      | some names => exact housing_defer env names place _

end Exec

/-- Whatever a run does, modules keep their tables. -/
theorem Machine.ofFuel_housing (fuel : Nat) : (Machine.ofFuel fuel).Follows Course.housing :=
  Machine.ofFuel_follows Exec.housing_coversImports fuel

theorem Machine.standard_housing : Machine.standard.Follows Course.housing :=
  Machine.ofFuel_housing fuelOfRun

namespace Exec

open Course

variable {machine : Machine}

theorem housing_startFile (follows : machine.Follows housing) (path : String) :
    housing.Follows (startFile machine path) := by
  intro world
  obtain ⟨place, absolute⟩ : ∃ place, Path.absolute world.host.files.working path = place :=
    ⟨_, rfl⟩
  by_cases idle : world.registry.loaded? place = none → world.registry.running? place = none
  · obtain ⟨space, module_, ready, calm, housed, -, -, runs⟩ :=
      startFile_runs machine path absolute idle
    let begun : World := { ready with registry := ready.registry.startMain place }
    have begins : housing.leads ready begun :=
      housing_register ready _ (ready.registry.startMain_loaded? place)
    have completed := housing_complete place (housing_runModule follows place .main module_ space)
      (housed.last begins.1)
    rw [runs, leftBy_runMain]
    exact housing.trans (housing.calm calm) (housing.trans begins completed)
  · rw [Classical.not_imp] at idle
    obtain ⟨unloaded, running⟩ := idle
    obtain ⟨job, running⟩ := Option.ne_none_iff_exists'.mp running
    obtain ⟨ready, calm, refused⟩ :=
      startFile_refuses machine path absolute unloaded running
    rw [refused, leftBy_bind_pure]
    exact housing.trans (housing.calm calm) (follows.follows_newComplaint _ ready)

end Exec

/-- The modules of a session have their tables. -/
theorem World.Reached.modules_housed {world : World} (reached : world.Reached) :
    world.ModulesHoused := by
  refine reached.keeps Exec.housing_coversImports ModulesHoused (fun led => led.2) ?_ ?_
  · intro host searchPath path module_ loaded
    cases loaded
  · intro world path housed
    rw [runFile, perform_snd]
    exact (Exec.housing_startFile Machine.standard_housing path world).2 housed

/-! ### Requests -/

/-- What a host can ask of a session. -/
inductive Request where
  | runSource (file text : String)
  | runFile (file : String)
  | importByName (name : String)
  | report (failure : Failure)
  | interrupt
  | takeOutput
  | writeFile (file text : String)
  | setSearchVariable (value : String)
  | addSearchPath (directories : List String)

namespace Request

/-- The world that a request leaves behind. -/
def serve (world : World) : Request → World
  | .runSource file text => (world.runSource file text).2
  | .runFile file => (world.runFile file).2
  | .importByName name => (world.importByName name).2
  | .report failure => (world.reportOf failure).2
  | .interrupt => world.interrupt
  | .takeOutput => world.takeOutput.2.2
  | .writeFile file text => world.writeFile file text
  | .setSearchVariable value => world.setSearchVariable value
  | .addSearchPath directories => world.addSearchPath directories

/-- The request runs this file as the main program, and nothing fails. -/
def Replaces (world : World) (path : String) : Request → Prop
  | .runFile file =>
    Path.absolute world.host.files.working file = path ∧ (world.runFile file).1.failure = none
  | _ => False

end Request

namespace World

theorem Reached.serve {world : World} (reached : world.Reached) :
    ∀ request : Request, (request.serve world).Reached
  | .runSource file text => reached.ranSource file text
  | .runFile file => reached.ranFile file
  | .importByName name => reached.imported name
  | .report failure => reached.reported failure
  | .interrupt => reached.interrupted
  | .takeOutput => reached.outputTaken
  | .writeFile file text => reached.fileWritten file text
  | .setSearchVariable value => reached.searchVariableSet value
  | .addSearchPath directories => reached.searchPathAdded directories

theorem lasts_serve (world : World) : ∀ request : Request, world.Lasts (request.serve world)
  | .runSource file text => (Trail.lasting_forSessions.worldAlong world).runSource file text
  | .runFile file => (Trail.lasting_forSessions.worldAlong world).runFile file
  | .importByName name => (Trail.lasting_forSessions.worldAlong world).importByName name
  | .report failure => (Trail.lasting_forSessions.worldAlong world).reportOf failure
  | .interrupt | .takeOutput | .writeFile .. | .setSearchVariable _ | .addSearchPath _ =>
    .of_same rfl rfl

/-- Running a file as the main program puts a new module in the place of the old one, if nothing
fails. Since no import is running, nothing waits for the file. -/
theorem Reached.runFile_loaded? {world : World} (reached : world.Reached) {file place : String}
    (absolute : Path.absolute world.host.files.working file = place) {module_ : Ref}
    (loaded : world.registry.loaded? place = some module_) :
    if (world.runFile file).1.failure = none then
      ∃ later, (world.runFile file).2.registry.loaded? place = some later ∧
        world.objects.size ≤ later.index
    else (world.runFile file).2.registry.loaded? place = some module_ := by
  obtain ⟨space, new, ready, calm, -, fresh, -, runs⟩ :=
    Exec.startFile_runs .standard file absolute fun unloaded => by
      cases unloaded.symm.trans loaded
  let begun : World := { ready with registry := ready.registry.startMain place }
  have known : begun.registry.loaded? place = some module_ := by
    change (ready.registry.startMain place).loaded? place = _
    rw [Registry.startMain_loaded?, calm.registry, loaded]
  have idle : begun.registry.running? place = none := by
    change (ready.registry.startMain place).running? place = none
    rw [calm.registry, Registry.startMain, loaded]
    exact reached.rests.running?_eq_none place
  have follows := Machine.standard_advancing.follows_runPath place space
  let started : World := { begun with registry := begun.registry.note (.started place .main) }
  rw [runFile, perform, runs, Exec.runMain,
    Exec.bind_of_ok (rfl : Exec.modifyRegistry (·.startMain place) ready = .ok () begun)]
  cases ended : Exec.runPath .standard place space started with
  | error failure after =>
    have advances : started.registry.Advances after.registry := follows.of_error ended
    have failed : Exec.complete place new (Exec.runModule .standard place .main new space) begun =
        _ := Exec.complete_of_error (Exec.runModule_of_error ended)
    rw [Exec.bind_of_ok (Exec.attempt_error failed)]
    exact advances.loaded place module_ known
  | ok _ after =>
    have advances : started.registry.Advances after.registry := follows.of_ok ended
    have still : after.registry.running? place = none := by
      rw [← Option.not_isSome_iff_eq_none, advances.resumes.running?]
      change ¬ (begun.registry.running? place).isSome = true
      rw [idle]
      simp
    have done : Exec.complete place new (Exec.runModule .standard place .main new space) begun =
        _ := Exec.complete_of_ok (Exec.runModule_of_ok ended)
    change _ = (((after.registry.running? place).elim [] Job.deferred).forM _ : Exec Unit) _ at done
    rw [still] at done
    rw [Exec.bind_of_ok (Exec.attempt_ok done)]
    refine ⟨new, ?_, fresh⟩
    change (after.registry.finish place new).loaded? place = some new
    rw [Registry.loaded?_finish, if_pos rfl]

/-- Only a run of its file as the main program, without a failure, replaces a module. -/
theorem Reached.loaded?_serve {world : World} (reached : world.Reached) {path : String}
    {module_ : Ref} (loaded : world.registry.loaded? path = some module_) (request : Request) :
    ∃ later, (request.serve world).registry.loaded? path = some later ∧
      (¬ request.Replaces world path → later = module_) ∧
      (request.Replaces world path → world.objects.size ≤ later.index) := by
  have kept {after : World} (advances : world.registry.Advances after.registry) :
      after.registry.loaded? path = some module_ := advances.loaded path module_ loaded
  cases request with
  | runFile file =>
    by_cases absolute : Path.absolute world.host.files.working file = path
    · have ended := reached.runFile_loaded? absolute loaded
      split at ended
      next done =>
        obtain ⟨later, replaced, fresh⟩ := ended
        exact ⟨later, replaced, fun other => absurd ⟨absolute, done⟩ other, fun _ => fresh⟩
      next failed =>
        exact ⟨module_, ended, fun _ => rfl, fun replaces => absurd replaces.2 failed⟩
    · refine ⟨module_, ?_, fun _ => rfl, fun replaces => absurd replaces.1 absolute⟩
      change (world.runFile file).2.registry.loaded? path = _
      rw [runFile, perform_snd]
      obtain ⟨-, -, same⟩ | ⟨-, _, completes⟩ :=
        Exec.startFile_registry Machine.standard_advancing file world
      · rw [same, loaded]
      · exact completes.loaded (Ne.symm absolute)
          ((world.registry.startMain_loaded? _ path).trans loaded)
  | runSource file text =>
    refine ⟨module_, kept ?_, fun _ => rfl, False.elim⟩
    rw [Request.serve, runSource, perform_snd]
    exact Machine.standard_advancing.follows_startText file text world
  | importByName name =>
    refine ⟨module_, kept ?_, fun _ => rfl, False.elim⟩
    rw [Request.serve, importByName, perform_snd]
    exact Machine.standard_advancing.follows_startImport Exec.advancing_coversImports name world
  | report failure =>
    refine ⟨module_, kept ?_, fun _ => rfl, False.elim⟩
    rw [Request.serve, reportOf, perform_snd]
    exact Machine.standard_advancing.follows_report failure world
  | _ => exact ⟨module_, loaded, fun _ => rfl, False.elim⟩

/-! ### Sequences of requests -/

/-- The world that requests leave behind, served one after the other. -/
def serveAll (world : World) (requests : List Request) : World :=
  requests.foldl (fun world request => request.serve world) world

/-- One of the requests runs this file as the main program, and nothing fails. -/
def ReplacedBy (world : World) (path : String) : List Request → Prop
  | [] => False
  | request :: rest =>
    request.Replaces world path ∨ (request.serve world).ReplacedBy path rest

theorem Reached.loaded?_serveAll {world : World} (reached : world.Reached) {path : String}
    {module_ : Ref} (loaded : world.registry.loaded? path = some module_)
    (requests : List Request) :
    ∃ later, (world.serveAll requests).registry.loaded? path = some later ∧
      (¬ world.ReplacedBy path requests → later = module_) ∧
      (world.ReplacedBy path requests → world.objects.size ≤ later.index) := by
  induction requests generalizing world module_ with
  | nil => exact ⟨module_, loaded, fun _ => rfl, False.elim⟩
  | cons request rest inductionHypothesis =>
    obtain ⟨middle, early, same, fresh⟩ := reached.loaded?_serve loaded request
    obtain ⟨later, late, sameLater, fresher⟩ :=
      inductionHypothesis (reached.serve request) early
    have grown := (world.lasts_serve request).objects
    refine ⟨later, late, fun undisturbed => ?_, fun replaces => ?_⟩
    · rw [ReplacedBy, not_or] at undisturbed
      rw [sameLater undisturbed.2, same undisturbed.1]
    · by_cases again : (request.serve world).ReplacedBy path rest
      · exact grown.trans (fresher again)
      · rw [sameLater again]
        exact fresh (replaces.resolve_right again)

/-- A module in the registry never gets lost. Whatever is asked of a session, and whether it fails
or not, it stays the module of its file, unless the file is run as the main program without a
failure: then another module takes its place. -/
theorem Reached.module_kept_or_replaced {world : World} (reached : world.Reached) {path : String}
    {module_ : Ref} (loaded : world.registry.loaded? path = some module_)
    (requests : List Request) :
    ∃ later, (world.serveAll requests).registry.loaded? path = some later ∧
      (later = module_ ↔ ¬ world.ReplacedBy path requests) := by
  obtain ⟨later, known, same, fresh⟩ := reached.loaded?_serveAll loaded requests
  refine ⟨later, known, fun unchanged replaces => ?_, same⟩
  have bound := (reached.modules_housed path module_ loaded).bound
  rw [unchanged] at fresh
  exact absurd bound (Nat.not_lt.mpr (fresh replaces))

/-- A file without statements has a module once it was run as the main program. -/
theorem Reached.runFile_without_statements {world : World} (reached : world.Reached)
    {file place text : String} (absolute : Path.absolute world.host.files.working file = place)
    (found : world.host.textAt place = .ok text) (parsed : Program.parse place text = .ok []) :
    ∃ space module_ after, world.runFile file = (⟨some space, none⟩, after) ∧
      after.registry.loaded? place = some module_ ∧ after.host = world.host := by
  obtain ⟨space, module_, ready, calm, -, -, host, runs⟩ :=
    Exec.startFile_runs .standard file absolute fun _ =>
      reached.rests.running?_eq_none place
  let begun : World := { ready with registry := ready.registry.startMain place }
  have unawaited : (begun.registry.running? place).elim [] Job.deferred = [] := by
    change ((ready.registry.startMain place).running? place).elim [] Job.deferred = []
    rw [calm.registry, Registry.startMain]
    split
    · rw [Registry.running?_begin, if_pos rfl]
      rfl
    · rw [reached.rests.running?_eq_none place]
      rfl
  let started : World := { begun with registry := begun.registry.note (.started place .main) }
  let ended : World := started.rememberSource place text
  let noted := ended.registry.note (.finished place module_)
  let last : World := { ended with registry := noted.finish place module_ }
  have body : Exec.runPath .standard place space started = .ok () ended := by
    have here : started.host.textAt place = .ok text :=
      (congrArg (·.textAt place) host).trans found
    rw [Exec.runPath_of_ok here, Exec.runText,
      Exec.bind_of_ok (rfl : Exec.change _ started = .ok () ended), parsed]
    rfl
  have completed : Exec.complete place module_
      (Exec.runModule .standard place .main module_ space) begun = .ok () last := by
    rw [Exec.complete_of_ok (Exec.runModule_of_ok body)]
    change (((begun.registry.running? place).elim [] Job.deferred).forM _ : Exec Unit) _ = _
    rw [unawaited]
    rfl
  refine ⟨space, module_, last, ?_, ?_, host⟩
  · rw [runFile, perform, runs, Exec.runMain,
      Exec.bind_of_ok (rfl : Exec.modifyRegistry (·.startMain place) ready = .ok () begun),
      Exec.bind_of_ok (Exec.attempt_ok completed)]
    rfl
  · change (noted.finish place module_).loaded? place = some module_
    rw [Registry.loaded?_finish, if_pos rfl]

/-- A file without statements is run, and run again: it has another module then. -/
theorem empty_file_replaced :
    let host : Host :=
      { files := ⟨"/", [("/m", "")]⟩
        input := ""
        output := "" }
    let world := ((beginning host []).runFile "/m").2
    ∃ module_ later, world.registry.loaded? "/m" = some module_ ∧
      (world.serveAll [.runFile "/m"]).registry.loaded? "/m" = some later ∧ later ≠ module_ := by
  intro host world
  have reached : (beginning host []).Reached := .beginning host []
  have rooted : Path.isAbsolute "/" "/m" = true := by
    simp [Path.isAbsolute]
  have parts : Path.parts "/m" = ["m"] := by
    cbv
  have absolute : Path.absolute host.files.working "/m" = "/m" := by
    change Path.absolute "/" "/m" = "/m"
    rw [Path.absolute, if_pos rooted, Path.clean, if_pos rooted, parts]
    cbv
  have found : host.files.read "/m" = .ok "" := by
    rw [Files.read, Files.look, if_neg (by simp), if_pos rooted, Files.partsToFollow, parts]
    cbv
  have files : (beginning host []).host.files = host.files := by
    decide +kernel
  have readable : (beginning host []).host.unreadable = [] := by
    decide +kernel
  have found : (beginning host []).host.textAt "/m" = .ok "" := by
    rw [Host.textAt, files, found, readable]
    rfl
  have parsed : Program.parse "/m" "" = .ok [] := by
    cbv
  rw [← files] at absolute
  obtain ⟨_, module_, after, ran, loaded, same⟩ :=
    reached.runFile_without_statements absolute found parsed
  have first : world = after := congrArg Prod.snd ran
  rw [← same] at found absolute
  rw [← first] at loaded found absolute
  have again : world.Reached := reached.ranFile "/m"
  obtain ⟨_, _, _, rerun, -, -⟩ := again.runFile_without_statements absolute found parsed
  obtain ⟨later, replaced, iff⟩ := again.module_kept_or_replaced loaded [.runFile "/m"]
  refine ⟨module_, later, loaded, replaced, fun unchanged => iff.mp unchanged (.inl ?_)⟩
  exact ⟨absolute, congrArg (·.1.failure) rerun⟩

end World

end Offside
