/-
This file follows a passage through whole sessions. Imports change the registry of
modules and announce names, and between the runs of a session files are written and
settings are made. If a passage allows for that, imports keep to it, and what holds in
every bare world holds in every world of a session.

A binding that an import defers is carried out by another import later, and it records
its line then. So the lines of the bindings that wait have to be lines of statements.

What is known of the lines that are recorded comes from the texts that are read, so a
session is given the texts that it may read: its source texts and all of its files.
-/

import Offside.Proofs.Passage.Execution
import Offside.Proofs.Reached

open Std.Do

set_option mvcgen.warning false

namespace Offside

/-- The bindings that wait for imports. -/
def Registry.allDeferred (registry : Registry) : List Deferred :=
  registry.running.flatMap (·.2.deferred)

/-- The line that a deferred binding records has a property. -/
def Deferred.Stands (placed : Location → Prop) : Deferred → Prop
  | .bindModule _ _ _ => True
  | .bindNames _ _ _ location => placed location

/-- A passage allows for what imports do to modules and names, and for what a session does between
its runs. -/
structure Passage.ForSessions (passage : Passage) : Prop where
  bare : ∀ (host : Host) (searchPath : List String), host.files.Given passage.given →
    passage.fine (.bare host searchPath)
  waiting : ∀ {world : World}, passage.fine world →
    ∀ binding ∈ world.registry.allDeferred, binding.Stands passage.placed
  registering : ∀ {world : World} {registry : Registry}, passage.fine world →
    (∀ binding ∈ registry.allDeferred, binding.Stands passage.placed) →
    passage.leads world { world with registry }
  announcing : ∀ {world : World} (space : SpaceId) (name : String), passage.fine world →
    passage.leads world { world with
      spaces := world.spaces.modify space.index (·.announce name) }
  writing : ∀ {world : World} {files : Files}, passage.fine world → files.Given passage.given →
    passage.leads world { world with host := { world.host with files } }

namespace Registry

variable (registry : Registry)

theorem filter_subset_allDeferred (keep : String × Job → Bool) :
    (registry.running.filter keep).flatMap (·.2.deferred) ⊆ registry.allDeferred :=
  (List.filter_sublist.flatMap _).subset

theorem mem_allDeferred_of_defer {path : String} {binding other : Deferred}
    (found : other ∈ (registry.defer path binding).allDeferred) :
    other ∈ registry.allDeferred ∨ other = binding := by
  simp only [allDeferred, defer, List.mem_flatMap, List.mem_map] at found ⊢
  obtain ⟨_, ⟨⟨place, job⟩, known, rfl⟩, member⟩ := found
  split at member
  · rw [List.mem_append, List.mem_singleton] at member
    exact member.imp_left fun member => ⟨_, known, member⟩
  · exact .inl ⟨_, known, member⟩

theorem allDeferred_startMain_subset (path : String) :
    (registry.startMain path).allDeferred ⊆ registry.allDeferred := by
  rw [startMain]
  split <;> exact List.Subset.refl _

theorem mem_allDeferred_of_running? {path : String} {job : Job} {binding : Deferred}
    (running : registry.running? path = some job) (member : binding ∈ job.deferred) :
    binding ∈ registry.allDeferred := by
  obtain ⟨earlier, later, split, -⟩ := List.lookup_eq_some_iff.mp running
  rw [allDeferred, split, List.mem_flatMap]
  exact ⟨_, List.mem_append_right _ List.mem_cons_self, member⟩

end Registry

/-! ### Source texts and modules -/

namespace Machine.Keeps

open Exec Passage

variable {passage : Passage} {machine : Machine}
  {level : RaisedId → Array Raised → Prop} {world : World}

section Loading

variable (keeps : machine.Keeps passage) (fine : passage.fine world)

include keeps fine

theorem ends_runText {file text : String} (given : passage.given file text) (space : SpaceId) :
    passage.Ends passage.recorded world (runText machine file text space world) := by
  refine ends_change (passage.loading fine given) ?_
  have fine := passage.fine_of_leads (passage.loading fine given)
  cases parsed : Program.parse file text with
  | error => exact ends_throw fine trivial
  | ok program =>
    refine ends_bind (keeps.run _ fine (passage.parsed given parsed)) fun flow _ led => ?_
    have fine := passage.fine_of_leads led
    cases flow with
    | done => exact ends_pure fine _
    | _ => exact ends_throw fine trivial

theorem ends_runPath (path : String) (space : SpaceId) :
    passage.Ends passage.recorded world (runPath machine path space world) := by
  refine ends_read fun answer same => ?_
  subst same
  cases found : world.host.textAt path with
  | ok text =>
    have given := passage.files fine path text (Host.read_of_textAt found)
    exact keeps.ends_runText fine given space
  | error => exact ends_throw fine trivial

theorem ends_settleDeferred (module_ : Ref) {binding : Deferred}
    (stands : binding.Stands passage.placed) :
    passage.Ends passage.raised world (settleDeferred module_ binding world) := by
  cases binding with
  | bindModule env path newName =>
    exact keeps.ends_of_obeys fine fun origin =>
      (keeps.conduct origin).obeys_bindModule env path newName module_
  | bindNames env path names location =>
    exact (ends_traced stands env (keeps.ends_of_obeys fine fun origin =>
      (keeps.conduct origin).obeys_bindNames env path module_ names)).inside

end Loading

section Registering

variable (sessions : passage.ForSessions)

include sessions

/-- A change of the registry after which no other binding waits. -/
theorem leads_registry (fine : passage.fine world) {registry : Registry}
    (fewer : registry.allDeferred ⊆ world.registry.allDeferred) :
    passage.leads world { world with registry } :=
  sessions.registering fine fun binding found => sessions.waiting fine binding (fewer found)

theorem ends_modifyRegistry (fine : passage.fine world) {step : Registry → Registry}
    (fewer : (step world.registry).allDeferred ⊆ world.registry.allDeferred) :
    passage.Ends level world (modifyRegistry step world) :=
  .ok (leads_registry sessions fine fewer)

/-- A failure that is entered into the registry and thrown again. -/
theorem ends_entered {α : Type} {failure : Failure} (fine : passage.fine world)
    (meets : failure.Meets passage.raised world.raised) {step : Registry → Registry}
    (fewer : (step world.registry).allDeferred ⊆ world.registry.allDeferred) :
    passage.Ends passage.raised world ((do
      modifyRegistry step
      throw failure : Exec α) world) := by
  have led := leads_registry sessions fine fewer
  exact ends_change led (ends_throw (passage.fine_of_leads led) meets)

theorem ends_postpone (fine : passage.fine world) (path : String) {binding : Deferred}
    (stands : binding.Stands passage.placed) :
    passage.Ends level world (postpone path binding world) := by
  refine .ok (sessions.registering fine fun other found => ?_)
  obtain known | rfl := world.registry.mem_allDeferred_of_defer found
  · exact sessions.waiting fine other known
  · exact stands

theorem ends_announceAll (fine : passage.fine world) (env : Env) (names : List String) :
    passage.Ends level world (announceAll env names world) := by
  refine ends_forM fine fun name _ middle fine => ?_
  cases env with
  | nil => exact ends_pure fine _
  | cons frame rest => exact .ok (sessions.announcing frame.space name fine)

end Registering

section Importing

variable (keeps : machine.Keeps passage) (sessions : passage.ForSessions)

include keeps sessions

theorem ends_carryOut (fine : passage.fine world) (path : String) (module_ : Ref)
    {binding : Deferred}
    (stands : binding.Stands passage.placed) :
    passage.Ends passage.raised world (carryOut path module_ binding world) := by
  refine ends_bind (ends_tryCatch (keeps.ends_settleDeferred fine module_ stands)
    fun failure _ led meets => ?_) fun _ _ led => ?_
  · exact ends_entered sessions (passage.fine_of_leads led) meets (List.Subset.refl _)
  · exact ends_modifyRegistry sessions (passage.fine_of_leads led) (List.Subset.refl _)

theorem ends_runModule (fine : passage.fine world) (path : String) (purpose : Purpose)
    (module_ : Ref) (space : SpaceId) :
    passage.Ends passage.raised world
      (runModule machine path purpose module_ space world) := by
  refine ends_bind (ends_modifyRegistry sessions fine (List.Subset.refl _)) fun _ _ led => ?_
  refine ends_bind (ends_tryCatch (keeps.ends_runPath (passage.fine_of_leads led) path space).inside
    fun failure _ led meets => ?_) fun _ _ led => ?_
  · exact ends_entered sessions (passage.fine_of_leads led) meets (List.Subset.refl _)
  · exact ends_modifyRegistry sessions (passage.fine_of_leads led) (List.Subset.refl _)

/-- The bindings that an import carries out in the end are those that waited for it. -/
theorem ends_complete (path : String) (module_ : Ref) {body : Exec Unit}
    (bodyEnds : passage.Ends passage.raised world (body world)) :
    passage.Ends passage.raised world (complete path module_ body world) := by
  refine ends_bind (ends_tryCatch bodyEnds fun failure _ led meets => ?_) fun _ middle led => ?_
  · exact ends_entered sessions (passage.fine_of_leads led) meets
      (Registry.filter_subset_allDeferred _ _)
  have fine := passage.fine_of_leads led
  refine ends_read fun job running => ?_
  refine ends_bind (ends_modifyRegistry sessions fine (Registry.filter_subset_allDeferred _ _))
    fun _ _ led => ?_
  have finished := passage.fine_of_leads led
  cases job with
  | none => exact ends_pure finished _
  | some job =>
    refine ends_forM finished fun binding member _ finished => ?_
    exact ends_carryOut keeps sessions finished path module_
      (sessions.waiting fine binding (Registry.mem_allDeferred_of_running? _ running member))

variable (fine : passage.fine world)

include fine

theorem ends_loadFresh (path name : String) :
    passage.Ends passage.raised world (loadFresh machine path name world) := by
  refine ends_bind (ends_modifyRegistry sessions fine (List.Subset.refl _)) fun _ _ led => ?_
  refine ends_bind (keeps.ends_of_obeys (passage.fine_of_leads led) fun origin =>
    (keeps.conduct origin).obeys_newFileModule name path) fun made _ led => ?_
  obtain ⟨space, module_⟩ := made
  have fine := passage.fine_of_leads led
  refine ends_bind (ends_complete keeps sessions path module_
    (ends_runModule keeps sessions fine path .imported module_ space)) fun _ _ led => ?_
  exact ends_pure (passage.fine_of_leads led) _

theorem ends_load (name directory : String) :
    passage.Ends passage.raised world (load machine name directory world) := by
  refine ends_read fun found _ => ?_
  cases found with
  | none => exact keeps.ends_complain fine _
  | some path =>
    refine ends_read fun registry _ => ?_
    cases registry.loaded? path with
    | some module_ =>
      refine ends_bind (ends_modifyRegistry sessions fine (List.Subset.refl _)) fun _ _ led => ?_
      exact ends_pure (passage.fine_of_leads led) _
    | none =>
      cases registry.running? path with
      | some job => exact ends_pure fine _
      | none =>
        refine ends_bind (ends_loadFresh keeps sessions fine path name) fun _ _ led => ?_
        exact ends_pure (passage.fine_of_leads led) _

theorem ends_importModule (env : Env) (location : Location) (path : List String)
    (newName : Option String) :
    passage.Ends passage.raised world
      (importModule machine env location path newName world) := by
  refine ends_read fun directory _ => ?_
  refine ends_bind (ends_load keeps sessions fine (dotted path) directory) fun found _ led => ?_
  have fine := passage.fine_of_leads led
  cases found with
  | ready module_ =>
    exact keeps.ends_of_obeys fine fun origin =>
      (keeps.conduct origin).obeys_bindModule env path newName module_
  | unfinished place =>
    refine ends_bind (ends_announceAll sessions fine env _) fun _ _ led => ?_
    exact ends_postpone sessions (passage.fine_of_leads led) place trivial

theorem ends_importNames (env : Env) {location : Location} (placed : passage.placed location)
    (path : List String) (names : Option (List String)) :
    passage.Ends passage.raised world (importNames machine env location path names world) := by
  refine ends_read fun directory _ => ?_
  refine ends_bind (ends_load keeps sessions fine (dotted path) directory) fun found _ led => ?_
  have fine := passage.fine_of_leads led
  cases found with
  | ready module_ =>
    cases names with
    | some names =>
      exact keeps.ends_of_obeys fine fun origin =>
        (keeps.conduct origin).obeys_bindNames env path module_ names
    | none =>
      exact keeps.ends_of_obeys fine fun origin =>
        (keeps.conduct origin).obeys_bindPublic env module_
  | unfinished place =>
    cases names with
    | none => exact keeps.ends_complain fine _
    | some names =>
      refine ends_bind (ends_announceAll sessions fine env _) fun _ _ led => ?_
      exact ends_postpone sessions (passage.fine_of_leads led) place placed

end Importing

end Machine.Keeps

/-! ### Runs and reports -/

theorem Passage.ForSessions.coversImports {passage : Passage} (sessions : passage.ForSessions) :
    passage.CoversImports where
  importModule keeps env location path newName _ fine _ :=
    keeps.ends_importModule sessions fine env location path newName
  importNames keeps env _ path names _ fine placed :=
    keeps.ends_importNames sessions fine env placed path names

theorem Passage.ForSessions.ofFuel {passage : Passage} (sessions : passage.ForSessions)
    (fuel : Nat) : (Machine.ofFuel fuel).Keeps passage :=
  Machine.ofFuel_keeps sessions.coversImports fuel

namespace Machine.Keeps

open Exec Passage

variable {passage : Passage} {machine : Machine}
  {level : RaisedId → Array Raised → Prop} {world : World}

/-- A step is attempted, and then a step comes that may rely on how it ended. -/
theorem ends_attempt {α β : Type} {other : RaisedId → Array Raised → Prop} {step : Exec α}
    {next : Except Failure α → Exec β} (ended : passage.Ends other world (step world))
    (rest : ∀ outcome after, passage.leads world after → Settled other after.raised outcome →
      passage.Ends level after (next outcome after)) :
    passage.Ends level world ((attempt step >>= next) world) := by
  cases done : step world with
  | ok value after =>
    have led := ended.of_ok done
    rw [bind_of_ok (attempt_ok done)]
    exact (rest (.ok value) after led True.intro).after led
  | error failure after =>
    obtain ⟨led, meets⟩ := ended.of_error done
    rw [bind_of_ok (attempt_error done)]
    exact (rest (.error failure) after led meets).after led

section Running

variable (keeps : machine.Keeps passage) (fine : passage.fine world)

include keeps fine

/-- A run of a source text gives an outcome, and an exception in it has left a statement. -/
theorem startText_spec {file text : String} (given : passage.given file text) :
    ∃ outcome after, startText machine file text world = .ok outcome after ∧
      passage.leads world after ∧
      ∀ failure ∈ outcome.failure, failure.Meets passage.recorded after.raised := by
  obtain ⟨space, ready, made⟩ :
      ∃ space ready, newModuleSpace "__main__" file world = .ok space ready := ⟨_, _, rfl⟩
  have led := (keeps.ends_of_obeys fine fun origin =>
    (keeps.conduct origin).obeys_newModuleSpace "__main__" file).of_ok made
  have ran := keeps.ends_runText (passage.fine_of_leads led) given space
  rw [startText, bind_of_ok made]
  cases done : runText machine file text space ready with
  | ok _ after =>
    rw [bind_of_ok (attempt_ok done)]
    exact ⟨_, after, rfl, passage.trans led (ran.of_ok done), fun _ none => by cases none⟩
  | error failure after =>
    obtain ⟨next, meets⟩ := ran.of_error done
    rw [bind_of_ok (attempt_error done)]
    refine ⟨_, after, rfl, passage.trans led next, fun _ same => ?_⟩
    cases same
    exact meets

theorem ends_newComplaint (complaint : Complaint) :
    passage.Ends level world (newComplaint complaint world) := by
  refine keeps.ends_of_succeeds fine (fun origin => ?_) ?_
  · mvcgen [newComplaint]
    exact fun led _ => led
  · unfold newComplaint
    cases complaint.message <;> exact ⟨_, _, rfl⟩

theorem ends_raisedReport (id : RaisedId) :
    passage.Ends passage.raised world (raisedReport machine id world) := by
  refine ends_read fun frames _ => ends_read fun raised _ => ?_
  refine ends_bind ?_ fun line _ led => ends_pure (passage.fine_of_leads led) _
  refine ends_read fun name _ => ends_settle (keeps.ends_of_obeys fine fun origin =>
    (keeps.conduct origin).obeys_str _) fun ended _ led _ => ?_
  have fine := passage.fine_of_leads led
  cases ended with
  | ok => exact ends_pure fine _
  | error => exact ends_read fun text _ => ends_pure fine _

theorem ends_raisedReports (chain : List RaisedId) :
    passage.Ends passage.raised world (raisedReports machine chain world) := by
  induction chain generalizing world with
  | nil => exact ends_pure fine _
  | cons id rest inductionHypothesis =>
    refine ends_bind (keeps.ends_raisedReport fine id) fun _ _ led => ?_
    refine ends_bind (inductionHypothesis (passage.fine_of_leads led)) fun _ _ led => ?_
    exact ends_pure (passage.fine_of_leads led) _

theorem ends_report (failure : Failure) :
    passage.Ends passage.raised world (report machine failure world) := by
  refine ends_read fun message _ => ?_
  cases failure with
  | raised id =>
    refine ends_read fun chain _ => ?_
    refine ends_bind (keeps.ends_raisedReports fine chain) fun _ _ led => ?_
    exact ends_pure (passage.fine_of_leads led) _
  | source | internal => exact .ok (passage.refl fine)
  | _ => exact ends_pure fine _

variable (sessions : passage.ForSessions)

include sessions

theorem ends_startFile (path : String) :
    passage.Ends passage.raised world (startFile machine path world) := by
  refine ends_read fun place _ => ?_
  refine ends_bind (keeps.ends_of_obeys fine fun origin =>
    (keeps.conduct origin).obeys_newFileModule "__main__" place) fun made ready led => ?_
  obtain ⟨space, module_⟩ := made
  have fine := passage.fine_of_leads led
  refine ends_read fun registry _ => ?_
  have started : passage.Ends passage.raised ready ((do
      modifyRegistry (·.startMain place)
      let body := runModule machine place .main module_ space
      return .ofRun space (← attempt (complete place module_ body)) : Exec Outcome) ready) := by
    refine ends_bind (ends_modifyRegistry sessions fine
      (Registry.allDeferred_startMain_subset _ _)) fun _ _ led => ?_
    have fine := passage.fine_of_leads led
    refine ends_attempt (ends_complete keeps sessions place module_
      (ends_runModule keeps sessions fine place .main module_ space)) fun outcome _ led _ => ?_
    exact ends_pure (passage.fine_of_leads led) _
  cases registry.loaded? place with
  | some known => exact started
  | none =>
    cases registry.running? place with
    | some job =>
      refine ends_bind (keeps.ends_newComplaint fine _) fun _ _ led => ?_
      exact ends_pure (passage.fine_of_leads led) _
    | none => exact started

theorem ends_startImport (name : String) :
    passage.Ends passage.raised world (startImport machine name world) := by
  refine ends_attempt (ends_load keeps sessions fine name ".") fun ended _ led _ => ?_
  have fine := passage.fine_of_leads led
  cases ended with
  | ok loaded =>
    cases loaded with
    | ready module_ => exact ends_read fun object _ => ends_pure fine _
    | unfinished place running =>
      refine ends_bind (keeps.ends_newComplaint fine _) fun _ _ led => ?_
      exact ends_pure (passage.fine_of_leads led) _
  | error => exact ends_pure fine _

end Running

end Machine.Keeps

/-! ### The beginning -/

namespace Machine.Keeps

open Exec Passage

variable {passage : Passage} {machine : Machine}
  {level : RaisedId → Array Raised → Prop} {world : World}

section Filling

variable (keeps : machine.Keeps passage) (fine : passage.fine world)

include keeps fine

theorem ends_set (space : SpaceId) (name : String) (value : Ref) :
    passage.Ends level world (modifySpace space (·.set name value) world) :=
  keeps.ends_of_succeeds fine (fun origin =>
    (keeps.conduct origin).obeys_modifySpace_set space name value) ⟨_, _, rfl⟩

/-- A function that is not written in the language has no statements. -/
theorem ends_newNative (name : String) (native : Native) :
    passage.Ends level world (newNative name native world) := by
  refine ends_bind (keeps.ends_of_succeeds fine (fun origin =>
    (keeps.conduct origin).obeys_newSpace_empty) ⟨_, _, rfl⟩) fun space _ led => ?_
  refine .ok (passage.defining _ (passage.fine_of_leads led) rfl fun _ _ _ _ known code => ?_)
  cases known
  cases code

theorem ends_fillMethod (builtin : BuiltinClass) (entry : String × Method) :
    passage.Ends level world (fillMethod builtin entry world) :=
  ends_bind (keeps.ends_newNative fine _ _) fun _ _ led =>
    keeps.ends_set (passage.fine_of_leads led) _ _ _

theorem ends_fillClass (builtin : BuiltinClass) :
    passage.Ends level world (fillClass builtin world) := by
  have rest {middle : World} (fine : passage.fine middle) :
      passage.Ends level middle ((do
        builtin.methods.forM (fillMethod builtin)
        if builtin.isGlobal then modifySpace builtinsSpace (·.set builtin.name builtin.ref) :
        Exec Unit) middle) := by
    refine ends_bind (ends_forM fine fun entry _ _ fine => keeps.ends_fillMethod fine builtin entry)
      fun _ _ led => ?_
    split
    · exact keeps.ends_set (passage.fine_of_leads led) _ _ _
    · exact ends_pure (passage.fine_of_leads led) _
  refine ends_bind (keeps.ends_of_succeeds fine (fun origin =>
    (keeps.conduct origin).obeys_newStr builtin.name) ⟨_, _, rfl⟩) fun name _ led => ?_
  refine ends_bind (keeps.ends_set (passage.fine_of_leads led) _ _ _) fun _ _ led => ?_
  have fine := passage.fine_of_leads led
  cases builtin.base? with
  | some base =>
    exact ends_bind (keeps.ends_set fine _ _ _) fun _ _ led => rest (passage.fine_of_leads led)
  | none => exact rest fine

theorem ends_fillBuiltins : passage.Ends passage.raised world (fillBuiltins world) := by
  rw [fillBuiltins]
  -- Which classes and functions there are plays no part, and is kept from being computed.
  generalize BuiltinClass.all = classes
  generalize FreeFunction.all = functions
  refine ends_bind (ends_forM fine fun builtin _ _ fine => keeps.ends_fillClass fine builtin)
    fun _ _ led => ?_
  refine ends_forM (passage.fine_of_leads led) fun function _ _ fine => ?_
  exact ends_bind (keeps.ends_newNative fine _ _) fun _ _ led =>
    keeps.ends_set (passage.fine_of_leads led) _ _ _

end Filling

end Machine.Keeps

theorem World.beginning_eq (host : Host) (searchPath : List String) :
    beginning host searchPath = leftBy (Exec.fillBuiltins (bare host searchPath)) := by
  delta beginning
  generalize Exec.fillBuiltins (bare host searchPath) = result
  cases result <;> rfl

namespace Passage.ForSessions

variable {passage : Passage} (sessions : passage.ForSessions)

include sessions

theorem beginning_fine {host : Host} (searchPath : List String)
    (given : host.files.Given passage.given) : passage.fine (.beginning host searchPath) := by
  have fine := sessions.bare host searchPath given
  rw [World.beginning_eq]
  exact passage.fine_of_leads ((sessions.ofFuel 0).ends_fillBuiltins fine).leftBy

end Passage.ForSessions

/-! ### Worlds of a session -/

namespace World

/-- A world that some use of a session leads to in which only given texts are read. -/
inductive ReachedGiven (given : String → String → Prop) : World → Prop
  | beginning {host : Host} (searchPath : List String) :
    host.files.Given given → ReachedGiven given (.beginning host searchPath)
  | ran {world : World} {file text : String} {program : List Stmt} (fuel : Nat) (env : Env) :
    ReachedGiven given world → given file text → Program.parse file text = .ok program →
    ReachedGiven given (leftBy ((Machine.ofFuel fuel).run program env world))
  | ranSource {world : World} {file text : String} :
    ReachedGiven given world → given file text → ReachedGiven given (world.runSource file text).2
  | ranFile {world : World} (path : String) :
    ReachedGiven given world → ReachedGiven given (world.runFile path).2
  | imported {world : World} (name : String) :
    ReachedGiven given world → ReachedGiven given (world.importByName name).2
  | reported {world : World} (failure : Failure) :
    ReachedGiven given world → ReachedGiven given (world.reportOf failure).2
  | interrupted {world : World} : ReachedGiven given world → ReachedGiven given world.interrupt
  | outputTaken {world : World} :
    ReachedGiven given world → ReachedGiven given world.takeOutput.2.2
  | fileWritten {world : World} {path text : String} : ReachedGiven given world →
    (world.host.files.write path text).Given given →
    ReachedGiven given (world.writeFile path text)
  | searchVariableSet {world : World} (value : String) :
    ReachedGiven given world → ReachedGiven given (world.setSearchVariable value)
  | searchPathAdded {world : World} (directories : List String) :
    ReachedGiven given world → ReachedGiven given (world.addSearchPath directories)

/-- What a passage asks for holds in every world of a session. -/
theorem ReachedGiven.fine {passage : Passage} (sessions : passage.ForSessions) {world : World}
    (reached : world.ReachedGiven passage.given) : passage.fine world := by
  have standard : Machine.standard.Keeps passage := sessions.ofFuel fuelOfRun
  have same {before after : World} (fine : passage.fine before) (quiet : before.Quiet after) :
      passage.fine after := passage.fine_of_leads (passage.quiet fine quiet)
  induction reached with
  | beginning searchPath given =>
    exact sessions.beginning_fine searchPath given
  | ran fuel env _ given parsed inductionHypothesis =>
    exact passage.fine_of_leads ((sessions.ofFuel fuel).run env inductionHypothesis
      (passage.parsed given parsed)).leftBy
  | ranSource _ given inductionHypothesis =>
    obtain ⟨outcome, after, done, led, -⟩ := standard.startText_spec inductionHypothesis given
    rw [runSource, perform, done]
    exact passage.fine_of_leads led
  | ranFile path _ inductionHypothesis =>
    rw [runFile, perform_snd]
    exact passage.fine_of_leads (standard.ends_startFile inductionHypothesis sessions path).leftBy
  | imported name _ inductionHypothesis =>
    rw [importByName, perform_snd]
    exact passage.fine_of_leads (standard.ends_startImport inductionHypothesis sessions name).leftBy
  | reported failure _ inductionHypothesis =>
    rw [reportOf, perform_snd]
    exact passage.fine_of_leads (standard.ends_report inductionHypothesis failure).leftBy
  | interrupted _ inductionHypothesis =>
    exact same inductionHypothesis (.of_same rfl rfl rfl rfl rfl rfl rfl rfl rfl)
  | outputTaken _ inductionHypothesis =>
    exact same inductionHypothesis (.of_same rfl rfl rfl rfl rfl rfl rfl rfl rfl)
  | fileWritten _ given inductionHypothesis =>
    exact passage.fine_of_leads (sessions.writing inductionHypothesis given)
  | searchVariableSet value _ inductionHypothesis =>
    exact same inductionHypothesis (.of_same rfl rfl rfl rfl rfl rfl rfl rfl rfl)
  | searchPathAdded directories _ inductionHypothesis =>
    exact same inductionHypothesis (.of_same rfl rfl rfl rfl rfl rfl rfl rfl rfl)

end World

end Offside
