/-
This file follows a session from its beginning: a world is reached if some sequence of
what can be done with a session leads to it. All that a session does between its runs
leaves the heap alone, and the runs keep the functions on the heap checked, so every
world that is reached is sound. Hence nothing that is run in a session ever breaks a
rule of the interpreter.
-/

import Offside.Proofs.Soundness
import Offside.Session

open Std.Do

set_option mvcgen.warning false

namespace Offside

/-! ### The beginning -/

/-- Whether a run fails or not, code stays checked and of the form that it has. -/
theorem World.leftBy_checked {watch : Watch} {α : Type} {step : Exec α} {property : α → Prop}
    {world : World} (ensures : (soundness watch).Ensures step property) (kept : world.Kept watch) :
    (leftBy (step world)).Sound ∧ (leftBy (step world)).Fits watch.fits := by
  have result := Rule.ensures_iff.mp ensures world kept
  cases done : step world with
  | ok =>
    rw [done] at result
    exact ⟨result.1.sound, result.1.fits⟩
  | error =>
    rw [done] at result
    exact ⟨result.sound, result.fits⟩

namespace Exec

variable {α : Type} {step : Exec α} {world after : World}

theorem attempt_ok {value : α} (done : step world = .ok value after) :
    attempt step world = .ok (.ok value) after := by
  rw [attempt]
  exact tryCatch_ok (bind_of_ok done)

theorem attempt_error {failure : Failure} (failed : step world = .error failure after) :
    attempt step world = .ok (.error failure) after := by
  rw [attempt, tryCatch_error (bind_of_error failed)]
  rfl

theorem newFileModule_succeeds (name file : String) (world : World) :
    ∃ made after, newFileModule name file world = .ok made after := by
  obtain ⟨space, early, spaceMade⟩ :
      ∃ space early, newModuleSpace name file world = .ok space early := ⟨_, _, rfl⟩
  obtain ⟨module_, after, made⟩ :
      ∃ module_ after, newModule name space early = .ok module_ after := by
    rw [newModule, read_bind]
    dsimp only
    split <;> exact ⟨_, _, rfl⟩
  rw [newFileModule, bind_of_ok spaceMade, bind_of_ok made]
  exact ⟨_, _, rfl⟩

end Exec

namespace Machine.Sound

open Exec Conduct

variable {watch : Watch} {machine : Machine} (sound : machine.Sound watch)

/-- The functions that a session begins with are not written in the language. -/
@[spec]
theorem obeys_newNative (name : String) (native : Native) :
    sound.conduct.Obeys (newNative name native) := by
  have allocated (space : SpaceId) : sound.conduct.Obeys (alloc ⟨BuiltinClass.function.ref,
      some space, .empty, some ⟨name, .native native, []⟩⟩) := by
    refine sound.obeys_allocCode fun function definition _ _ known code => ?_
    cases known
    cases code
  mvcgen [newNative, allocated]

@[spec]
theorem obeys_fillMethod (builtin : BuiltinClass) (entry : String × Method) :
    sound.conduct.Obeys (fillMethod builtin entry) := by
  mvcgen [fillMethod]

@[spec]
theorem obeys_fillClass (builtin : BuiltinClass) : sound.conduct.Obeys (fillClass builtin) := by
  have methods : sound.conduct.Obeys (builtin.methods.forM (fillMethod builtin)) :=
    sound.conduct.obeys_forM _ _ (sound.obeys_fillMethod builtin)
  mvcgen [fillClass, methods]

include sound in
theorem fillBuiltins_checked {world : World} (kept : world.Kept watch) :
    (World.leftBy (fillBuiltins world)).Sound ∧
      (World.leftBy (fillBuiltins world)).Fits watch.fits := by
  rw [fillBuiltins]
  -- Which classes and functions there are plays no part, and is kept from being computed.
  generalize BuiltinClass.all = classes
  generalize FreeFunction.all = functions
  refine World.leftBy_checked (?_ : sound.conduct.Ensures _ fun _ => True) kept
  refine (sound.conduct.obeys_bind _ _ ?_ fun _ => ?_).ensures
  · exact sound.conduct.obeys_forM _ _ sound.obeys_fillClass
  · refine sound.conduct.obeys_forM _ _ fun function => ?_
    mvcgen

end Machine.Sound

/-! ### Runs and reports -/

/-- No failure at all is allowed. -/
def Rule.unfailing : Rule where
  holds _ := True
  allows _ _ := False

/-- The run did not break a rule of the interpreter. -/
def Outcome.WithinRules (outcome : Outcome) : Prop :=
  ∀ failure ∈ outcome.failure, ¬ failure.IsInternal

/-- What holds when a run that was watched is over. -/
def World.Closed (watch : Watch) (outcome : Outcome) (world : World) : Prop :=
  match outcome.failure with
  | none => world.Kept watch
  | some failure => world.Failed watch failure

namespace World.Closed

variable {watch : Watch} {outcome : Outcome} {world : World}

theorem sound (closed : world.Closed watch outcome) : world.Sound := by
  unfold Closed at closed
  split at closed
  · exact Kept.sound closed
  · exact Failed.sound closed

theorem withinRules (closed : world.Closed watch outcome) : outcome.WithinRules := by
  intro failure failed
  rw [Closed, Option.mem_def.mp failed] at closed
  exact Failed.within closed

end World.Closed

namespace Machine.Sound

open Exec Conduct

variable {watch : Watch} {machine : Machine} (sound : machine.Sound watch)

/-- A step that keeps to the rules and never fails. -/
theorem leads_of_succeeds {α : Type} {step : Exec α} (obeys : sound.conduct.Obeys step)
    (succeeds : ∀ world, ∃ value after, step world = .ok value after) :
    Rule.unfailing.Leads sound.conduct.holds step fun _ => sound.conduct.holds := by
  intro world holds
  obtain ⟨value, after, done⟩ := succeeds world
  have result := Rule.ensures_iff.mp obeys.ensures world holds
  rw [done] at result ⊢
  exact result.1

theorem leads_newModuleSpace (name file : String) :
    Rule.unfailing.Leads sound.conduct.holds (newModuleSpace name file)
      fun _ => sound.conduct.holds :=
  sound.leads_of_succeeds (sound.conduct.obeys_newModuleSpace name file) fun _ => ⟨_, _, rfl⟩

theorem leads_newFileModule (name file : String) :
    Rule.unfailing.Leads sound.conduct.holds (newFileModule name file)
      fun _ => sound.conduct.holds :=
  sound.leads_of_succeeds (sound.conduct.obeys_newFileModule name file)
    (newFileModule_succeeds name file)

theorem leads_attempt {α : Type} {step : Exec α} {property : α → Prop}
    (ensures : sound.conduct.Ensures step property) :
    Rule.unfailing.Leads sound.conduct.holds (attempt step) (sound.conduct.Ended property) := by
  intro world holds
  have result := Rule.ensures_iff.mp ensures world holds
  cases done : step world with
  | ok value after =>
    rw [done] at result
    rw [attempt_ok done]
    exact result
  | error failure after =>
    rw [done] at result
    rw [attempt_error done]
    exact result

/-- A run that could not start ends with an exception. -/
theorem leads_refused (complaint : Complaint) :
    Rule.unfailing.Leads sound.conduct.holds
      (do return ⟨none, some (.raised (← newComplaint complaint))⟩)
      fun outcome world => world.Closed watch outcome := by
  have made : sound.conduct.Obeys (newComplaint complaint) := by
    mvcgen [newComplaint]
    exact fun holds _ => holds
  have succeeds (world : World) : ∃ id after, newComplaint complaint world = .ok id after := by
    unfold newComplaint
    cases complaint.message <;> exact ⟨_, _, rfl⟩
  exact (sound.leads_of_succeeds made succeeds).bind fun id _ kept => World.Kept.raised kept id

theorem leads_startText (file text : String)
    (fits : ∀ program, Program.parse file text = .ok program →
      Stmt.EverywhereAll watch.fits program) :
    Rule.unfailing.Leads sound.conduct.holds (startText machine file text)
      fun outcome world => world.Closed watch outcome := by
  refine (sound.leads_newModuleSpace _ _).bind fun space => ?_
  refine (sound.leads_attempt (sound.ensures_runText file text space fits)).bind fun ended => ?_
  cases ended with
  | ok => exact fun _ known => known.1
  | error => exact fun _ known => known

theorem leads_startFile (path : String) :
    Rule.unfailing.Leads sound.conduct.holds (startFile machine path)
      fun outcome world => world.Closed watch outcome := by
  refine Rule.leads_read fun place => ?_
  refine (sound.leads_newFileModule _ _).bind fun made => ?_
  obtain ⟨space, module_⟩ := made
  refine Rule.leads_read fun registry => ?_
  dsimp only
  split
  · exact sound.leads_refused _
  · have begun := sound.leads_of_succeeds (sound.obeys_modifyRegistry (·.startMain place))
      fun _ => ⟨_, _, rfl⟩
    have body := sound.obeys_complete place module_
      (sound.obeys_runModule place .main module_ space)
    refine begun.bind fun _ => (sound.leads_attempt body.ensures).bind fun ended => ?_
    cases ended with
    | ok => exact fun _ known => known.1
    | error => exact fun _ known => known

theorem leads_startImport (name : String) :
    Rule.unfailing.Leads sound.conduct.holds (startImport machine name)
      fun outcome world => world.Closed watch outcome := by
  refine (sound.leads_attempt (sound.obeys_load name ".").ensures).bind fun ended => ?_
  cases ended with
  | ok loaded =>
    cases loaded with
    | ready module_ => exact fun _ known => known.1
    | unfinished place running =>
      exact fun world known => sound.leads_refused (.stillImporting running) world known.1
  | error failure => exact fun _ known => known

end Machine.Sound

namespace Machine.Sound

open Exec Conduct

variable {machine : Machine} (sound : machine.Sound .idle)

theorem obeys_raisedReport (id : RaisedId) : sound.conduct.Obeys (raisedReport machine id) := by
  have shown (value : Ref) : sound.conduct.Obeys (settle (str machine value)) := by
    have settled := sound.leads_settle (sound.conduct.obeys_str value).ensures
    have level (failure : Failure) (sources : Sources) :
        Watch.idle.allows failure sources ↔ Watch.idle.holds sources := Iff.rfl
    refine (Rule.leads_iff_ensures.mp fun world holds => ?_ :
      sound.conduct.Ensures _ (Within fun _ => True)).obeys
    have result := settled world holds
    cases done : settle (str machine value) world with
    | ok outcome after =>
      rw [done] at result
      exact (sound.ended_iff level).mp result
    | error failure after =>
      rw [done] at result
      exact result
  mvcgen [raisedReport, exceptionLine, shown]

theorem obeys_raisedReports (chain : List RaisedId) :
    sound.conduct.Obeys (raisedReports machine chain) := by
  induction chain with
  | nil => mvcgen [raisedReports]
  | cons id rest inductionHypothesis =>
    have firstObeys := sound.obeys_raisedReport id
    mvcgen [raisedReports, firstObeys, inductionHypothesis]

/-- Code of the program that runs for a report keeps to the rules as well. -/
theorem obeys_report (failure : Failure) : sound.conduct.Obeys (report machine failure) := by
  have reports (chain : List RaisedId) := sound.obeys_raisedReports chain
  mvcgen [report, reports]

end Machine.Sound

/-! ### Worlds of a session -/

namespace World

/-- A world that some use of a session leads to. Besides running texts, files and modules, a
session lets parsed programs run in any scope and with any fuel. -/
inductive Reached : World → Prop
  | beginning (host : Host) (searchPath : List String) : Reached (.beginning host searchPath)
  | ran {world : World} {file text : String} {program : List Stmt} (fuel : Nat) (env : Env) :
    Reached world → Program.parse file text = .ok program →
    Reached (leftBy ((Machine.ofFuel fuel).run program env world))
  | ranSource {world : World} (file text : String) :
    Reached world → Reached (world.runSource file text).2
  | ranFile {world : World} (path : String) : Reached world → Reached (world.runFile path).2
  | imported {world : World} (name : String) : Reached world → Reached (world.importByName name).2
  | reported {world : World} (failure : Failure) :
    Reached world → Reached (world.reportOf failure).2
  | interrupted {world : World} : Reached world → Reached world.interrupt
  | outputTaken {world : World} : Reached world → Reached world.takeOutput.2.2
  | fileWritten {world : World} (path text : String) :
    Reached world → Reached (world.writeFile path text)
  | searchVariableSet {world : World} (value : String) :
    Reached world → Reached (world.setSearchVariable value)
  | searchPathAdded {world : World} (directories : List String) :
    Reached world → Reached (world.addSearchPath directories)

theorem bareObjects_function {object : Object} (found : object ∈ bareObjects) :
    object.function = none := by
  simp only [bareObjects, Array.mem_append, List.mem_toArray, List.mem_map] at found
  obtain ⟨builtin, -, rfl⟩ | found := found
  · rfl
  · simp only [List.mem_cons, List.not_mem_nil, or_false] at found
    obtain rfl | rfl | rfl | rfl := found <;> rfl

/-- Without functions there is nothing to check. -/
theorem bare_defines {property : Definition → Prop} (host : Host) (searchPath : List String) :
    (bare host searchPath).Defines property := by
  intro ref function definition closure defaults found code
  have without : (bareObjects.getD ref.index default).function = none := by
    rw [Array.getD_eq_getD_getElem?]
    cases known : bareObjects[ref.index]? with
    | none => rfl
    | some object => exact bareObjects_function (Array.mem_of_getElem? known)
  cases without.symm.trans found

/-- A session begins with checked code, and only its files can be of another form than is asked. -/
theorem beginning_checked {watch : Watch} (host : Host) (searchPath : List String)
    (files : host.files.Fits watch.fits) (started : watch.holds []) :
    (beginning host searchPath).Sound ∧ (beginning host searchPath).Fits watch.fits := by
  have bareKept : (bare host searchPath).Kept watch :=
    ⟨bare_defines host searchPath, ⟨bare_defines host searchPath, files⟩, started⟩
  have filled := (Machine.ofFuel_sound watch 0).fillBuiltins_checked bareKept
  delta beginning
  generalize Exec.fillBuiltins (bare host searchPath) = result at filled ⊢
  cases result with
  | ok => exact filled
  | error => exact filled

theorem perform_snd {α : Type} (world : World) (otherwise : α) (step : Exec α) :
    (world.perform otherwise step).2 = leftBy (step world) := by
  rw [perform]
  cases step world <;> rfl

/-- A step that does not fail is performed as it is. -/
theorem perform_spec {α : Type} {before : World → Prop} {step : Exec α} {after : α → World → Prop}
    {world : World} (otherwise : α) (leads : Rule.unfailing.Leads before step after)
    (given : before world) :
    after (world.perform otherwise step).1 (world.perform otherwise step).2 := by
  have result := leads world given
  unfold perform
  cases done : step world with
  | ok =>
    rw [done] at result
    exact result
  | error =>
    rw [done] at result
    exact result.elim

section Watched

variable {watch : Watch} {world : World} (kept : world.Kept watch)

include kept

theorem runSource_closed (file text : String)
    (fits : ∀ program, Program.parse file text = .ok program →
      Stmt.EverywhereAll watch.fits program) :
    (world.runSource file text).2.Closed watch (world.runSource file text).1 := by
  rw [runSource]
  exact perform_spec _ ((Machine.standard_sound watch).leads_startText file text fits) kept

theorem runFile_closed (path : String) :
    (world.runFile path).2.Closed watch (world.runFile path).1 := by
  rw [runFile]
  exact perform_spec _ ((Machine.standard_sound watch).leads_startFile path) kept

theorem importByName_closed (name : String) :
    (world.importByName name).2.Closed watch (world.importByName name).1 := by
  rw [importByName]
  exact perform_spec _ ((Machine.standard_sound watch).leads_startImport name) kept

end Watched

section Performing

variable {world : World} (sound : world.Sound)

include sound

theorem runSource_spec (file text : String) :
    (world.runSource file text).2.Sound ∧ (world.runSource file text).1.WithinRules := by
  have closed := runSource_closed sound.kept file text fun program _ =>
    Stmt.everywhereAll_of_forall (fun _ => trivial) program
  exact ⟨closed.sound, closed.withinRules⟩

theorem runFile_spec (path : String) :
    (world.runFile path).2.Sound ∧ (world.runFile path).1.WithinRules :=
  ⟨(runFile_closed sound.kept path).sound, (runFile_closed sound.kept path).withinRules⟩

theorem importByName_spec (name : String) :
    (world.importByName name).2.Sound ∧ (world.importByName name).1.WithinRules :=
  ⟨(importByName_closed sound.kept name).sound, (importByName_closed sound.kept name).withinRules⟩

theorem reportOf_sound (failure : Failure) : (world.reportOf failure).2.Sound := by
  have reported := (leftBy_checked
    ((Machine.standard_sound .idle).obeys_report failure).ensures sound.kept).1
  rw [reportOf, perform]
  cases done : Exec.report .standard failure world with
  | ok =>
    rw [done] at reported
    exact reported
  | error =>
    rw [done] at reported
    exact reported

end Performing

/-- Every world that is reached has only checked functions. -/
theorem Reached.sound {world : World} (reached : world.Reached) : world.Sound := by
  induction reached with
  | beginning host searchPath =>
    have files : host.files.Fits Watch.idle.fits := fun _ _ program _ _ =>
      Stmt.everywhereAll_of_forall (fun _ => trivial) program
    exact (beginning_checked host searchPath files trivial).1
  | ran fuel env _ parsed inductionHypothesis =>
    obtain ⟨wellFormed, statementsSound⟩ := Program.parse_yields _ _ _ parsed
    have fits := Stmt.everywhereAll_of_forall (fun _ => trivial)
    exact (leftBy_checked ((Machine.ofFuel_sound .idle fuel).run env wellFormed statementsSound
      (fits _)) inductionHypothesis.kept).1
  | ranSource file text _ inductionHypothesis =>
    exact (runSource_spec inductionHypothesis file text).1
  | ranFile path _ inductionHypothesis => exact (runFile_spec inductionHypothesis path).1
  | imported name _ inductionHypothesis => exact (importByName_spec inductionHypothesis name).1
  | reported failure _ inductionHypothesis => exact reportOf_sound inductionHypothesis failure
  | interrupted _ inductionHypothesis => exact inductionHypothesis.of_objects rfl
  | outputTaken _ inductionHypothesis => exact inductionHypothesis.of_objects rfl
  | fileWritten path text _ inductionHypothesis => exact inductionHypothesis.of_objects rfl
  | searchVariableSet value _ inductionHypothesis => exact inductionHypothesis.of_objects rfl
  | searchPathAdded directories _ inductionHypothesis => exact inductionHypothesis.of_objects rfl

/-! ### The main result -/

/-- The run of a program came to its end or failed; no signal left it, and no rule of the
interpreter was broken. -/
structure RunWithinRules (result : EStateM.Result Failure World Flow) : Prop where
  done : ∀ (flow : Flow) (after : World), result = .ok flow after → flow = .done
  failed : ∀ (failure : Failure) (after : World), result = .error failure after →
    ¬ failure.IsInternal

theorem runWithinRules {world : World} (sound : world.Sound) {file text : String}
    {program : List Stmt} (fuel : Nat) (env : Env) (parsed : Program.parse file text = .ok program) :
    RunWithinRules ((Machine.ofFuel fuel).run program env world) := by
  obtain ⟨wellFormed, statementsSound⟩ := Program.parse_yields _ _ _ parsed
  have fits := Stmt.everywhereAll_of_forall (fun _ => trivial) program
  have result := Rule.ensures_iff.mp ((Machine.ofFuel_sound .idle fuel).run env wellFormed
    statementsSound fits) world sound.kept
  constructor
  · intro flow after done
    rw [done] at result
    cases flow with
    | done => rfl
    | returned => cases result.2
    | broken => cases result.2
    | continued => cases result.2
  · intro failure after failed
    rw [failed] at result
    exact result.within

/-- In every world of a session, a program that parses runs to its end or fails, in whatever scope
and with whatever fuel; no signal leaves it, and no failure is a broken rule of the interpreter.
The same goes for everything that a session runs. -/
theorem Reached.within_rules {world : World} (reached : world.Reached) :
    (∀ (file text : String) (program : List Stmt) (fuel : Nat) (env : Env),
      Program.parse file text = .ok program →
      RunWithinRules ((Machine.ofFuel fuel).run program env world)) ∧
    (∀ file text : String, (world.runSource file text).1.WithinRules) ∧
    (∀ path : String, (world.runFile path).1.WithinRules) ∧
    ∀ name : String, (world.importByName name).1.WithinRules := by
  refine ⟨?_, ?_, ?_, ?_⟩
  · intro file text program fuel env parsed
    exact runWithinRules reached.sound fuel env parsed
  · intro file text
    exact (runSource_spec reached.sound file text).2
  · intro path
    exact (runFile_spec reached.sound path).2
  · intro name
    exact (importByName_spec reached.sound name).2

/-- A loop that is left at once, as the first thing that a session runs. -/
theorem beginning_loop_within_rules :
    Program.parse "loop" "while True:\n    break\n" = .ok [.whileLoop ⟨"loop", 1⟩
      (.boolean ⟨"loop", 1⟩ true) [.simple ⟨"loop", 2⟩ .breakLoop] none] ∧
    RunWithinRules ((Machine.ofFuel 2).run [.whileLoop ⟨"loop", 1⟩ (.boolean ⟨"loop", 1⟩ true)
        [.simple ⟨"loop", 2⟩ .breakLoop] none] (moduleEnv builtinsSpace)
      (beginning { files := ⟨"/", []⟩, input := "", output := "" } [])) := by
  have parsed : Program.parse "loop" "while True:\n    break\n" = .ok [.whileLoop ⟨"loop", 1⟩
      (.boolean ⟨"loop", 1⟩ true) [.simple ⟨"loop", 2⟩ .breakLoop] none] := by
    cbv
  have reached := Reached.beginning { files := ⟨"/", []⟩, input := "", output := "" } []
  exact ⟨parsed, reached.within_rules.1 "loop" _ _ 2 _ parsed⟩

end World

end Offside
