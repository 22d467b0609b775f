/-
This file follows a failure that is no exception out of the statement in which it arose.
None of the layers around the statement takes it up. Handlers are for exceptions only,
loops and `else` blocks go on only where nothing failed, and the end of a handler links
nothing to it. What runs on its way out is what runs for a signal, so it can only be lost
to a cleanup that ends in a way of its own.

Past the block in which it arose it goes on in the same way: a call fails with what the
body of its function failed with, a text with what its statements failed with, an import
with what the file failed with, and a run of a session with what its text failed with.
-/

import Offside.Proofs.Modules.Sessions
import Offside.Proofs.Signals.Layers

namespace Offside

namespace Exec

/-! ### Layers -/

section Layers

variable {machine : Machine} {env : Env} {failure : Failure}

theorem linkFailures_of_unraised (unraised : ∀ id, failure ≠ .raised id) (inflight : Failure) :
    linkFailures failure inflight = pure () := by
  cases failure with
  | raised id => exact absurd rfl (unraised id)
  | _ => rfl

/-- After a failure that is no exception, cleanup has the last word only if it does not just come to
its end. -/
theorem cleanUp_of_unraised (unraised : ∀ id, failure ≠ .raised id)
    (cleanup : Exec Flow) (world : World) :
    cleanUp (.error failure) cleanup world = match cleanup world with
      | .ok .done last => .error failure last
      | ended => ended := by
  unfold cleanUp
  cases done : cleanup world with
  | ok flow last =>
    rw [bind_of_ok (settle_ok done)]
    cases flow <;> rfl
  | error later last =>
    have settled := settle_error done
    split at settled
    · exact bind_of_error settled
    · rw [bind_of_ok settled]
      cases failure with
      | raised id => exact absurd rfl (unraised id)
      | _ => cases later <;> rfl

variable {world middle after : World}

/-- The failure leaves a layer as it is, after what the layer runs on its way. -/
theorem resume_unraised {layer : Layer} {step : Exec Flow}
    (unraised : ∀ id, failure ≠ .raised id) (mild : ¬ failure.isFatal)
    (failed : step world = .error failure middle)
    (left : leave machine env layer middle = .ok .done after) :
    resume machine env layer step world = .error failure after := by
  have settled : settle step world = .ok (.error failure) middle := by
    rw [settle_error failed, if_neg mild]
  cases layer with
  | block rest =>
    cases left
    exact bind_of_error failed
  | attempted handlers otherwise =>
    cases left
    have passed : attemptThen machine env handlers otherwise step world =
        .ok (.error failure) middle := by
      rw [attemptThen, bind_of_ok settled]
      cases failure with
      | raised id => exact absurd rfl (unraised id)
      | _ => rfl
    exact bind_of_ok passed
  | handled name id previous =>
    obtain ⟨_, last, unbound, changed⟩ := exists_of_bind_eq_ok left
    cases changed
    have ended : (do endHandler env name id (← settle step)) world = .error failure last := by
      rw [bind_of_ok settled, endHandler, linkOutcome, linkFailures_of_unraised unraised,
        pure_bind]
      exact bind_of_ok unbound
    rw [resume, thenAlways, ended]
  | guarded cleanup =>
    have cleaned : executeAll machine env cleanup middle = .ok .done after := left
    rw [resume, bind_of_ok settled, cleanUp_of_unraised unraised, cleaned]
  | cleaning outcome =>
    cases left
    rw [resume, cleanUp, bind_of_ok settled]
    cases outcome with
    | ok => rfl
    | error inflight =>
      change (do linkFailures failure inflight; throw failure : Exec Flow) middle = _
      rw [linkFailures_of_unraised unraised]
      rfl
  | round looping rounds =>
    cases left
    exact bind_of_error failed

/-- The failure leaves all layers as it is, after what they run on its way. -/
theorem resumeAll_unraised {layers : List Layer} {step : Exec Flow}
    (unraised : ∀ id, failure ≠ .raised id) (mild : ¬ failure.isFatal)
    (failed : step world = .error failure middle)
    (left : leaveAll machine env layers middle = .ok .done after) :
    resumeAll machine env layers step world = .error failure after := by
  induction layers generalizing step middle with
  | nil =>
    cases left
    exact failed
  | cons layer outer inductionHypothesis =>
    obtain ⟨own, last, ended, left⟩ := exists_of_bind_eq_ok left
    cases own with
    | done => exact inductionHypothesis (resume_unraised unraised mild failed ended) left
    | _ => cases left

end Layers

/-! ### Blocks -/

/-- A run of a block comes to a statement that fails, and everything that runs on the way out of the
block comes to its end. -/
def FailsWithin (machine : Machine) (env : Env) (block : List Stmt) (before : World)
    (failure : Failure) (after : World) : Prop :=
  ∃ target here layers middle, ComesTo machine env block before target here layers ∧
    execute machine env target here = .error failure middle ∧
    leaveAll machine env layers middle = .ok .done after

section Bodies

variable {machine : Machine} {env : Env} {failure : Failure} {before after : World}

theorem FailsWithin.executeAll_eq {block : List Stmt}
    (within : FailsWithin machine env block before failure after)
    (unraised : ∀ id, failure ≠ .raised id) (mild : ¬ failure.isFatal) :
    executeAll machine env block before = .error failure after := by
  obtain ⟨target, here, layers, middle, comesTo, failed, left⟩ := within
  rw [comesTo.executeAll_eq]
  exact resumeAll_unraised unraised mild failed left

/-! ### Texts, calls and imports -/

theorem runText_of_failsWithin {fuel : Nat} {file text : String} {program : List Stmt}
    {space : SpaceId} (parsed : Program.parse file text = .ok program)
    (within : FailsWithin (.ofFuel fuel) (moduleEnv space) program
      (before.rememberSource file text) failure after)
    (unraised : ∀ id, failure ≠ .raised id) (mild : ¬ failure.isFatal) :
    runText (.ofFuel (fuel + 1)) file text space before = .error failure after := by
  rw [runText, bind_of_ok (rfl : change (·.rememberSource file text) before = _), parsed]
  exact bind_of_error (within.executeAll_eq unraised mild)

theorem callWritten_of_failsWithin {fuel : Nat} {name : String} {definition : Definition}
    {closure : Env} {defaults : List (String × Ref)} {arguments : List Ref}
    {named : List (String × Ref)} {frame : Namespace} {start : World}
    (shallow : before.callDepth < maxCallDepth)
    (bound : Arguments.bind name definition.parameters defaults arguments named = .ok frame)
    (entered : enter closure name false frame (before.enterCall.noteCall .entered) =
      .ok env start)
    (within : FailsWithin (.ofFuel fuel) env definition.body start failure after)
    (unraised : ∀ id, failure ≠ .raised id) (mild : ¬ failure.isFatal) :
    callWritten (.ofFuel (fuel + 1)) name definition closure defaults arguments named before =
      .error failure (after.leaveCall.noteCall .left) := by
  rw [callWritten, read_bind, if_neg (Nat.not_le.mpr shallow)]
  refine inCall_of_error ?_
  rw [runBody, bound]
  exact (bind_of_ok entered).trans (bind_of_error (within.executeAll_eq unraised mild))

/-- An import of this path has the file run, in this table and this world. -/
structure RunsFile (path place : String) (before : World) (space : SpaceId) (start : World) :
    Prop where
  unloaded : before.registry.loaded? place = none
  idle : before.registry.running? place = none
  begins : ∃ module_ ready,
    newFileModule path place { before with registry := before.registry.begin place path } =
      .ok (space, module_) ready ∧
    start = { ready with registry := ready.registry.note (.started place .imported) }

/-- An import gives up the module of a file that failed. -/
theorem load_of_runPath {path place directory : String} {space : SpaceId} {start : World}
    (resolved : before.resolve? path directory = some place)
    (runs : RunsFile path place before space start)
    (failed : runPath machine place space start = .error failure after) :
    load machine path directory before = .error failure
      { after with registry := (after.registry.note (.failed place)).abandon place } := by
  obtain ⟨module_, ready, made, rfl⟩ := runs.begins
  rw [load_fresh resolved runs.unloaded runs.idle]
  refine bind_of_error ?_
  rw [loadFresh_eq made]
  exact bind_of_error (complete_of_error (runModule_of_error failed))

end Bodies

end Exec

/-! ### Runs of a session -/

namespace World

open Exec

/-- A run of a session has a source text run, in this table and this world, and this is its
outcome. -/
inductive HasRun (world : World) : (file text : String) → SpaceId → World → Outcome → Prop
  | source {file text space start} :
    newModuleSpace "__main__" file world = .ok space start →
    HasRun world file text space start (world.runSource file text).1
  | file {path place text space module_ ready start} :
    Path.absolute world.host.files.working path = place →
    (world.registry.loaded? place = none → world.registry.running? place = none) →
    newFileModule "__main__" place world = .ok (space, module_) ready →
    start = { ready with
      registry := (ready.registry.startMain place).note (.started place .main) } →
    start.host.textAt place = .ok text →
    HasRun world place text space start (world.runFile path).1
  | imported {name place text space start} :
    world.resolve? name "." = some place → RunsFile name place world space start →
    start.host.textAt place = .ok text →
    HasRun world place text space start (world.importByName name).1

/-- The run ends with the failure of its text. -/
theorem HasRun.failure_eq {world start after : World} {file text : String} {space : SpaceId}
    {outcome : Outcome} {failure : Failure} (runs : world.HasRun file text space start outcome)
    (failed : runText .standard file text space start = .error failure after) :
    outcome.failure = some failure := by
  cases runs with
  | source made =>
    rw [runSource, perform, startText, bind_of_ok made, bind_of_ok (attempt_error failed)]
    rfl
  | @file path _ _ _ module_ ready _ absolute idle made begun found =>
    subst begun
    let started : World := { ready with registry := ready.registry.startMain file }
    have ended : complete file module_ (runModule .standard file .main module_ space) started =
        .error failure _ :=
      complete_of_error (runModule_of_error ((runPath_of_ok found).trans failed))
    rw [runFile, perform, startFile_eq .standard path absolute idle made, runMain,
      bind_of_ok (rfl : modifyRegistry (·.startMain file) ready = .ok () started),
      bind_of_ok (attempt_error ended)]
    rfl
  | imported resolved begins found =>
    have ended := load_of_runPath resolved begins ((runPath_of_ok found).trans failed)
    rw [importByName, perform, startImport, bind_of_ok (attempt_error ended)]
    rfl

end World

end Offside
