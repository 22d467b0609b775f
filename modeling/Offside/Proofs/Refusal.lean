/-
This file follows the failures that are no exceptions of the language: a source text
that is no program, a refusal of the outside world, a broken rule of the interpreter.
No handler is for them. What a `try` statement does when its body ends so is said
exactly: neither handlers nor the `else` block run, the cleanup does, and the statement
ends with the failure unless the cleanup ends in a way of its own. So cleanup is the one
place where such a failure can get lost: a run in which no cleanup does that on the way
out ends with the failure.

For code without cleanup nothing has to be known of the way out. A source text that is no
program can be told afterwards, because every text is kept before it is parsed. What is
watched is that whenever such a text is among those that were kept, the run is on its way
out with the error of that text. Without cleanup anywhere in the code this holds to the
end, through functions, loops, handlers and modules that import each other.
-/

import Offside.Proofs.Lines
import Offside.Proofs.Reached
import Offside.Proofs.Signals.Failures

namespace Offside

/-! ### Failures of the body of a `try` statement -/

namespace Exec

/-- Neither a handler nor the `else` block runs for a failure that is no exception. -/
theorem execute_attempt_of_unraised {machine : Machine} {env : Env} {body : List Stmt}
    {world after : World} {failure : Failure}
    (failed : executeAll machine env body world = .error failure after)
    (unraised : ∀ id, failure ≠ .raised id) (location : Location) (handlers : List Handler)
    (otherwise cleanup : Option (List Stmt)) :
    execute machine env (.attempt location body handlers otherwise cleanup) world =
      if failure.isFatal then .error failure after
      else match cleanup with
        | none => .error failure after
        | some block => match executeAll machine env block after with
          | .ok .done last => .error failure last
          | ended => ended := by
  have settled := settle_error failed
  rw [execute]
  split at settled
  next fatal =>
    rw [bind_of_error settled, if_pos fatal]
  next cleanable =>
    have finish : (match cleanup with
        | none => release (.error failure)
        | some block => cleanUp (.error failure) (executeAll machine env block)) after =
        match cleanup with
        | none => .error failure after
        | some block => match executeAll machine env block after with
          | .ok .done last => .error failure last
          | ended => ended := by
      cases cleanup with
      | none => rfl
      | some block => exact cleanUp_of_unraised unraised _ after
    rw [bind_of_ok settled, if_neg cleanable, ← finish]
    cases failure with
    | raised id => exact absurd rfl (unraised id)
    | _ => rfl

end Exec

/-! ### Source texts that are refused -/

/-- The statement is no `try` with a `finally` clause. -/
def Stmt.WithoutCleanup : Stmt → Prop
  | .attempt _ _ _ _ cleanup => cleanup = none
  | _ => True

/-- Among the source texts that were loaded is one that is no program, which this error says. -/
def Refused (error : SourceError) (sources : Sources) : Prop :=
  ∃ file text, (file, text.splitOn "\n") ∈ sources ∧ Program.parse file text = .error error

theorem Refused.of_remembered {world : World} {file text : String} {error : SourceError}
    (refused : Refused error (world.rememberSource file text).sources) :
    Program.parse file text = .error error ∨ Refused error world.sources := by
  obtain ⟨place, found, loaded, failed⟩ := refused
  obtain same | earlier := List.mem_cons.mp loaded
  · obtain ⟨rfl, lines⟩ := Prod.mk.inj same
    rw [eq_of_splitOn_newline lines] at failed
    exact .inl failed
  · exact .inr ⟨place, found, List.mem_of_mem_filter earlier, failed⟩

/-- A text that is no program fails with its error, and it can be told afterwards that it did. -/
theorem Exec.runText_of_refused {file text : String} {error : SourceError}
    (failed : Program.parse file text = .error error) (machine : Machine) (space : SpaceId)
    (world : World) :
    runText machine file text space world =
        .error (.source error) (world.rememberSource file text) ∧
      Refused error (world.rememberSource file text).sources := by
  refine ⟨?_, file, text, List.mem_cons_self, failed⟩
  rw [runText, bind_of_ok (rfl : change (·.rememberSource file text) world = _), failed]
  rfl

/-- The import of a file whose text is no program fails with the error of that text. -/
theorem Exec.importModule_of_refused {machine : Machine} {env : Env} {location : Location}
    {path : List String} {newName : Option String} {place text : String} {error : SourceError}
    {before : World}
    (resolved : before.resolve? (dotted path)
      (Path.directory before.host.files.working location.file) = some place)
    (unloaded : before.registry.loaded? place = none)
    (idle : before.registry.running? place = none)
    (found : before.host.textAt place = .ok text)
    (failed : Program.parse place text = .error error) :
    ∃ last, importModule machine env location path newName before =
      .error (.source error) last ∧ SameOutside before last := by
  obtain ⟨space, module_, ready, made, -, -, -, outside⟩ :=
    makeModule (dotted path) place
      { before with registry := before.registry.begin place (dotted path) }
  let start : World := { ready with registry := ready.registry.note (.started place .imported) }
  have here : start.host.textAt place = .ok text :=
    (congrArg (·.textAt place) outside.host).trans found
  have ended := load_of_runPath resolved ⟨unloaded, idle, _, _, made, rfl⟩
    ((runPath_of_ok here).trans (runText_of_refused failed machine space start).1)
  rw [importModule, directoryOf, read_bind]
  exact ⟨_, bind_of_error ended, outside.host, outside.interrupted⟩

/-- The texts that were refused since the run began: there is none, unless the run is on its way out
with its error. -/
def Watch.refusals (start : Sources) : Watch where
  fits := Stmt.WithoutCleanup
  holds sources := ∀ error, Refused error sources → Refused error start
  allows failure sources :=
    ∀ error, Refused error sources → Refused error start ∨ failure = .source error
  parsed {world file text program} holds parsed error refused := by
    obtain failed | earlier := refused.of_remembered
    · cases parsed.symm.trans failed
    · exact holds error earlier
  refused {world file text error} holds failed other refused := by
    obtain again | earlier := refused.of_remembered
    · cases failed.symm.trans again
      exact .inr rfl
    · exact .inl (holds other earlier)
  other holds _ error refused := .inl (holds error refused)
  caught allowed error refused := by
    obtain earlier | same := allowed error refused
    · exact earlier
    · cases same
  cleanup without := by cases without

/-- A run from a world to another one has ended with the error of every text that was refused in
it. -/
def EndsWithRefusals (before : World) (result : Outcome × World) : Prop :=
  ∀ error, Refused error result.2.sources →
    Refused error before.sources ∨ result.1.failure = some (.source error)

theorem endsWithRefusals_of_closed {before : World} {result : Outcome × World}
    (closed : result.2.Closed (.refusals before.sources) result.1) :
    EndsWithRefusals before result := by
  intro error refused
  unfold World.Closed at closed
  split at closed
  next _ => exact .inl (closed.watched error refused)
  next failure failed =>
    rw [failed]
    exact (closed.watched error refused).imp_right (congrArg some)

/-! ### Texts of files -/

/-- It is enough to look at each text once, for it to be found at whatever path. -/
theorem Files.fits_of_texts {fits : Stmt → Prop} {files : Files}
    (given : ∀ entry ∈ files.texts, ∀ path program, Program.parse path entry.2 = .ok program →
      Stmt.EverywhereAll fits program) : files.Fits fits := by
  intro path text program found parsed
  obtain ⟨name, known⟩ := Files.mem_of_read found
  exact given (name, text) known path program parsed

/-! ### On the way out -/

namespace Exec

/-- Where a failure goes that is no exception, while the cleanups on its way come to their ends. -/
structure PassesOut (fuel : Nat) (failure : Failure) : Prop where
  /-- The block fails with it in which it arose. -/
  block : ∀ {env : Env} {block : List Stmt} {before after : World},
    FailsWithin (.ofFuel fuel) env block before failure after →
      executeAll (.ofFuel fuel) env block before = .error failure after
  /-- So does a source text whose statements these are. -/
  text : ∀ {file text : String} {program : List Stmt} {space : SpaceId} {before after : World},
    Program.parse file text = .ok program →
    FailsWithin (.ofFuel fuel) (moduleEnv space) program (before.rememberSource file text)
      failure after →
      runText (.ofFuel (fuel + 1)) file text space before = .error failure after
  /-- So does a call of a function whose body this is. -/
  call : ∀ {name : String} {definition : Definition} {closure env : Env}
    {defaults : List (String × Ref)} {arguments : List Ref} {named : List (String × Ref)}
    {frame : Namespace} {before start after : World}, before.callDepth < maxCallDepth →
    Arguments.bind name definition.parameters defaults arguments named = .ok frame →
    enter closure name false frame (before.enterCall.noteCall .entered) = .ok env start →
    FailsWithin (.ofFuel fuel) env definition.body start failure after →
      callWritten (.ofFuel (fuel + 1)) name definition closure defaults arguments named before =
        .error failure (after.leaveCall.noteCall .left)
  /-- So do the import statements for which a file is run that fails with it. -/
  file : ∀ {env : Env} {location : Location} {path : List String} {newName : Option String}
    {names : Option (List String)} {place : String} {space : SpaceId}
    {before start after : World},
    before.resolve? (dotted path) (Path.directory before.host.files.working location.file) =
      some place →
    RunsFile (dotted path) place before space start →
    runPath (.ofFuel fuel) place space start = .error failure after →
      ∃ last, importModule (.ofFuel fuel) env location path newName before = .error failure last ∧
        importNames (.ofFuel fuel) env location path names before = .error failure last

theorem passesOut (fuel : Nat) {failure : Failure} (unraised : ∀ id, failure ≠ .raised id)
    (mild : ¬ failure.isFatal) : PassesOut fuel failure where
  block within := within.executeAll_eq unraised mild
  text parsed within := runText_of_failsWithin parsed within unraised mild
  call shallow bound entered within :=
    callWritten_of_failsWithin shallow bound entered within unraised mild
  file {_ _ _ _ _ place _ _ _ after} resolved runs failed := by
    have ended := load_of_runPath resolved runs failed
    refine ⟨{ after with registry := (after.registry.note (.failed place)).abandon place }, ?_, ?_⟩
    · rw [importModule, directoryOf, read_bind]
      exact bind_of_error ended
    · rw [importNames, directoryOf, read_bind]
      exact bind_of_error ended

end Exec

/-! ### The main result -/

/-- Failures that are no exceptions are never caught. A `try` statement whose body ends with one
runs neither a handler nor its `else` block, and ends with it unless its cleanup ends in a way of
its own. A source text that is no program fails with its error, and in a session without cleanup
every run in which this happens ends with that error. With cleanup, a failure leaves the statement
in which it arose, and the bodies, texts and files around it, as long as each cleanup on its way
comes to its end; and so a run whose text comes to a statement that fails ends with the failure. -/
theorem World.Reached.unraised_passes {world : World} (reached : world.Reached) :
    (∀ (machine : Machine) (env : Env) (location : Location) (body : List Stmt)
      (handlers : List Handler) (otherwise cleanup : Option (List Stmt)) (before after : World)
      (failure : Failure), Exec.executeAll machine env body before = .error failure after →
      (∀ id, failure ≠ .raised id) →
      Exec.execute machine env (.attempt location body handlers otherwise cleanup) before =
        if failure.isFatal then .error failure after
        else match cleanup with
          | none => .error failure after
          | some block => match Exec.executeAll machine env block after with
            | .ok .done last => .error failure last
            | ended => ended) ∧
    (∀ (machine : Machine) (file text : String) (space : SpaceId) (before : World)
      (error : SourceError), Program.parse file text = .error error →
      ∃ after, Exec.runText machine file text space before = .error (.source error) after ∧
        Refused error after.sources) ∧
    (world.Fits Stmt.WithoutCleanup →
      (∀ file text : String, (∀ program, Program.parse file text = .ok program →
        Stmt.EverywhereAll Stmt.WithoutCleanup program) →
        EndsWithRefusals world (world.runSource file text)) ∧
      (∀ path : String, EndsWithRefusals world (world.runFile path)) ∧
      ∀ name : String, EndsWithRefusals world (world.importByName name)) ∧
    (∀ (fuel : Nat) (failure : Failure), (∀ id, failure ≠ .raised id) → ¬ failure.isFatal →
      Exec.PassesOut fuel failure) ∧
    (∀ (file text : String) (space : SpaceId) (start : World) (outcome : Outcome),
      world.HasRun file text space start outcome →
      (∀ error, Program.parse file text = .error error → outcome.failure = some (.source error)) ∧
      ∀ (program : List Stmt) (failure : Failure) (after : World),
        Program.parse file text = .ok program →
        Exec.FailsWithin (.ofFuel (fuelOfRun - 1)) (moduleEnv space) program
          (start.rememberSource file text) failure after →
        (∀ id, failure ≠ .raised id) → ¬ failure.isFatal → outcome.failure = some failure) := by
  refine ⟨?_, ?_, fun fits => ?_, fun fuel failure => Exec.passesOut fuel, ?_⟩
  · intro machine env location body handlers otherwise cleanup before after failure failed unraised
    exact Exec.execute_attempt_of_unraised failed unraised location handlers otherwise cleanup
  · intro machine file text space before error failed
    exact ⟨_, Exec.runText_of_refused failed machine space before⟩
  · have kept : world.Kept (.refusals world.sources) :=
      ⟨reached.sound, fits, fun _ refused => refused⟩
    refine ⟨fun file text textFits => ?_, fun path => ?_, fun name => ?_⟩
    · exact endsWithRefusals_of_closed (runSource_closed kept file text textFits)
    · exact endsWithRefusals_of_closed (runFile_closed kept path)
    · exact endsWithRefusals_of_closed (importByName_closed kept name)
  · intro file text space start outcome runs
    refine ⟨fun error failed => ?_, fun program failure after parsed within unraised mild => ?_⟩
    · exact runs.failure_eq (Exec.runText_of_refused failed .standard space start).1
    · have standard : Machine.standard = .ofFuel (fuelOfRun - 1 + 1) := by
        rw [Machine.standard, Nat.sub_add_cancel (by decide)]
      have failed := Exec.runText_of_failsWithin parsed within unraised mild
      rw [← standard] at failed
      exact runs.failure_eq failed

/-- A host with these files, and nothing else to see. -/
def Host.ofTexts (texts : List (String × String)) : Host where
  files := ⟨"/", texts⟩
  input := ""
  output := ""

/-- A host with one file, which is no program. -/
def Host.withRefused : Host :=
  .ofTexts [("/bad.minipy", "$")]

/-- The error of the file. -/
def Host.refusal : SourceError :=
  .lex ⟨.noToken "$", ⟨"/bad.minipy", 1⟩⟩

theorem Program.parse_refused : parse "/bad.minipy" "$" = .error Host.refusal := by
  cbv

/-- The file is found beside the main program, and read. -/
theorem World.resolve?_refused {world : World} (host : world.host = .withRefused)
    (searched : world.searchPath = []) :
    world.resolve? "bad" (Path.directory world.host.files.working "/main") =
        some "/bad.minipy" ∧
      world.host.textAt "/bad.minipy" = .ok "$" := by
  have rooted : Path.isAbsolute "/" "/bad.minipy" = true := by
    simp [Path.isAbsolute]
  have parts : Path.parts "/bad.minipy" = ["bad.minipy"] := by
    rw [Path.parts_eq]
    cbv
  have absolute : Path.absolute "/" "/bad.minipy" = "/bad.minipy" := by
    rw [Path.absolute, if_pos rooted, Path.clean, if_pos rooted, parts]
    cbv
  have directory : Path.directory world.host.files.working "/main" = "/" := by
    have cut : "/main".splitOn "/" = ["", "main"] :=
      (splitOn_singleton '/' "/main").trans (by cbv)
    have root : Path.clean "/" "/" = "/" := by
      rw [Path.clean, if_pos (by simp [Path.isAbsolute]), Path.parts_eq]
      cbv
    rw [host, Path.directory, cut]
    exact root
  have joined : Path.join "/" ["/", relativeFile "/" "bad"] = "/bad.minipy" := by
    have relative : relativeFile "/" "bad" = "bad.minipy" := by
      cbv
    have again : Path.parts "//bad.minipy" = ["bad.minipy"] := by
      rw [Path.parts_eq]
      cbv
    rw [relative]
    change Path.clean "/" "//bad.minipy" = _
    rw [Path.clean, if_pos (by simp [Path.isAbsolute]), again]
    cbv
  have found : Host.withRefused.files.look "/bad.minipy" = .file "$" := by
    change Files.look ⟨"/", [("/bad.minipy", "$")]⟩ "/bad.minipy" = _
    rw [Files.look, if_neg (by simp), if_pos rooted, Files.partsToFollow, parts]
    cbv
  have isFile : Host.withRefused.files.isFile "/bad.minipy" = true := by
    rw [Files.isFile, found]
  constructor
  · have searches : world.searchDirectories "/" = ["/"] := by
      rw [searchDirectories, searched, host]
      cbv
    rw [directory, resolve?, searches, host]
    change (List.find? _ [Path.join "/" ["/", relativeFile "/" "bad"]]).map (Path.absolute "/") = _
    rw [joined, List.find?_cons_of_pos isFile, Option.map_some, absolute]
  · rw [host, Host.textAt, Files.read, found]
    rfl

/-- A `try` statement that imports the file, and has a cleanup that does nothing. -/
def importingRefused : List Stmt :=
  [.attempt ⟨"/main", 1⟩ [.simple ⟨"/main", 2⟩ (.importModule ["bad"] none)] [] none
    (some [.simple ⟨"/main", 4⟩ .pass])]

/-- The import fails, and the cleanup on the way out comes to its end. -/
theorem Exec.importingRefused_fails (machine : Machine) (env : Env) {world : World}
    (host : world.host = .withRefused) (searched : world.searchPath = [])
    (quiet : world.interrupted = false)
    (unloaded : world.registry.loaded? "/bad.minipy" = none)
    (idle : world.registry.running? "/bad.minipy" = none) :
    ∃ after, FailsWithin machine env importingRefused world (.source Host.refusal) after := by
  have calm {before : World} (outside : SameOutside world before) (location : Location) :
      traced location env checkInterrupt before = .ok () before := by
    refine tryCatch_ok (checkInterrupt_of_quiet (outside.interrupted.trans quiet) ?_)
    rw [outside.host, host]
    rfl
  obtain ⟨resolved, found⟩ := world.resolve?_refused host searched
  obtain ⟨last, imported, outside⟩ : ∃ last,
      importModule machine env ⟨"/main", 2⟩ ["bad"] none world =
        .error (.source Host.refusal) last ∧ SameOutside world last :=
    importModule_of_refused resolved unloaded idle found Program.parse_refused
  have cleaned : executeAll machine env [.simple ⟨"/main", 4⟩ .pass] last = .ok .done last := by
    rw [executeAll]
    exact (bind_of_ok (calm outside _)).trans rfl
  have left : leaveAll machine env [.guarded [.simple ⟨"/main", 4⟩ .pass], .block []] last =
      .ok .done last :=
    (bind_of_ok cleaned).trans rfl
  refine ⟨last, _, world, _, last, .inside (calm ⟨rfl, rfl⟩ _) (.attempt .body)
    (.first (calm ⟨rfl, rfl⟩ _)), ?_, left⟩
  rw [execute]
  exact tryCatch_error ((bind_of_error imported).trans rfl)

/-- A session with this file, and texts that import it inside of a `try` statement: one has a
handler for everything, the other one a cleanup. -/
theorem World.beginning_unraised_passes :
    let world := beginning .withRefused []
    let start := bare .withRefused []
    (∃ (location : Option Location) (reason : String) (after : World),
      Exec.execute (Machine.ofFuel 0) [] (.attempt ⟨"main", 1⟩
        [.simple ⟨"main", 2⟩ (.assign (.none ⟨"main", 2⟩) (.none ⟨"main", 2⟩))]
        [.mk ⟨"main", 3⟩ none none [.simple ⟨"main", 4⟩ .pass]] none none) start =
          .error (.internal location reason) after) ∧
    (∃ after : World, Exec.runText (Machine.ofFuel 0) "/bad.minipy" "$" builtinsSpace start =
        .error (.source Host.refusal) after ∧ Refused Host.refusal after.sources) ∧
    EndsWithRefusals world
      (world.runSource "/main" "try:\n    import bad\nexcept:\n    pass\n") ∧
    (∃ after : World, Exec.executeAll (Machine.ofFuel 0) [] importingRefused start =
        .error (.source Host.refusal) after) ∧
    (world.runSource "/main" "try:\n    import bad\nfinally:\n    pass\n").1.failure =
      some (.source Host.refusal) := by
  intro world start
  have files : Host.withRefused.files.Fits (Watch.refusals []).fits := by
    refine Files.fits_of_texts fun entry known path program parsed => ?_
    have refused : Program.parse path "$" = .error (.lex ⟨.noToken "$", ⟨path, 1⟩⟩) := by
      cbv
    cases List.mem_singleton.mp known
    cases refused.symm.trans parsed
  have fits := (beginning_checked _ [] files (fun _ refused => refused)).2
  have reached := Reached.beginning .withRefused []
  obtain ⟨statement, text, without, around, run⟩ := reached.unraised_passes
  refine ⟨?_, text _ _ _ _ _ _ Program.parse_refused, ?_, ?_, ?_⟩
  · obtain ⟨location, reason, after, failed⟩ : ∃ location reason after,
        Exec.executeAll (Machine.ofFuel 0) []
          [.simple ⟨"main", 2⟩ (.assign (.none ⟨"main", 2⟩) (.none ⟨"main", 2⟩))] start =
            .error (.internal location reason) after :=
      ⟨_, _, _, rfl⟩
    exact ⟨location, reason, after,
      statement _ _ _ _ _ _ _ _ _ _ failed fun _ same => by cases same⟩
  · have parsed : Program.parse "/main" "try:\n    import bad\nexcept:\n    pass\n" =
        .ok [.attempt ⟨"/main", 1⟩ [.simple ⟨"/main", 2⟩ (.importModule ["bad"] none)]
          [.mk ⟨"/main", 3⟩ none none [.simple ⟨"/main", 4⟩ .pass]] none none] := by
      cbv
    refine (without fits).1 "/main" _ fun program found => ?_
    cases parsed.symm.trans found
    exact ⟨⟨rfl, ⟨trivial, trivial⟩, ⟨⟨trivial, trivial⟩, trivial⟩, trivial, trivial⟩, trivial⟩
  · obtain ⟨after, within⟩ : ∃ after, Exec.FailsWithin (.ofFuel 0) [] importingRefused start
        (.source Host.refusal) after :=
      Exec.importingRefused_fails _ _ rfl rfl rfl rfl rfl
    have goesRound := around 0 (.source Host.refusal) (fun _ same => by cases same)
      (by simp [Failure.isFatal])
    exact ⟨after, goesRound.block within⟩
  · have parsed : Program.parse "/main" "try:\n    import bad\nfinally:\n    pass\n" =
        .ok importingRefused := by
      cbv
    have host : world.host = .withRefused := by
      decide +kernel
    have searched : world.searchPath = [] := by
      decide +kernel
    have quiet : world.interrupted = false := by
      decide +kernel
    have unloaded : world.registry.loaded? "/bad.minipy" = none := by
      decide +kernel
    have idle := reached.rests.running?_eq_none "/bad.minipy"
    obtain ⟨space, begun, made, -, outside, path⟩ :=
      Exec.newModuleSpace_makes "__main__" "/main" world
    have registry := ((Exec.still_newModuleSpace "__main__" "/main").of_ok made).registry
    rw [← registry] at unloaded idle
    obtain ⟨after, within⟩ : ∃ after, Exec.FailsWithin (.ofFuel (fuelOfRun - 1))
        (moduleEnv space) importingRefused
        (begun.rememberSource "/main" "try:\n    import bad\nfinally:\n    pass\n")
        (.source Host.refusal) after :=
      Exec.importingRefused_fails _ _ (outside.host.trans host) (path.trans searched)
        (outside.interrupted.trans quiet) unloaded idle
    exact (run _ _ _ _ _ (.source made)).2 _ _ _ parsed within (fun _ same => by cases same)
      (by simp [Failure.isFatal])

end Offside
