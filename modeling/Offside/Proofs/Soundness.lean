/-
This file proves that no run breaks a rule of the interpreter itself. There are three
such rules: only targets are assigned to and deleted, every operator is known, and no
signal (`return`, `break` or `continue`) leaves the body of a module. Each of them is
kept because of something that parsing checked, so the proof carries what parsing
checked through the whole run.

What is checked when a program is parsed has to be known when a function is called
much later. So the invariant of runs is that every function on the heap that is
written in the language has a checked body. Only the definition of a function puts a
new body on the heap, and it is part of a program that was checked. Whatever else is
watched along a run is carried with this invariant.

Where signals can go is said by the place of a statement: its run gives a signal only
if its place allows for it. A loop takes up the signals that are meant for it, so what
leaves it is allowed around it; a module allows for none.
-/

import Offside.Eval.Interpreter
import Offside.Proofs.Watch

open Std.Do

set_option mvcgen.warning false

namespace Offside

variable {watch : Watch}

namespace Block

/-- A signal may leave a statement that stands in a place. -/
def Place.Permits (place : Place) : Flow → Prop
  | .done => True
  | .returned _ _ => place.inFunction
  | .broken _ => place.inLoop
  | .continued _ => place.inLoop

end Block

/-- What is known in a world of how a step ended there. -/
def Rule.Ended {α : Type} (rule : Rule) (property : α → Prop) :
    Except Failure α → World → Prop
  | .ok value, world => rule.holds world ∧ property value
  | .error failure, world => rule.allows failure world

/-- A machine whose calls and runs keep to the rules. A run gives only signals that the place of its
statements permits. -/
structure Machine.Sound (machine : Machine) (watch : Watch) : Prop where
  call : ∀ callee arguments named, (soundness watch).Obeys (machine.call callee arguments named)
  run : ∀ {place : Block.Place} {statements : List Stmt} (env : Env),
    Block.WellFormedAll place statements → Stmt.SoundAll statements →
    Stmt.EverywhereAll watch.fits statements →
    (soundness watch).Ensures (machine.run statements env) place.Permits

namespace Machine.Sound

open Exec Conduct

variable {machine : Machine} (sound : machine.Sound watch)

/-- The conduct of a machine that keeps to the rules. -/
def conduct : Conduct machine where
  toRule := soundness watch
  quiet := World.Kept.of_quiet
  complaint {world} value kept := (kept.of_quiet (.raise world value)).raised _
  fatal := World.Kept.fatal
  caught := World.Failed.caught
  call := sound.call

/-! ### Steps that are not quiet -/

/-- A change of what is neither object nor source text nor file. -/
theorem obeys_change {step : World → World} (aside : ∀ world : World, world.Aside (step world)) :
    sound.conduct.Obeys (change step) :=
  fun world (kept : world.Kept watch) => kept.of_aside (aside world)

/-- Such a change, and then another step. -/
theorem ensures_change {α : Type} {step : World → World} {next : Exec α} {property : α → Prop}
    (aside : ∀ world : World, world.Aside (step world))
    (nextEnsures : sound.conduct.Ensures next property) :
    sound.conduct.Ensures (change step >>= fun _ => next) property :=
  (sound.obeys_change aside).ensures.bind fun _ _ => nextEnsures

@[spec]
theorem obeys_modifyRegistry (step : Registry → Registry) :
    sound.conduct.Obeys (modifyRegistry step) :=
  sound.obeys_change fun _ => ⟨rfl, rfl, rfl⟩

theorem aside_link (world : World) (id below : RaisedId) : world.Aside (world.link id below) := by
  unfold World.link
  split <;> exact ⟨rfl, rfl, rfl⟩

@[spec]
theorem obeys_link (id below : RaisedId) : sound.conduct.Obeys (change (·.link id below)) :=
  sound.obeys_change fun world => aside_link world id below

section Ending

variable {α : Type} {step : Exec α} {property : α → Prop}
  (ensures : sound.conduct.Ensures step property)

include ensures

/-- Recording a statement that an exception passes through changes nothing else. -/
theorem ensures_traced (location : Location) (env : Env) :
    sound.conduct.Ensures (traced location env step) property := by
  refine Rule.ensures_iff.mpr fun world holds => ?_
  have result := Rule.ensures_iff.mp ensures world holds
  cases done : step world with
  | ok value after =>
    rw [done] at result
    rw [traced, tryCatch_ok done]
    exact result
  | error failure after =>
    rw [done] at result
    rw [traced, tryCatch_error done]
    cases failure with
    | raised => exact World.Failed.of_aside result ⟨rfl, rfl, rfl⟩
    | _ => exact result

theorem ensures_thenAlways {after : World → World}
    (aside : ∀ world : World, world.Aside (after world)) :
    sound.conduct.Ensures (thenAlways step after) property := by
  refine Rule.ensures_iff.mpr fun world holds => ?_
  have result := Rule.ensures_iff.mp ensures world holds
  unfold thenAlways
  cases done : step world with
  | ok value last =>
    rw [done] at result
    exact ⟨World.Kept.of_aside result.1 (aside last), result.2⟩
  | error failure last =>
    rw [done] at result
    exact World.Failed.of_aside result (aside last)

/-- A failure that leaves room for cleanup is as it is allowed to be. -/
theorem leads_settle :
    sound.conduct.Leads sound.conduct.holds (settle step) (sound.conduct.Ended property) := by
  intro world holds
  have result := Rule.ensures_iff.mp ensures world holds
  unfold settle
  cases done : step world with
  | ok value after =>
    rw [done] at result
    exact result
  | error failure after =>
    rw [done] at result
    dsimp only
    split
    next ended =>
      split at ended
      · cases ended
      · cases ended
        exact result
    next ended =>
      split at ended
      · cases ended
        exact result
      · cases ended

end Ending

theorem leads_release {α : Type} {property : α → Prop} (outcome : Except Failure α) :
    sound.conduct.Leads (sound.conduct.Ended property outcome) (release outcome)
      fun value world => sound.conduct.holds world ∧ property value := by
  cases outcome with
  | ok value => exact fun _ known => known
  | error failure => exact fun _ known => known

theorem ensures_raise {α : Type} {property : α → Prop} (id : RaisedId) :
    sound.conduct.Ensures (throw (.raised id) : Exec α) property :=
  fun world (kept : world.Kept watch) => kept.raised id

/-- Links only concern exceptions, so what is known of any failure stays known. -/
theorem leads_linkFailures (failure inflight known : Failure) :
    sound.conduct.Leads (sound.conduct.allows known) (linkFailures failure inflight)
      fun _ => sound.conduct.allows known := by
  unfold linkFailures
  split
  · exact fun world failed => World.Failed.of_aside failed (aside_link world _ _)
  · exact fun _ failed => failed

/-- A failure that is linked to another one and thrown. -/
theorem leads_linked {α : Type} (failure inflight : Failure) (after : α → World → Prop) :
    sound.conduct.Leads (sound.conduct.allows failure) (do
      linkFailures failure inflight
      throw failure) after :=
  (sound.leads_linkFailures failure inflight failure).bind fun _ _ allowed => allowed

/-! ### Raising and catching -/

/-- Raising gives no value at all. -/
theorem ensures_raiseNew (value : Ref) : sound.conduct.Ensures (raiseNew value) fun _ => False := by
  have fresh (value : Ref) : sound.conduct.Obeys (newRaised value) :=
    fun world holds => sound.conduct.quiet holds (.raise world value)
  refine sound.conduct.ensures_read fun handling => ?_
  split
  · exact (fresh value).ensures.bind fun id _ => sound.ensures_raise _
  · refine sound.conduct.ensures_read fun raised => ?_
    split
    · exact sound.ensures_raise _
    · refine (fresh value).ensures.bind fun id _ => ?_
      exact (sound.obeys_link _ _).ensures.bind fun _ _ => sound.ensures_raise _

theorem ensures_raiseAgain : sound.conduct.Ensures raiseAgain fun _ => False := by
  refine sound.conduct.ensures_read fun handling => ?_
  split
  · exact sound.ensures_raise _
  · exact sound.conduct.ensures_complain _ _

theorem obeys_traced {α : Type} {step : Exec α} (obeys : sound.conduct.Obeys step)
    (location : Location) (env : Env) : sound.conduct.Obeys (traced location env step) :=
  (sound.ensures_traced obeys.ensures location env).obeys

theorem obeys_evaluate (env : Env) {expression : Expr} (expressionSound : expression.Sound) :
    sound.conduct.Obeys (evaluate machine env expression) :=
  sound.conduct.obeys_evaluate env expression (.inr expressionSound)

theorem obeys_handlerMatches (env : Env) (location : Location) {class_ : Option Expr}
    (id : RaisedId) (classSound : ∀ expression ∈ class_, expression.Sound) :
    sound.conduct.Obeys (handlerMatches machine env location class_ id) := by
  have catchesObeys (value : Ref) (classes : List Ref) :=
    sound.obeys_traced (sound.conduct.obeys_catches value classes) location env
  cases class_ with
  | none => mvcgen [handlerMatches]
  | some expression =>
    have classObeys :=
      sound.obeys_traced (sound.obeys_evaluate env (classSound expression rfl)) location env
    mvcgen [handlerMatches, classObeys, catchesObeys]

/-- Names of a scope are nothing that is watched, also those that are announced. -/
theorem aside_modifyFrame (env : Env) (step : Namespace → Namespace) (world : World) :
    ∃ after, modifyFrame env step world = .ok () after ∧ world.Aside after := by
  cases env with
  | nil => exact ⟨world, rfl, rfl, rfl, rfl⟩
  | cons frame rest => exact ⟨_, rfl, rfl, rfl, rfl⟩

theorem obeys_modifyFrame (env : Env) (step : Namespace → Namespace) :
    sound.conduct.Obeys (modifyFrame env step) := by
  suffices ensures : sound.conduct.Ensures _ fun _ => True from ensures.obeys
  refine Rule.ensures_iff.mpr fun world holds => ?_
  obtain ⟨after, done, aside⟩ := aside_modifyFrame env step world
  rw [done]
  exact ⟨World.Kept.of_aside holds aside, trivial⟩

theorem leads_modifyFrame {α : Type} {property : α → Prop} (env : Env)
    (step : Namespace → Namespace) (outcome : Except Failure α) :
    sound.conduct.Leads (sound.conduct.Ended property outcome) (modifyFrame env step)
      fun _ => sound.conduct.Ended property outcome := by
  intro world known
  obtain ⟨after, done, aside⟩ := aside_modifyFrame env step world
  rw [done]
  cases outcome with
  | ok value => exact ⟨World.Kept.of_aside known.1 aside, known.2⟩
  | error failure => exact World.Failed.of_aside known aside

/-- What is left to do once the body of a handler has ended. -/
theorem leads_endHandler {property : Flow → Prop} (env : Env) (name : Option String)
    (id : RaisedId) (outcome : Except Failure Flow) :
    sound.conduct.Leads (sound.conduct.Ended property outcome) (endHandler env name id outcome)
      fun flow world => sound.conduct.holds world ∧ property flow := by
  have released : sound.conduct.Leads (sound.conduct.Ended property outcome) (do
      unbindHandled env name
      release outcome) fun flow world => sound.conduct.holds world ∧ property flow := by
    cases name with
    | none => exact sound.leads_release outcome
    | some name =>
      exact (sound.leads_modifyFrame env _ outcome).bind fun _ => sound.leads_release outcome
  cases outcome with
  | ok => exact released
  | error failure =>
    exact (sound.leads_linkFailures failure (.raised id) failure).bind fun _ => released

theorem ensures_handleWith {place : Block.Place} {body : Exec Flow}
    (bodyEnsures : sound.conduct.Ensures body place.Permits) (env : Env) (name : Option String)
    (id : RaisedId) : sound.conduct.Ensures (handleWith env name id body) place.Permits := by
  have run : sound.conduct.Ensures (runHandler env name id body) place.Permits := by
    refine (sound.conduct.obeys_bindHandled env name id).ensures.bind fun _ _ => ?_
    exact Rule.leads_iff_ensures.mp ((sound.leads_settle bodyEnsures).bind
      (sound.leads_endHandler env name id))
  refine sound.conduct.ensures_read fun previous => sound.ensures_change ?_ ?_
  · exact fun _ => ⟨rfl, rfl, rfl⟩
  · exact sound.ensures_thenAlways run fun _ => ⟨rfl, rfl, rfl⟩

/-! ### Modules -/

/-- A module whose text parses runs to its end: no signal is allowed for where it stands. -/
theorem ensures_runText (file text : String) (space : SpaceId)
    (fits : ∀ program, Program.parse file text = .ok program →
      Stmt.EverywhereAll watch.fits program) :
    sound.conduct.Ensures (runText machine file text space) fun _ => True := by
  unfold runText
  cases parsed : Program.parse file text with
  | error error =>
    have remembered : sound.conduct.Leads sound.conduct.holds (change (·.rememberSource file text))
        fun _ => sound.conduct.allows (.source error) :=
      fun _ kept => World.Kept.refused kept parsed
    exact Rule.leads_iff_ensures.mp (remembered.bind fun _ _ allowed => allowed)
  | ok program =>
    obtain ⟨wellFormed, statementsSound⟩ := Program.parse_yields file text program parsed
    have remembered : sound.conduct.Obeys (change (·.rememberSource file text)) :=
      fun _ kept => World.Kept.remembered kept parsed
    refine remembered.ensures.bind fun _ _ => ?_
    refine Rule.Ensures.bind (sound.run (moduleEnv space) wellFormed statementsSound
      (fits program parsed)) fun flow permitted => ?_
    cases flow with
    | done => exact Rule.ensures_pure trivial
    | returned => cases permitted
    | broken => cases permitted
    | continued => cases permitted

theorem ensures_runPath (path : String) (space : SpaceId) :
    sound.conduct.Ensures (runPath machine path space) fun _ => True := by
  refine Rule.leads_iff_ensures.mp fun world (kept : world.Kept watch) => ?_
  cases found : world.host.textAt path with
  | ok text =>
    rw [runPath_of_ok found]
    refine Rule.leads_iff_ensures.mpr (sound.ensures_runText path text space ?_) world kept
    exact fun program => kept.fits.files path text program (Host.read_of_textAt found)
  | error reason =>
    rw [runPath_of_error found]
    exact kept.failed id fun _ same => by cases same

theorem obeys_settleDeferred (module_ : Ref) (deferred : Deferred) :
    sound.conduct.Obeys (settleDeferred module_ deferred) := by
  cases deferred with
  | bindModule env path newName => exact sound.conduct.obeys_bindModule env path newName module_
  | bindNames env path names location =>
    exact sound.obeys_traced (sound.conduct.obeys_bindNames env path module_ names) location env

/-- A failure that is entered into the registry and thrown again. -/
theorem obeys_recorded {body : Exec Unit} (obeys : sound.conduct.Obeys body)
    (step : Registry → Registry) : sound.conduct.Obeys (tryCatch body fun failure => do
      modifyRegistry step
      throw failure) := by
  suffices ensures : sound.conduct.Ensures _ fun _ => True from ensures.obeys
  refine Rule.ensures_iff.mpr fun world holds => ?_
  have result := Rule.ensures_iff.mp obeys.ensures world holds
  cases done : body world with
  | ok value after =>
    rw [done] at result
    rw [tryCatch_ok done]
    exact result
  | error failure after =>
    rw [done] at result
    rw [tryCatch_error done]
    exact World.Failed.of_aside result ⟨rfl, rfl, rfl⟩

theorem obeys_carryOut (path : String) (module_ : Ref) (binding : Deferred) :
    sound.conduct.Obeys (carryOut path module_ binding) :=
  sound.conduct.obeys_bind _ _
    (sound.obeys_recorded (sound.obeys_settleDeferred module_ binding) _)
    fun _ => sound.obeys_modifyRegistry _

theorem obeys_runModule (path : String) (purpose : Purpose) (module_ : Ref) (space : SpaceId) :
    sound.conduct.Obeys (runModule machine path purpose module_ space) := by
  refine sound.conduct.obeys_bind _ _ (sound.obeys_modifyRegistry _) fun _ => ?_
  refine sound.conduct.obeys_bind _ _ ?_ fun _ => sound.obeys_modifyRegistry _
  exact sound.obeys_recorded (sound.ensures_runPath path space).obeys _

theorem obeys_complete (path : String) (module_ : Ref) {body : Exec Unit}
    (obeys : sound.conduct.Obeys body) : sound.conduct.Obeys (complete path module_ body) := by
  have settled (deferred : List Deferred) :
      sound.conduct.Obeys (deferred.forM (carryOut path module_)) :=
    sound.conduct.obeys_forM _ _ (sound.obeys_carryOut path module_)
  unfold complete
  refine sound.conduct.obeys_bind _ _ (sound.obeys_recorded obeys _) fun _ => ?_
  mvcgen [settled]

@[spec]
theorem obeys_loadFresh (path name : String) :
    sound.conduct.Obeys (loadFresh machine path name) := by
  have completes (module_ : Ref) (space : SpaceId) :=
    sound.obeys_complete path module_ (sound.obeys_runModule path .imported module_ space)
  mvcgen [loadFresh, completes]

@[spec]
theorem obeys_load (name directory : String) :
    sound.conduct.Obeys (load machine name directory) := by
  mvcgen [load]

@[spec]
theorem obeys_announceAll (env : Env) (names : List String) :
    sound.conduct.Obeys (announceAll env names) :=
  sound.conduct.obeys_forM _ _ fun _ => sound.obeys_modifyFrame _ _

@[spec]
theorem obeys_postpone (path : String) (binding : Deferred) :
    sound.conduct.Obeys (postpone path binding) := by
  mvcgen [postpone]

@[spec]
theorem obeys_importModule (env : Env) (location : Location) (path : List String)
    (newName : Option String) :
    sound.conduct.Obeys (importModule machine env location path newName) := by
  mvcgen [importModule]

@[spec]
theorem obeys_importNames (env : Env) (location : Location) (path : List String)
    (names : Option (List String)) :
    sound.conduct.Obeys (importNames machine env location path names) := by
  mvcgen [importNames]

/-! ### Simple statements and definitions -/

/-- A step after which a statement is done. -/
theorem ensures_done {α : Type} {step : Exec α} {place : Block.Place}
    (obeys : sound.conduct.Obeys step) :
    sound.conduct.Ensures (do
      let _ ← step
      return .done) place.Permits :=
  obeys.ensures.bind fun _ _ => Rule.ensures_pure trivial

theorem ensures_runSimple {place : Block.Place} (env : Env) (location : Location) {action : Simple}
    (allowed : place.allows action) (actionSound : action.Sound) :
    sound.conduct.Ensures (runSimple machine env location action) place.Permits := by
  cases action with
  | expression value =>
    have discarded : sound.conduct.Obeys (discard (evaluate machine env value)) :=
      sound.conduct.obeys_bind _ _ (sound.obeys_evaluate env actionSound) fun _ _ holds => holds
    exact sound.ensures_done discarded
  | assign target value =>
    obtain ⟨targetSound, isTarget, valueSound⟩ := actionSound
    refine (sound.obeys_evaluate env valueSound).ensures.bind fun value _ => ?_
    exact sound.ensures_done
      (sound.conduct.obeys_assign env value target (.inr ⟨targetSound, isTarget⟩))
  | pass => exact Rule.ensures_pure trivial
  | breakLoop => exact Rule.ensures_pure allowed
  | continueLoop => exact Rule.ensures_pure allowed
  | returnValue value =>
    cases value with
    | none => exact Rule.ensures_pure allowed
    | some value =>
      refine (sound.obeys_evaluate env (actionSound value rfl)).ensures.bind fun _ _ => ?_
      exact Rule.ensures_pure allowed
  | raiseValue value =>
    cases value with
    | none => exact sound.ensures_raiseAgain.mono fun _ impossible => impossible.elim
    | some value =>
      refine (sound.obeys_evaluate env (actionSound value rfl)).ensures.bind fun found _ => ?_
      refine (sound.conduct.obeys_exceptionOf found).ensures.bind fun exception _ => ?_
      exact (sound.ensures_raiseNew exception).mono fun _ impossible => impossible.elim
  | delete target => exact sound.ensures_done (sound.conduct.obeys_delete env target (.inr actionSound))
  | importModule path newName => exact sound.ensures_done (sound.obeys_importModule _ _ _ _)
  | importNames path names => exact sound.ensures_done (sound.obeys_importNames _ _ _ _)

theorem obeys_evaluateDefaults (env : Env) {parameters : List Parameter}
    (parametersSound : ∀ parameter ∈ parameters, parameter.Sound) :
    sound.conduct.Obeys (evaluateDefaults machine env parameters) := by
  induction parameters with
  | nil => mvcgen [evaluateDefaults]
  | cons parameter rest inductionHypothesis =>
    rw [List.forall_mem_cons] at parametersSound
    have restObey := inductionHypothesis parametersSound.2
    obtain ⟨name, default⟩ := parameter
    cases default with
    | none => exact restObey
    | some default =>
      have defaultObeys := sound.obeys_evaluate env (parametersSound.1 default rfl)
      mvcgen [evaluateDefaults, defaultObeys, restObey]

/-- The one step that puts new code on the heap. -/
theorem obeys_allocCode {object : Object}
    (checked : ∀ (function : Function) (definition : Definition) (closure : Env)
      (defaults : List (String × Ref)), object.function = some function →
      function.code = .written definition closure defaults →
      definition.Sound ∧ Stmt.EverywhereAll watch.fits definition.body) :
    sound.conduct.Obeys (alloc object) := by
  intro world (kept : world.Kept watch)
  refine ⟨kept.sound.push fun function definition closure defaults known code => ?_,
    ⟨kept.fits.functions.push fun function definition closure defaults known code => ?_,
      kept.fits.files⟩, kept.watched⟩
  · exact (checked function definition closure defaults known code).1
  · exact (checked function definition closure defaults known code).2

theorem obeys_defineFunction (env : Env) (location : Location) (name : String)
    {parameters : List Parameter} {body : List Stmt}
    (parametersSound : ∀ parameter ∈ parameters, parameter.Sound)
    (definitionSound : Definition.Sound ⟨parameters, body⟩)
    (bodyFits : Stmt.EverywhereAll watch.fits body) :
    sound.conduct.Obeys (defineFunction machine env location name parameters body) := by
  have defaultsObey :=
    sound.obeys_traced (sound.obeys_evaluateDefaults env parametersSound) location env
  have written (space : SpaceId) (closure : Env) (defaults : List (String × Ref)) :
      sound.conduct.Obeys (alloc ⟨BuiltinClass.function.ref, some space, .empty,
        some ⟨name, .written ⟨parameters, body⟩ closure defaults, []⟩⟩) := by
    refine sound.obeys_allocCode fun function definition _ _ known code => ?_
    cases known
    cases code
    exact ⟨definitionSound, bodyFits⟩
  mvcgen [defineFunction, defaultsObey, written]

theorem obeys_evaluateBase (env : Env) (name : String) {base : Option Expr}
    (baseSound : ∀ expression ∈ base, expression.Sound) :
    sound.conduct.Obeys (evaluateBase machine env name base) := by
  cases base with
  | none => mvcgen [evaluateBase]
  | some expression =>
    have baseObeys := sound.obeys_evaluate env (baseSound expression rfl)
    mvcgen [evaluateBase, baseObeys]

theorem obeys_defineClass (env : Env) (name : String) (base : Option Ref) {body : Env → Exec Flow}
    (obeys : ∀ inner, sound.conduct.Obeys (body inner)) :
    sound.conduct.Obeys (defineClass env name base body) := by
  mvcgen [defineClass, obeys]

/-! ### Loops and cleanup -/

theorem obeys_holds (env : Env) (location : Location) {condition : Expr}
    (conditionSound : condition.Sound) :
    sound.conduct.Obeys (holds machine env location condition) := by
  refine sound.obeys_traced ?_ location env
  have conditionObeys := sound.obeys_evaluate env conditionSound
  mvcgen [conditionObeys]

/-- A round leaves the loop only with a signal that is permitted around it. -/
def Round.Permits (place : Block.Place) : Round → Prop
  | .left flow => place.Permits flow
  | _ => True

/-- The signals that are for a loop end in it. -/
theorem permits_ofFlow {place : Block.Place} {flow : Flow} (permitted : place.loop.Permits flow) :
    Round.Permits place (Round.ofFlow flow) := by
  cases flow with
  | returned => exact permitted
  | _ => trivial

theorem ensures_repeatUntil {α σ : Type} {round : σ → Exec (Except σ α)} {property : α → Prop}
    (budget : Nat) (state : σ)
    (ensures : ∀ state, sound.conduct.Ensures (round state) fun
      | .ok result => property result
      | .error _ => True) :
    sound.conduct.Ensures (repeatUntil round budget state) property := by
  induction budget generalizing state with
  | zero => exact fun world (kept : world.Kept watch) => kept.fatal rfl
  | succ budget inductionHypothesis =>
    refine (ensures state).bind fun outcome known => ?_
    cases outcome with
    | ok result => exact Rule.ensures_pure known
    | error state => exact inductionHypothesis state

theorem ensures_loop {place : Block.Place} {round : Exec (Option Round)} {otherwise : Exec Flow}
    (roundEnsures : sound.conduct.Ensures round fun found =>
      ∀ ended ∈ found, Round.Permits place ended)
    (otherwiseEnsures : sound.conduct.Ensures otherwise place.Permits) :
    sound.conduct.Ensures (loop machine round otherwise) place.Permits := by
  refine sound.ensures_repeatUntil _ _ fun _ => roundEnsures.bind fun found permitted => ?_
  split
  · exact otherwiseEnsures.bind fun flow known => Rule.ensures_pure known
  · exact Rule.ensures_pure trivial
  · exact Rule.ensures_pure trivial
  · exact Rule.ensures_pure (permitted _ rfl)

theorem obeys_checkInterrupt : sound.conduct.Obeys checkInterrupt := by
  have taken : sound.conduct.Obeys (change (·.takeInterrupt)) :=
    sound.obeys_change fun _ => ⟨rfl, rfl, rfl⟩
  mvcgen [checkInterrupt, taken]

/-- How a step ended is no broken rule, and its value has a property. -/
def Within {α : Type} (property : α → Prop) : Except Failure α → Prop
  | .ok value => property value
  | .error failure => ¬ failure.IsInternal

/-- Where cleanup is to go on after every failure, it can be told from the failure itself what it
leaves behind. -/
theorem ended_iff {α : Type} {property : α → Prop} {outcome : Except Failure α} {world : World}
    (level : ∀ failure sources, watch.allows failure sources ↔ watch.holds sources) :
    sound.conduct.Ended property outcome world ↔
      sound.conduct.holds world ∧ Within property outcome := by
  cases outcome with
  | ok value => exact Iff.rfl
  | error failure =>
    constructor
    · intro (failed : world.Failed watch failure)
      exact ⟨⟨failed.sound, failed.fits, (level _ _).mp failed.watched⟩, failed.within⟩
    · rintro ⟨kept, within⟩
      exact ⟨kept.sound, kept.fits, (level _ _).mpr kept.watched, within⟩

theorem leads_cleanUp {place : Block.Place} (outcome : Except Failure Flow) {cleanup : Exec Flow}
    (level : ∀ failure sources, watch.allows failure sources ↔ watch.holds sources)
    (cleanupEnsures : sound.conduct.Ensures cleanup place.Permits) :
    sound.conduct.Leads (sound.conduct.Ended place.Permits outcome) (cleanUp outcome cleanup)
      fun flow world => sound.conduct.holds world ∧ place.Permits flow := by
  intro world known
  obtain ⟨kept, within⟩ := (sound.ended_iff level).mp known
  refine ((sound.leads_settle cleanupEnsures).bind fun ended => ?_) world kept
  split
  · exact sound.leads_linked _ _ _
  · exact fun _ failed => failed
  · refine fun last done => sound.leads_release outcome last ?_
    exact (sound.ended_iff level).mpr ⟨done.1, within⟩
  · exact fun _ done => done

/-! ### Statements -/

mutual

/-- A statement gives only signals that its place permits. -/
theorem ensures_execute {place : Block.Place} (env : Env) : (statement : Stmt) →
    Block.WellFormed place statement → statement.Sound → statement.Everywhere watch.fits →
    sound.conduct.Ensures (execute machine env statement) place.Permits
  | .simple location action, wellFormed, statementSound, _ => by
    rw [execute]
    exact sound.ensures_traced (sound.ensures_runSimple env location wellFormed statementSound) _ _
  | .choice _ branches otherwise, ⟨_, wellFormed, elseWellFormed⟩, ⟨branchesSound, elseSound⟩,
      ⟨_, branchesFit, elseFits⟩ => by
    rw [execute]
    exact ensures_executeBranches env
      (ensures_executeElse env otherwise elseWellFormed elseSound elseFits)
      branches wellFormed branchesSound branchesFit
  | .whileLoop location condition body otherwise, ⟨_, wellFormed, elseWellFormed⟩,
      ⟨conditionSound, bodySound, elseSound⟩, ⟨_, bodyFits, elseFits⟩ => by
    rw [execute]
    refine sound.ensures_loop ?_
      (ensures_executeElse env otherwise elseWellFormed elseSound elseFits)
    refine (sound.obeys_holds env location conditionSound).ensures.bind fun held _ => ?_
    cases held with
    | false => exact Rule.ensures_pure fun _ impossible => by cases impossible
    | true =>
      refine (ensures_executeAll env body wellFormed bodySound bodyFits).bind
        fun flow permitted => ?_
      exact Rule.ensures_pure fun _ same => by cases same; exact permits_ofFlow permitted
  | .forLoop location target iterable body otherwise, ⟨_, wellFormed, elseWellFormed⟩,
      ⟨⟨targetSound, isTarget, iterableSound⟩, bodySound, elseSound⟩, ⟨_, bodyFits, elseFits⟩ => by
    have iterableObeys := sound.obeys_evaluate env iterableSound
    have assignObeys (element : Ref) := sound.obeys_traced
      (sound.conduct.obeys_assign env element target (.inr ⟨targetSound, isTarget⟩)) location env
    rw [execute]
    refine (sound.obeys_traced ?_ location env).ensures.bind fun iterator _ => ?_
    · mvcgen [iterableObeys]
    refine sound.ensures_loop ?_
      (ensures_executeElse env otherwise elseWellFormed elseSound elseFits)
    refine (sound.obeys_traced (sound.conduct.obeys_next? iterator) location env).ensures.bind
      fun element _ => ?_
    cases element with
    | none => exact Rule.ensures_pure fun _ impossible => by cases impossible
    | some element =>
      refine (assignObeys element).ensures.bind fun _ _ => ?_
      refine (ensures_executeAll env body wellFormed bodySound bodyFits).bind
        fun flow permitted => ?_
      exact Rule.ensures_pure fun _ same => by cases same; exact permits_ofFlow permitted
  | .attempt _ body handlers otherwise cleanup,
      ⟨_, wellFormed, handlersWellFormed, _, elseWellFormed, cleanupWellFormed, _⟩,
      ⟨bodySound, handlersSound, elseSound, cleanupSound⟩,
      ⟨fits, bodyFits, handlersFit, elseFits, cleanupFits⟩ => by
    have bodySettled :=
      sound.leads_settle (ensures_executeAll env body wellFormed bodySound bodyFits)
    have elseSettled :=
      sound.leads_settle (ensures_executeElse env otherwise elseWellFormed elseSound elseFits)
    -- However the first part ends, the cleanup comes after it.
    have finish (outcome : Except Failure Flow) :
        sound.conduct.Leads (sound.conduct.Ended place.Permits outcome) (match cleanup with
          | none => release outcome
          | some block => cleanUp outcome (executeAll machine env block))
          fun flow world => sound.conduct.holds world ∧ place.Permits flow := by
      cases cleanup with
      | none => exact sound.leads_release outcome
      | some block =>
        exact sound.leads_cleanUp outcome (watch.cleanup fits)
          (ensures_executeAll env block cleanupWellFormed.2 cleanupSound cleanupFits)
    have unchanged (ended : Except Failure Flow) :
        sound.conduct.Leads (sound.conduct.Ended place.Permits ended) (pure ended)
          (sound.conduct.Ended place.Permits) :=
      fun _ known => known
    rw [execute]
    refine Rule.leads_iff_ensures.mp (bodySettled.bind fun ended => ?_)
    cases ended with
    | ok flow =>
      cases flow with
      | done => exact Rule.Leads.bind (fun world known => elseSettled world known.1) finish
      | _ => exact (unchanged _).bind finish
    | error failure =>
      cases failure with
      | raised id =>
        have handled := sound.leads_settle
          (ensures_executeHandlers env id handlers handlersWellFormed handlersSound handlersFit)
        exact Rule.Leads.bind (fun world failed => handled world (sound.conduct.caught failed))
          finish
      | _ => exact (unchanged _).bind finish
  | .functionDef location name parameters body, ⟨_, wellFormed⟩, ⟨parametersSound, bodySound⟩,
      ⟨_, bodyFits⟩ => by
    rw [execute]
    exact sound.ensures_done (sound.obeys_defineFunction env location name parametersSound
      ⟨wellFormed, bodySound⟩ bodyFits)
  | .classDef location name base body, ⟨_, wellFormed⟩, ⟨baseSound, bodySound⟩,
      ⟨_, bodyFits⟩ => by
    rw [execute]
    refine (sound.obeys_traced (sound.obeys_evaluateBase env name baseSound) location env).ensures.bind
      fun base _ => ?_
    exact sound.ensures_done (sound.obeys_defineClass env name base fun inner =>
      (ensures_executeAll inner body wellFormed bodySound bodyFits).obeys)

theorem ensures_executeAll {place : Block.Place} (env : Env) : (statements : List Stmt) →
    Block.WellFormedAll place statements → Stmt.SoundAll statements →
    Stmt.EverywhereAll watch.fits statements →
    sound.conduct.Ensures (executeAll machine env statements) place.Permits
  | [], _, _, _ => by
    rw [executeAll]
    exact Rule.ensures_pure trivial
  | statement :: rest, ⟨wellFormed, restWellFormed⟩, ⟨statementSound, restSound⟩,
      ⟨statementFits, restFits⟩ => by
    rw [executeAll]
    refine (sound.obeys_traced sound.obeys_checkInterrupt _ env).ensures.bind fun _ _ => ?_
    refine (ensures_execute env statement wellFormed statementSound statementFits).bind
      fun flow permitted => ?_
    split
    · exact ensures_executeAll env rest restWellFormed restSound restFits
    · exact Rule.ensures_pure permitted

theorem ensures_executeElse {place : Block.Place} (env : Env) : (block : Option (List Stmt)) →
    Block.WellFormedElse place block → Stmt.SoundElse block →
    Stmt.EverywhereElse watch.fits block →
    sound.conduct.Ensures (executeElse machine env block) place.Permits
  | none, _, _, _ => by
    rw [executeElse]
    exact Rule.ensures_pure trivial
  | some block, ⟨_, wellFormed⟩, blockSound, blockFits => by
    rw [executeElse]
    exact ensures_executeAll env block wellFormed blockSound blockFits

theorem ensures_executeBranches {place : Block.Place} (env : Env) {otherwise : Exec Flow}
    (otherwiseEnsures : sound.conduct.Ensures otherwise place.Permits) :
    (branches : List Branch) → Block.WellFormedBranches place branches →
    Branch.SoundAll branches → Branch.EverywhereAll watch.fits branches →
    sound.conduct.Ensures (executeBranches machine env otherwise branches) place.Permits
  | [], _, _, _ => by
    rw [executeBranches]
    exact otherwiseEnsures
  | .mk location condition body :: rest, ⟨_, wellFormed, restWellFormed⟩,
      ⟨conditionSound, bodySound, restSound⟩, ⟨bodyFits, restFit⟩ => by
    rw [executeBranches]
    refine (sound.obeys_holds env location conditionSound).ensures.bind fun held _ => ?_
    split
    · exact ensures_executeAll env body wellFormed bodySound bodyFits
    · exact ensures_executeBranches env otherwiseEnsures rest restWellFormed restSound restFit

theorem ensures_executeHandlers {place : Block.Place} (env : Env) (id : RaisedId) :
    (handlers : List Handler) → Block.WellFormedHandlers place handlers →
    Handler.SoundAll handlers → Handler.EverywhereAll watch.fits handlers →
    sound.conduct.Ensures (executeHandlers machine env id handlers) place.Permits
  | [], _, _, _ => by
    rw [executeHandlers]
    exact sound.ensures_raise id
  | .mk location class? name body :: rest, ⟨_, wellFormed, restWellFormed⟩,
      ⟨classSound, bodySound, restSound⟩, ⟨bodyFits, restFit⟩ => by
    have matched := sound.leads_settle
      (sound.obeys_handlerMatches env location id classSound).ensures
    rw [executeHandlers]
    refine Rule.leads_iff_ensures.mp (matched.bind fun ended => ?_)
    split
    · exact sound.leads_linked _ _ _
    · have handled := sound.ensures_handleWith
        (ensures_executeAll env body wellFormed bodySound bodyFits) env name id
      exact fun world known => Rule.leads_iff_ensures.mpr handled world known.1
    · have next := ensures_executeHandlers env id rest restWellFormed restSound restFit
      exact fun world known => Rule.leads_iff_ensures.mpr next world known.1

end

/-! ### Functions written in the language -/

theorem obeys_runBody (name : String) {definition : Definition} (closure : Env)
    (defaults : List (String × Ref)) (arguments : List Ref) (named : List (String × Ref))
    (definitionSound : definition.Sound)
    (bodyFits : Stmt.EverywhereAll watch.fits definition.body) :
    sound.conduct.Obeys (runBody machine name definition closure defaults arguments named) := by
  exact sound.conduct.obeys_runBody name closure defaults arguments named fun env =>
    (sound.run env definitionSound.1 definitionSound.2 bodyFits).obeys

/-- A function that is on the heap was checked, so it keeps to the rules when it is called. -/
theorem callWritten_spec (callee : Ref) (function : Function) (definition : Definition)
    (closure : Env) (defaults : List (String × Ref)) (arguments : List Ref)
    (named : List (String × Ref)) (code : function.code = .written definition closure defaults) :
    ⦃fun world => ⌜sound.conduct.holds world ∧ (world.object callee).function = some function⌝⦄
      callWritten machine function.name definition closure defaults arguments named
    ⦃post⟨fun _ world => ⌜sound.conduct.holds world⌝,
      fun failure world => ⌜sound.conduct.allows failure world⌝⟩⦄ := by
  rintro world ⟨kept, found⟩
  have definitionSound := kept.sound callee function definition closure defaults found code
  have bodyFits := kept.fits.functions callee function definition closure defaults found code
  suffices ensures : sound.conduct.Ensures
      (callWritten machine function.name definition closure defaults arguments named)
      fun _ => True from
    ensures.obeys world kept
  refine sound.conduct.ensures_read fun depth => ?_
  split
  · exact sound.conduct.ensures_complain _ _
  · refine sound.ensures_change (fun _ => ⟨rfl, rfl, rfl⟩) ?_
    refine sound.ensures_change (fun _ => ⟨rfl, rfl, rfl⟩) ?_
    refine sound.ensures_thenAlways ?_ fun _ => ⟨rfl, rfl, rfl⟩
    exact (sound.obeys_runBody _ closure defaults arguments named definitionSound bodyFits).ensures

end Machine.Sound

/-! ### Runs -/

/-- No run breaks a rule, whatever fuel it is given, and whatever is watched along it. -/
theorem Machine.ofFuel_sound (watch : Watch) (fuel : Nat) : (Machine.ofFuel fuel).Sound watch := by
  induction fuel with
  | zero =>
    have exhausted {world : World} (kept : world.Kept watch) : world.Failed watch .exhausted :=
      kept.fatal rfl
    exact ⟨fun _ _ _ _ kept => exhausted kept, fun _ _ _ _ _ kept => exhausted kept⟩
  | succ fuel inductionHypothesis =>
    refine ⟨fun callee arguments named => ?_, fun env wellFormed statementsSound fits => ?_⟩
    · exact inductionHypothesis.conduct.obeys_callStep inductionHypothesis.callWritten_spec callee
        arguments named
    · exact inductionHypothesis.ensures_executeAll env _ wellFormed statementsSound fits

theorem Machine.standard_sound (watch : Watch) : Machine.standard.Sound watch :=
  Machine.ofFuel_sound watch fuelOfRun

end Offside
