/-
This file goes through the statements and finds that every run keeps to a passage. The
recursion is the one of execution itself, on the statements of a program; functions that
are called later come from the heap, where the passage knows what statements they have.

What imports do to the registry of modules is left open: a passage has to say itself that
they keep to it.
-/

import Offside.Proofs.Passage.Basic

open Std.Do

set_option mvcgen.warning false

namespace Offside

/-- Imports keep to a passage when the machine does. -/
structure Passage.CoversImports (passage : Passage) : Prop where
  importModule : ∀ {machine : Machine}, machine.Keeps passage →
    ∀ (env : Env) {location : Location} (path : List String) (newName : Option String)
      {world : World}, passage.fine world → passage.placed location →
      passage.Ends passage.raised world
        (Exec.importModule machine env location path newName world)
  importNames : ∀ {machine : Machine}, machine.Keeps passage →
    ∀ (env : Env) {location : Location} (path : List String) (names : Option (List String))
      {world : World}, passage.fine world → passage.placed location →
      passage.Ends passage.raised world (Exec.importNames machine env location path names world)

namespace Machine.Keeps

open Exec Passage

variable {passage : Passage} {machine : Machine} (keeps : machine.Keeps passage)
  {α β : Type} {level : RaisedId → Array Raised → Prop} {world : World}

section Simple

variable (fine : passage.fine world)

include keeps fine

/-! ### Simple statements -/

theorem ends_runSimple (imports : passage.CoversImports) (env : Env) {location : Location}
    (placed : passage.placed location) (action : Simple) :
    passage.Ends passage.raised world (runSimple machine env location action world) := by
  have done {α : Type} {step : Exec α} (ended : passage.Ends passage.raised world (step world)) :
      passage.Ends passage.raised world ((do let _ ← step; return .done : Exec Flow) world) :=
    ends_bind ended fun _ _ led => ends_pure (passage.fine_of_leads led) _
  cases action with
  | expression expression =>
    refine ends_bind ?_ fun _ _ led => ends_pure (passage.fine_of_leads led) _
    refine ends_bind (keeps.ends_evaluate fine env expression) fun _ _ led => ?_
    exact ends_pure (passage.fine_of_leads led) _
  | assign target value =>
    refine ends_bind (keeps.ends_evaluate fine env value) fun found _ led => ?_
    have fine := passage.fine_of_leads led
    refine ends_bind ?_ fun _ _ led => ends_pure (passage.fine_of_leads led) _
    exact keeps.ends_assign fine env found target
  | pass => exact ends_pure fine _
  | breakLoop => exact ends_pure fine _
  | continueLoop => exact ends_pure fine _
  | returnValue value =>
    cases value with
    | none => exact ends_pure fine _
    | some value =>
      exact ends_bind (keeps.ends_evaluate fine env value) fun _ _ led =>
        ends_pure (passage.fine_of_leads led) _
  | raiseValue value =>
    cases value with
    | none => exact keeps.ends_raiseAgain fine
    | some value =>
      refine ends_bind (keeps.ends_evaluate fine env value) fun found _ led => ?_
      refine ends_bind (keeps.ends_of_obeys (passage.fine_of_leads led) fun origin =>
        (keeps.conduct origin).obeys_exceptionOf found) fun exception _ led => ?_
      exact ends_raiseNew (passage.fine_of_leads led) exception
  | delete target =>
    exact done (keeps.ends_of_obeys fine fun origin =>
      (keeps.conduct origin).obeys_delete env target (.inl (keeps.lenient origin)))
  | importModule path newName =>
    exact done (imports.importModule keeps env path newName fine placed)
  | importNames path names => exact done (imports.importNames keeps env path names fine placed)

/-! ### Definitions -/

theorem ends_evaluateDefaults (env : Env) (parameters : List Parameter) :
    passage.Ends passage.raised world (evaluateDefaults machine env parameters world) := by
  induction parameters generalizing world with
  | nil => exact ends_pure fine _
  | cons parameter rest inductionHypothesis =>
    obtain ⟨name, default⟩ := parameter
    cases default with
    | none => exact inductionHypothesis fine
    | some default =>
      refine ends_bind (keeps.ends_evaluate fine env default) fun value _ led => ?_
      refine ends_bind (inductionHypothesis (passage.fine_of_leads led)) fun _ _ led => ?_
      exact ends_pure (passage.fine_of_leads led) _

/-- Nothing after the defaults of a function can fail. -/
theorem ends_defineFunction (env : Env) {location : Location} (placed : passage.placed location)
    (name : String) (parameters : List Parameter) {body : List Stmt}
    (stands : Stmt.EverywhereAll (Stmt.Stands passage.placed) body) :
    passage.Ends passage.recorded world
      (defineFunction machine env location name parameters body world) := by
  refine ends_bind (ends_traced placed env (keeps.ends_evaluateDefaults fine env parameters))
    fun defaults _ led => ?_
  have fine := passage.fine_of_leads led
  refine ends_bind (keeps.ends_of_succeeds fine (fun origin =>
    (keeps.conduct origin).obeys_newStr name) ⟨_, _, rfl⟩) fun text _ led => ?_
  have fine := passage.fine_of_leads led
  refine ends_bind (keeps.ends_of_succeeds fine (fun origin =>
    (keeps.conduct origin).obeys_newSpace_set _ _) ⟨_, _, rfl⟩) fun space _ led => ?_
  have defined := passage.defining ⟨BuiltinClass.function.ref, some space, .empty,
      some ⟨name, .written ⟨parameters, body⟩ env.closure defaults, []⟩⟩ (passage.fine_of_leads led)
    rfl fun _ _ _ _ known code => by cases known; cases code; exact stands
  refine ends_bind (α := Ref) (.ok defined) fun function _ led => ?_
  exact keeps.ends_bindName (passage.fine_of_leads led) env name function

theorem ends_evaluateBase (env : Env) (name : String) (base : Option Expr) :
    passage.Ends passage.raised world (evaluateBase machine env name base world) := by
  cases base with
  | none => exact ends_pure fine _
  | some expression =>
    refine ends_bind (keeps.ends_evaluate fine env expression) fun value _ led => ?_
    refine keeps.ends_of_obeys (passage.fine_of_leads led) fun origin => ?_
    mvcgen

theorem ends_defineClass (env : Env) (name : String) (base : Option Ref)
    {body : Env → Exec Flow} (bodyEnds : ∀ inner middle, passage.fine middle →
      passage.Ends passage.recorded middle (body inner middle)) :
    passage.Ends passage.recorded world (defineClass env name base body world) := by
  refine ends_bind (keeps.ends_of_succeeds fine (fun origin =>
    (keeps.conduct origin).obeys_newSpace_empty) ⟨_, _, rfl⟩) fun space _ led => ?_
  refine ends_bind (ends_bind (bodyEnds _ _ (passage.fine_of_leads led)) fun _ _ led =>
    ends_pure (passage.fine_of_leads led) _) fun _ _ led => ?_
  refine ends_bind (keeps.ends_of_succeeds (passage.fine_of_leads led) (fun origin =>
    (keeps.conduct origin).obeys_newClass name base space) ?_) fun class_ _ led => ?_
  · cases base <;> exact ⟨_, _, rfl⟩
  · exact keeps.ends_bindName (passage.fine_of_leads led) env name class_

/-! ### Conditions and cleanup -/

theorem ends_holds (env : Env) {location : Location} (placed : passage.placed location)
    (condition : Expr) :
    passage.Ends passage.recorded world (holds machine env location condition world) := by
  refine ends_traced placed env ?_
  refine ends_bind (keeps.ends_evaluate fine env condition) fun value _ led => ?_
  exact keeps.ends_of_obeys (passage.fine_of_leads led) fun origin =>
    (keeps.conduct origin).obeys_truthy value

theorem ends_checkInterrupt : passage.Ends passage.raised world (checkInterrupt world) := by
  refine ends_read fun requested _ => ?_
  have led : passage.leads world world.takeInterrupt :=
    passage.quiet fine (.of_same rfl rfl rfl rfl rfl rfl rfl rfl rfl)
  have fine := passage.fine_of_leads led
  refine ends_change led ?_
  split
  · exact keeps.ends_complain fine _
  · exact ends_pure fine _

end Simple

/-- Both how the body ended and how the cleanup ends may be the failure in the end. -/
theorem ends_cleanUp {outcome : Except Failure Flow} {cleanup : Exec Flow}
    (settled : Settled passage.recorded world.raised outcome)
    (cleanupEnds : passage.Ends passage.recorded world (cleanup world)) :
    passage.Ends passage.recorded world (cleanUp outcome cleanup world) := by
  refine ends_settle cleanupEnds fun ended after led endedSettled => ?_
  have fine := passage.fine_of_leads led
  have settled := settled_of_leads led settled
  split
  · refine ends_linkFailures fine endedSettled settled fun last linked => ?_
    exact ends_throw (passage.fine_of_leads linked) (meets_of_leads linked endedSettled)
  · exact ends_throw fine endedSettled
  · exact ends_release fine settled
  · exact ends_pure fine _

/-- However the first part of a `try` statement ends, the cleanup comes after it. -/
theorem ends_finish {env : Env} {cleanup : Option (List Stmt)} {outcome : Except Failure Flow}
    (cleanupEnds : ∀ middle, passage.fine middle →
      passage.Ends passage.recorded middle (executeElse machine env cleanup middle))
    (fine : passage.fine world) (settled : Settled passage.recorded world.raised outcome) :
    passage.Ends passage.recorded world ((match cleanup with
      | none => release outcome
      | some block => cleanUp outcome (executeAll machine env block)) world) := by
  cases cleanup with
  | none => exact ends_release fine settled
  | some block =>
    have blockEnds := cleanupEnds world fine
    rw [executeElse] at blockEnds
    exact ends_cleanUp settled blockEnds

/-! ### Statements -/

mutual

/-- An exception that ends a statement was recorded by it, or by one of its blocks. -/
theorem ends_execute (keeps : machine.Keeps passage) (imports : passage.CoversImports)
    (env : Env) : (statement : Stmt) → {world : World} → passage.fine world →
    statement.Everywhere (Stmt.Stands passage.placed) →
    passage.Ends passage.recorded world (execute machine env statement world)
  | .simple location action, world, fine, stands => by
    have placed := stands location List.mem_cons_self
    rw [execute]
    exact ends_traced placed env (keeps.ends_runSimple fine imports env placed action)
  | .choice location branches otherwise, world, fine, ⟨stands, branchesStand, elseStands⟩ => by
    rw [execute]
    refine ends_executeBranches keeps imports env
      (fun middle fine => ends_executeElse keeps imports env otherwise fine elseStands)
      branches fine ?_ branchesStand
    exact fun branch found => stands _ (List.mem_cons_of_mem _ (List.mem_map_of_mem found))
  | .whileLoop location condition body otherwise, world, fine,
      ⟨stands, bodyStands, elseStands⟩ => by
    rw [execute]
    refine ends_loop fine (fun middle led => ?_) fun middle led =>
      ends_executeElse keeps imports env otherwise (passage.fine_of_leads led) elseStands
    refine ends_bind (keeps.ends_holds (passage.fine_of_leads led) env
      (stands location List.mem_cons_self) condition) fun held _ led => ?_
    have fine := passage.fine_of_leads led
    split
    · exact ends_bind (ends_executeAll keeps imports env body fine bodyStands) fun _ _ led =>
        ends_pure (passage.fine_of_leads led) _
    · exact ends_pure fine _
  | .forLoop location target iterable body otherwise, world, fine,
      ⟨stands, bodyStands, elseStands⟩ => by
    have placed := stands location List.mem_cons_self
    rw [execute]
    refine ends_bind (ends_traced placed env (ends_bind (keeps.ends_evaluate fine env iterable)
      fun value _ led => keeps.ends_of_obeys (passage.fine_of_leads led) fun origin =>
        (keeps.conduct origin).obeys_iter value)) fun iterator _ led => ?_
    refine ends_loop (passage.fine_of_leads led) (fun middle led => ?_) fun middle led =>
      ends_executeElse keeps imports env otherwise (passage.fine_of_leads led) elseStands
    refine ends_bind (ends_traced placed env (keeps.ends_of_obeys (passage.fine_of_leads led)
      fun origin => (keeps.conduct origin).obeys_next? iterator)) fun element _ led => ?_
    have fine := passage.fine_of_leads led
    cases element with
    | none => exact ends_pure fine _
    | some element =>
      refine ends_bind (ends_traced placed env (keeps.ends_assign fine env element target))
        fun _ _ led => ?_
      have fine := passage.fine_of_leads led
      exact ends_bind (ends_executeAll keeps imports env body fine bodyStands)
        fun _ _ led => ends_pure (passage.fine_of_leads led) _
  | .attempt location body handlers otherwise cleanup, world, fine,
      ⟨stands, bodyStands, handlersStand, elseStands, cleanupStands⟩ => by
    have cleanupEnds (middle : World) (fine : passage.fine middle) :
        passage.Ends passage.recorded middle (executeElse machine env cleanup middle) :=
      ends_executeElse keeps imports env cleanup fine cleanupStands
    have handlersPlaced (handler : Handler) (found : handler ∈ handlers) :
        passage.placed handler.location :=
      stands _ (List.mem_cons_of_mem _ (List.mem_map_of_mem found))
    rw [execute]
    refine ends_settle (ends_executeAll keeps imports env body fine bodyStands)
      fun ended after led settled => ?_
    have fine := passage.fine_of_leads led
    cases ended with
    | ok flow =>
      cases flow with
      | done =>
        exact ends_settle (ends_executeElse keeps imports env otherwise fine elseStands)
          fun _ _ led settled => ends_finish cleanupEnds (passage.fine_of_leads led) settled
      | _ => exact ends_finish cleanupEnds fine settled
    | error failure =>
      cases failure with
      | raised id =>
        exact ends_settle (ends_executeHandlers keeps imports env handlers fine settled
          handlersPlaced handlersStand) fun _ _ led settled =>
            ends_finish cleanupEnds (passage.fine_of_leads led) settled
      | _ => exact ends_finish cleanupEnds fine settled
  | .functionDef location name parameters body, world, fine, ⟨stands, bodyStands⟩ => by
    rw [execute]
    exact ends_bind (keeps.ends_defineFunction fine env (stands location List.mem_cons_self) name
      parameters bodyStands) fun _ _ led => ends_pure (passage.fine_of_leads led) _
  | .classDef location name base body, world, fine, ⟨stands, bodyStands⟩ => by
    rw [execute]
    refine ends_bind (ends_traced (stands location List.mem_cons_self) env
      (keeps.ends_evaluateBase fine env name base)) fun base _ led => ?_
    refine ends_bind (keeps.ends_defineClass (passage.fine_of_leads led) env name base
      fun inner middle fine => ends_executeAll keeps imports inner body fine bodyStands)
      fun _ _ led => ?_
    exact ends_pure (passage.fine_of_leads led) _

theorem ends_executeAll (keeps : machine.Keeps passage)
    (imports : passage.CoversImports) (env : Env) : (statements : List Stmt) → {world : World} →
    passage.fine world → Stmt.EverywhereAll (Stmt.Stands passage.placed) statements →
    passage.Ends passage.recorded world (executeAll machine env statements world)
  | [], world, fine, _ => by
    rw [executeAll]
    exact ends_pure fine _
  | statement :: rest, world, fine, ⟨stands, restStand⟩ => by
    have placed : passage.placed statement.location :=
      stands.self statement.location statement.location_mem_headers
    rw [executeAll]
    refine ends_bind (ends_traced placed env (keeps.ends_checkInterrupt fine)) fun _ _ led => ?_
    refine ends_bind (ends_execute keeps imports env statement (passage.fine_of_leads led) stands)
      fun flow _ led => ?_
    have fine := passage.fine_of_leads led
    split
    · exact ends_executeAll keeps imports env rest fine restStand
    · exact ends_pure fine _

theorem ends_executeElse (keeps : machine.Keeps passage)
    (imports : passage.CoversImports) (env : Env) : (block : Option (List Stmt)) → {world : World} →
    passage.fine world → Stmt.EverywhereElse (Stmt.Stands passage.placed) block →
    passage.Ends passage.recorded world (executeElse machine env block world)
  | none, world, fine, _ => by
    rw [executeElse]
    exact ends_pure fine _
  | some block, world, fine, stands => by
    rw [executeElse]
    exact ends_executeAll keeps imports env block fine stands

theorem ends_executeBranches (keeps : machine.Keeps passage)
    (imports : passage.CoversImports) (env : Env) {otherwise : Exec Flow}
    (otherwiseEnds : ∀ middle, passage.fine middle →
      passage.Ends passage.recorded middle (otherwise middle)) :
    (branches : List Branch) → {world : World} → passage.fine world →
    (∀ branch ∈ branches, passage.placed branch.location) →
    Branch.EverywhereAll (Stmt.Stands passage.placed) branches →
    passage.Ends passage.recorded world (executeBranches machine env otherwise branches world)
  | [], world, fine, _, _ => by
    rw [executeBranches]
    exact otherwiseEnds world fine
  | .mk location condition body :: rest, world, fine, placed, ⟨bodyStands, restStand⟩ => by
    rw [List.forall_mem_cons] at placed
    rw [executeBranches]
    refine ends_bind (keeps.ends_holds fine env placed.1 condition) fun held _ led => ?_
    have fine := passage.fine_of_leads led
    split
    · exact ends_executeAll keeps imports env body fine bodyStands
    · exact ends_executeBranches keeps imports env otherwiseEnds rest fine placed.2 restStand

theorem ends_executeHandlers (keeps : machine.Keeps passage)
    (imports : passage.CoversImports) (env : Env) {id : RaisedId} : (handlers : List Handler) →
    {world : World} → passage.fine world → passage.recorded id world.raised →
    (∀ handler ∈ handlers, passage.placed handler.location) →
    Handler.EverywhereAll (Stmt.Stands passage.placed) handlers →
    passage.Ends passage.recorded world (executeHandlers machine env id handlers world)
  | [], world, fine, caught, _, _ => by
    rw [executeHandlers]
    exact ends_throw fine caught
  | .mk location class? name body :: rest, world, fine, caught, placed,
      ⟨bodyStands, restStand⟩ => by
    rw [List.forall_mem_cons] at placed
    rw [executeHandlers]
    refine ends_settle (keeps.ends_handlerMatches fine env placed.1 class? id)
      fun ended _ led settled => ?_
    have fine := passage.fine_of_leads led
    have caught := passage.recorded_of_leads led caught
    split
    · refine ends_linkFailures fine settled caught fun _ linked => ?_
      exact ends_throw (passage.fine_of_leads linked) (meets_of_leads linked settled)
    · exact keeps.ends_handleWith fine env name caught fun middle fine =>
        ends_executeAll keeps imports env body fine bodyStands
    · exact ends_executeHandlers keeps imports env rest fine caught placed.2 restStand

end

/-! ### Functions written in the language -/

section Calling

variable (keeps : machine.Keeps passage)

include keeps

theorem ends_callWritten (fine : passage.fine world) (name : String) {definition : Definition}
    (closure : Env) (defaults : List (String × Ref)) (arguments : List Ref)
    (named : List (String × Ref))
    (stands : Stmt.EverywhereAll (Stmt.Stands passage.placed) definition.body) :
    passage.Ends passage.raised world
      (callWritten machine name definition closure defaults arguments named world) := by
  refine ends_read fun depth same => ?_
  split
  · exact keeps.ends_complain fine _
  · next shallow =>
    rw [← same, Nat.not_le] at shallow
    let entered := world.enterCall.noteCall .entered
    have ran : passage.Ends passage.raised entered
        (runBody machine name definition closure defaults arguments named entered) := by
      refine keeps.ends_of_obeys (passage.call fine shallow) fun origin => ?_
      refine (keeps.conduct origin).obeys_runBody name closure defaults arguments named fun env => ?_
      exact Ends.obeys origin fun _ led =>
        (keeps.run env (passage.fine_of_leads led) stands).inside
    change passage.Ends passage.raised world (thenAlways
      (runBody machine name definition closure defaults arguments named)
      (fun world => world.leaveCall.noteCall .left) entered)
    unfold thenAlways
    cases done : runBody machine name definition closure defaults arguments named entered with
    | ok value after => exact .ok (passage.called fine shallow (ran.of_ok done))
    | error failure after =>
      obtain ⟨led, meets⟩ := ran.of_error done
      exact .error (passage.called fine shallow led) meets

theorem ends_callStep (fine : passage.fine world) (callee : Ref) (arguments : List Ref)
    (named : List (String × Ref)) :
    passage.Ends passage.raised world (callStep machine callee arguments named world) := by
  refine keeps.ends_of_obeys fine fun origin => ?_
  refine (keeps.conduct origin).obeys_callStep ?_ callee arguments named
  rintro callee function definition closure defaults arguments named code world ⟨led, found⟩
  have stands := passage.code (passage.fine_of_leads led) callee function definition closure
    defaults found code
  exact Ends.obeys origin (fun _ led => keeps.ends_callWritten (passage.fine_of_leads led)
    function.name closure defaults arguments named stands) world led

end Calling

end Machine.Keeps

/-! ### Runs -/

/-- Every run keeps to a passage if imports do. -/
theorem Machine.ofFuel_keeps {passage : Passage} (imports : passage.CoversImports) (fuel : Nat) :
    (Machine.ofFuel fuel).Keeps passage := by
  induction fuel with
  | zero =>
    exact ⟨fun _ _ _ _ fine => Passage.ends_throw fine trivial,
      fun _ _ fine _ => Passage.ends_throw fine trivial⟩
  | succ fuel inductionHypothesis =>
    exact ⟨fun callee arguments named _ fine =>
        inductionHypothesis.ends_callStep fine callee arguments named,
      fun env _ fine stands => inductionHypothesis.ends_executeAll imports env _ fine stands⟩

end Offside
