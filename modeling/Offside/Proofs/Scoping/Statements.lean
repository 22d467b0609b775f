/-
This file proves that whatever a run does keeps hidden tables out of the sight of functions.
The scopes of statements are made in three ways only: a module has two frames of its own, a
call puts its frame on a scope that a function keeps, and the body of a class puts its frame
on the scope around it. In all three, a function that is defined there sees no class body.

So two things are proved together, by induction on the statements and on the fuel of the
interpreter: no function keeps the frame of a class body or a table that is hidden, and no
statement runs in a scope that has a class body behind another frame.
-/

import Offside.Eval.Interpreter
import Offside.Proofs.Conduct.Evaluation
import Offside.Proofs.Scoping.Veils

open Std.Do

set_option mvcgen.warning false

namespace Offside

/-! ### Machines -/

/-- Whatever a machine calls, and whatever it runs in a scope of statements, keeps hidden tables out
of sight. -/
structure Machine.Veiled (machine : Machine) : Prop where
  call : ∀ (veil : Veil) callee arguments named, veil.Keeps (machine.call callee arguments named)
  run : ∀ (veil : Veil) statements env, veil.Admits env → veil.Keeps (machine.run statements env)

namespace Machine.Veiled

open Exec Veil

variable {machine : Machine} (veiled : machine.Veiled) (veil : Veil)

/-- What is behind a veil stays there in the course of every step that is not about statements. -/
def conduct : Conduct machine where
  holds := veil.Covers
  allows _ := veil.Covers
  quiet := Covers.of_quiet
  complaint value covers := covers.of_quiet (.raise _ value)
  fatal covers _ := covers
  caught covers := covers
  call callee arguments named world covers := by
    have kept := veiled.call veil callee arguments named world covers
    simp only [wp, PredTrans.apply, EStateM.run]
    cases done : machine.call callee arguments named world <;> rw [done] at kept <;> exact kept

theorem lenient : (veiled.conduct veil).Lenient :=
  fun _ _ _ covers => covers

variable {veil}

theorem keeps_of_obeys {α : Type} {step : Exec α} (obeys : (veiled.conduct veil).Obeys step) :
    veil.Keeps step := by
  intro world covers
  have result := Rule.ensures_iff.mp obeys.ensures world covers
  cases done : step world with
  | ok value after =>
    rw [done] at result
    exact result.1
  | error failure after =>
    rw [done] at result
    exact result

include veiled

theorem keeps_evaluate (env : Env) (expression : Expr) :
    veil.Keeps (evaluate machine env expression) :=
  veiled.keeps_of_obeys ((veiled.conduct veil).obeys_evaluate env expression
    (.inl (veiled.lenient veil)))

theorem keeps_assign (env : Env) (value : Ref) (target : Expr) :
    veil.Keeps (assign machine env value target) :=
  veiled.keeps_of_obeys ((veiled.conduct veil).obeys_assign env value target
    (.inl (veiled.lenient veil)))

theorem keeps_complain {α : Type} (complaint : Complaint) :
    veil.Keeps (complain complaint : Exec α) :=
  veiled.keeps_of_obeys ((veiled.conduct veil).obeys_complain complaint)

theorem keeps_bindName (env : Env) (name : String) (value : Ref) :
    veil.Keeps (bindName env name value) :=
  veiled.keeps_of_obeys ((veiled.conduct veil).obeys_bindName env name value)

/-! ### Raising and catching -/

omit veiled in
theorem keeps_link (id below : RaisedId) : veil.Keeps (change (·.link id below)) := by
  have same (world : World) : (world.link id below).objects = world.objects ∧
      (world.link id below).spaces = world.spaces := by
    unfold World.link
    split <;> exact ⟨rfl, rfl⟩
  exact keeps_change (fun world => (same world).1) fun world =>
    Nat.le_of_eq (congrArg Array.size (same world).2).symm

omit veiled in
theorem keeps_linkFailures (failure inflight : Failure) :
    veil.Keeps (linkFailures failure inflight) := by
  unfold linkFailures
  split
  · exact keeps_link _ _
  · exact keeps_pure _

omit veiled in
theorem keeps_newRaised (value : Ref) : veil.Keeps (newRaised value) :=
  fun world covers => covers.of_quiet (.raise world value)

omit veiled in
theorem keeps_raiseNew (value : Ref) : veil.Keeps (raiseNew value) := by
  refine keeps_read fun handling => ?_
  split
  · exact (keeps_newRaised value).bind fun _ => keeps_throw _
  · refine keeps_read fun raised => ?_
    split
    · exact keeps_throw _
    · refine (keeps_newRaised value).bind fun id => ?_
      exact (keeps_link id _).bind fun _ => keeps_throw _

theorem keeps_raiseAgain : veil.Keeps raiseAgain := by
  refine keeps_read fun handling => ?_
  split
  · exact keeps_throw _
  · exact veiled.keeps_complain _

theorem keeps_handlerMatches (env : Env) (location : Location) (class_ : Option Expr)
    (id : RaisedId) : veil.Keeps (handlerMatches machine env location class_ id) := by
  refine keeps_read fun raised => ?_
  cases class_ with
  | none => exact fun _ covers => covers
  | some expression =>
    refine ((veiled.keeps_evaluate env expression).traced location env).bind fun value => ?_
    refine keeps_read fun classes => ?_
    exact (veiled.keeps_of_obeys ((veiled.conduct veil).obeys_catches _ _)).traced location env

theorem keeps_handleWith {body : Exec Flow} (bodyKeeps : veil.Keeps body) (env : Env)
    (name : Option String) (id : RaisedId) : veil.Keeps (handleWith env name id body) := by
  have ending (outcome : Except Failure Flow) :
      veil.Keeps (endHandler env name id outcome) := by
    have linked : veil.Keeps (linkOutcome outcome id) := by
      cases outcome with
      | ok => exact keeps_pure _
      | error failure => exact keeps_linkFailures _ _
    have unbound : veil.Keeps (unbindHandled env name) :=
      veiled.keeps_of_obeys ((veiled.conduct veil).obeys_unbindHandled env name)
    exact linked.bind fun _ => unbound.bind fun _ => keeps_release outcome
  have bound : veil.Keeps (bindHandled env name id) :=
    veiled.keeps_of_obeys ((veiled.conduct veil).obeys_bindHandled env name id)
  have run : veil.Keeps (runHandler env name id body) :=
    bound.bind fun _ => bodyKeeps.settle.bind ending
  refine keeps_read fun previous => ?_
  have handles : veil.Keeps (change fun world => { world with handling := some id }) :=
    keeps_change (fun _ => rfl) fun _ => Nat.le_refl _
  exact handles.bind fun _ => run.thenAlways (fun _ => rfl) fun _ => Nat.le_refl _

/-! ### Modules -/

omit veiled in
theorem keeps_modifyRegistry (step : Registry → Registry) : veil.Keeps (modifyRegistry step) :=
  keeps_change (fun _ => rfl) fun _ => Nat.le_refl _

theorem keeps_runText (file text : String) {space : SpaceId} (shown : ¬ veil.hides space)
    (there : space.index < veil.count) : veil.Keeps (runText machine file text space) := by
  have remembered : veil.Keeps (change (·.rememberSource file text)) :=
    keeps_change (fun _ => rfl) fun _ => Nat.le_refl _
  refine remembered.bind fun _ => ?_
  cases Program.parse file text with
  | error => exact keeps_throw _
  | ok program =>
    refine (veiled.run veil program _ (admits_moduleEnv shown there)).bind fun flow => ?_
    cases flow with
    | done => exact keeps_pure _
    | _ => exact keeps_throw _

theorem keeps_runPath (path : String) {space : SpaceId} (shown : ¬ veil.hides space)
    (there : space.index < veil.count) : veil.Keeps (runPath machine path space) := by
  refine keeps_read fun files => ?_
  split
  · exact veiled.keeps_runText path _ shown there
  · exact keeps_throw _

theorem keeps_settleDeferred (module_ : Ref) (deferred : Deferred) :
    veil.Keeps (settleDeferred module_ deferred) := by
  cases deferred with
  | bindModule env path newName =>
    exact veiled.keeps_of_obeys ((veiled.conduct veil).obeys_bindModule env path newName module_)
  | bindNames env path names location =>
    exact (veiled.keeps_of_obeys
      ((veiled.conduct veil).obeys_bindNames env path module_ names)).traced location env

theorem keeps_carryOut (path : String) (module_ : Ref) (binding : Deferred) :
    veil.Keeps (carryOut path module_ binding) := by
  refine Keeps.bind ?_ fun _ => keeps_modifyRegistry _
  exact (veiled.keeps_settleDeferred module_ binding).tryCatch fun failure =>
    (keeps_modifyRegistry _).bind fun _ => keeps_throw failure

omit veiled in
theorem keeps_runModule (path : String) (purpose : Purpose) (module_ : Ref) {space : SpaceId}
    (ran : veil.Keeps (runPath machine path space)) :
    veil.Keeps (runModule machine path purpose module_ space) := by
  refine (keeps_modifyRegistry _).bind fun _ => Keeps.bind ?_ fun _ => keeps_modifyRegistry _
  exact ran.tryCatch fun failure =>
    (keeps_modifyRegistry _).bind fun _ => keeps_throw failure

theorem keeps_complete (path : String) (module_ : Ref) {body : Exec Unit}
    (bodyKeeps : veil.Keeps body) : veil.Keeps (complete path module_ body) := by
  refine Keeps.bind ?_ fun _ => keeps_read fun job => (keeps_modifyRegistry _).bind fun _ => ?_
  · exact bodyKeeps.tryCatch fun failure =>
      (keeps_modifyRegistry _).bind fun _ => keeps_throw failure
  · cases job with
    | none => exact keeps_pure _
    | some job => exact keeps_forM _ (veiled.keeps_carryOut path module_)

/-- A table that is made after a veil is not hidden by it. -/
theorem keeps_newModuleSpace {α : Type} (name file : String) {next : SpaceId → Exec α}
    (nextKeeps : ∀ (later : Veil) (space : SpaceId), ¬ later.hides space →
      space.index < later.count → later.Keeps (next space)) :
    veil.Keeps (newModuleSpace name file >>= next) := by
  have text (value : String) : veil.Keeps (newStr value) :=
    veiled.keeps_of_obeys ((veiled.conduct veil).obeys_newStr value)
  rw [newModuleSpace, bind_assoc]
  refine (text name).bind fun name => ?_
  rw [bind_assoc]
  refine (text file).bind fun file => keeps_newFrame fun count _ le => ?_
  exact nextKeeps _ _ (veil.not_hides le) (Nat.lt_succ_self count)

theorem keeps_newModule (name : String) (space : SpaceId) : veil.Keeps (newModule name space) := by
  have made : veil.Keeps (alloc ⟨BuiltinClass.moduleType.ref, some space, .empty, none⟩) :=
    keeps_alloc fun _ _ _ _ found => by cases found
  have text : veil.Keeps (newStr name) :=
    veiled.keeps_of_obeys ((veiled.conduct veil).obeys_newStr name)
  refine keeps_read fun table => ?_
  dsimp only
  split
  · refine text.bind fun text => Keeps.bind ?_ fun _ => made
    exact veiled.keeps_of_obeys ((veiled.conduct veil).obeys_modifySpace_set space _ _)
  · exact made

theorem keeps_newFileModule {α : Type} (name file : String) {next : SpaceId × Ref → Exec α}
    (nextKeeps : ∀ (later : Veil) (space : SpaceId) (module_ : Ref), ¬ later.hides space →
      space.index < later.count → later.Keeps (next (space, module_))) :
    veil.Keeps (newFileModule name file >>= next) := by
  rw [newFileModule, bind_assoc]
  refine veiled.keeps_newModuleSpace name file fun later space shown there => ?_
  rw [bind_assoc]
  exact (veiled.keeps_newModule name space).bind fun module_ =>
    nextKeeps later space module_ shown there

theorem keeps_loadFresh (path name : String) : veil.Keeps (loadFresh machine path name) := by
  refine (keeps_modifyRegistry _).bind fun _ => ?_
  refine veiled.keeps_newFileModule _ _ fun later space module_ shown there => ?_
  have ran := veiled.keeps_runPath path shown there
  exact (veiled.keeps_complete path module_ (keeps_runModule path .imported module_ ran)).bind
    fun _ => keeps_pure _

theorem keeps_load (name directory : String) : veil.Keeps (load machine name directory) := by
  refine keeps_read fun path => ?_
  cases path with
  | none => exact veiled.keeps_complain _
  | some path =>
    refine keeps_read fun registry => ?_
    split
    · exact (keeps_modifyRegistry _).bind fun _ => keeps_pure _
    · exact keeps_pure _
    · exact (veiled.keeps_loadFresh path name).bind fun _ => keeps_pure _

omit veiled in
theorem keeps_announceAll (env : Env) (names : List String) :
    veil.Keeps (announceAll env names) := by
  refine keeps_forM names fun name => ?_
  cases env with
  | nil => exact keeps_pure _
  | cons frame outer => exact keeps_change (fun _ => rfl) fun _ => Nat.le_of_eq (by simp)

omit veiled in
theorem keeps_postpone (path : String) (binding : Deferred) :
    veil.Keeps (postpone path binding) :=
  (keeps_modifyRegistry _).bind fun _ => keeps_modifyRegistry _

theorem keeps_importModule (env : Env) (location : Location) (path : List String)
    (newName : Option String) :
    veil.Keeps (importModule machine env location path newName) := by
  refine keeps_read fun directory => (veiled.keeps_load _ _).bind fun loaded => ?_
  cases loaded with
  | ready module_ =>
    exact veiled.keeps_of_obeys ((veiled.conduct veil).obeys_bindModule env path newName module_)
  | unfinished place _ =>
    exact (keeps_announceAll env _).bind fun _ => keeps_postpone place _

theorem keeps_importNames (env : Env) (location : Location) (path : List String)
    (names : Option (List String)) :
    veil.Keeps (importNames machine env location path names) := by
  refine keeps_read fun directory => (veiled.keeps_load _ _).bind fun loaded => ?_
  split
  · exact veiled.keeps_of_obeys ((veiled.conduct veil).obeys_bindNames env path _ _)
  · exact veiled.keeps_of_obeys ((veiled.conduct veil).obeys_bindPublic env _)
  · exact veiled.keeps_complain _
  · exact (keeps_announceAll env _).bind fun _ => keeps_postpone _ _

/-! ### Simple statements -/

theorem keeps_runSimple (env : Env) (location : Location) (action : Simple) :
    veil.Keeps (runSimple machine env location action) := by
  cases action with
  | expression value =>
    exact ((veiled.keeps_evaluate env value).bind fun _ => keeps_pure _).bind fun _ => keeps_pure _
  | assign target value =>
    exact (veiled.keeps_evaluate env value).bind fun value =>
      (veiled.keeps_assign env value target).bind fun _ => keeps_pure _
  | pass => exact keeps_pure _
  | breakLoop => exact keeps_pure _
  | continueLoop => exact keeps_pure _
  | returnValue value =>
    cases value with
    | none => exact keeps_pure _
    | some value => exact (veiled.keeps_evaluate env value).bind fun _ => keeps_pure _
  | raiseValue value =>
    cases value with
    | none => exact veiled.keeps_raiseAgain
    | some value =>
      refine (veiled.keeps_evaluate env value).bind fun found => Keeps.bind ?_ keeps_raiseNew
      exact veiled.keeps_of_obeys ((veiled.conduct veil).obeys_exceptionOf found)
  | delete target =>
    refine Keeps.bind ?_ fun _ => keeps_pure _
    exact veiled.keeps_of_obeys ((veiled.conduct veil).obeys_delete env target
      (.inl (veiled.lenient veil)))
  | importModule path newName =>
    exact (veiled.keeps_importModule env location path newName).bind fun _ => keeps_pure _
  | importNames path names =>
    exact (veiled.keeps_importNames env location path names).bind fun _ => keeps_pure _

/-! ### Definitions -/

theorem keeps_evaluateDefaults (env : Env) (parameters : List Parameter) :
    veil.Keeps (evaluateDefaults machine env parameters) := by
  induction parameters with
  | nil => exact keeps_pure _
  | cons parameter rest inductionHypothesis =>
    obtain ⟨name, default⟩ := parameter
    cases default with
    | none => exact inductionHypothesis
    | some default =>
      exact (veiled.keeps_evaluate env default).bind fun _ =>
        inductionHypothesis.bind fun _ => keeps_pure _

theorem keeps_defineFunction {env : Env} (admits : veil.Admits env) (location : Location)
    (name : String) (parameters : List Parameter) (body : List Stmt) :
    veil.Keeps (defineFunction machine env location name parameters body) := by
  refine ((veiled.keeps_evaluateDefaults env parameters).traced location env).bind fun defaults => ?_
  have text : veil.Keeps (newStr name) :=
    veiled.keeps_of_obeys ((veiled.conduct veil).obeys_newStr name)
  refine text.bind fun text => Keeps.bind ?_ fun space => Keeps.bind ?_ fun function => ?_
  · exact veiled.keeps_of_obeys ((veiled.conduct veil).obeys_newSpace_set _ _)
  · refine keeps_alloc fun function definition closure defaults known code => ?_
    cases known
    cases code
    exact admits.closure
  · exact veiled.keeps_bindName env name function

theorem keeps_evaluateBase (env : Env) (name : String) (base : Option Expr) :
    veil.Keeps (evaluateBase machine env name base) := by
  cases base with
  | none => exact keeps_pure _
  | some expression =>
    refine (veiled.keeps_evaluate env expression).bind fun base => keeps_read fun isClass => ?_
    split
    · exact keeps_pure _
    · exact keeps_read fun kind => veiled.keeps_complain _

/-- The table of a class body is hidden once the body begins, and in its own body too. -/
theorem keeps_defineClass {env : Env} (admits : veil.Admits env) (name : String)
    (base : Option Ref) {body : Env → Exec Flow}
    (bodyKeeps : ∀ (inner : Veil) (scope : Env), inner.Admits scope → inner.Keeps (body scope)) :
    veil.Keeps (defineClass env name base body) := by
  refine keeps_newSpace fun count more => ?_
  have inside := bodyKeeps _ _ ((admits.later more).classBody name)
  refine (inside.bind fun _ => keeps_pure _).bind fun _ => Keeps.bind ?_ fun class_ => ?_
  · exact veiled.keeps_of_obeys ((veiled.conduct _).obeys_newClass name base _)
  · exact veiled.keeps_bindName env name class_

/-! ### Statements -/

theorem keeps_holds (env : Env) (location : Location) (condition : Expr) :
    veil.Keeps (holds machine env location condition) := by
  refine Keeps.traced ((veiled.keeps_evaluate env condition).bind fun value => ?_) location env
  exact veiled.keeps_of_obeys ((veiled.conduct veil).obeys_truthy value)

omit veiled in
theorem keeps_loop {round : Exec (Option Round)} {otherwise : Exec Flow}
    (roundKeeps : veil.Keeps round) (otherwiseKeeps : veil.Keeps otherwise) :
    veil.Keeps (loop machine round otherwise) := by
  refine keeps_repeatUntil (fun _ => roundKeeps.bind fun ended => ?_) _ _
  split
  · exact otherwiseKeeps.bind fun _ => keeps_pure _
  · exact keeps_pure _
  · exact keeps_pure _
  · exact keeps_pure _

theorem keeps_checkInterrupt : veil.Keeps checkInterrupt := by
  refine keeps_read fun requested => ?_
  have taken : veil.Keeps (change (·.takeInterrupt)) :=
    keeps_change (fun _ => rfl) fun _ => Nat.le_refl _
  refine taken.bind fun _ => ?_
  split
  · exact veiled.keeps_complain _
  · exact keeps_pure _

omit veiled in
theorem keeps_cleanUp (outcome : Except Failure Flow) {cleanup : Exec Flow}
    (cleanupKeeps : veil.Keeps cleanup) : veil.Keeps (cleanUp outcome cleanup) := by
  refine cleanupKeeps.settle.bind fun ended => ?_
  split
  · exact (keeps_linkFailures _ _).bind fun _ => keeps_throw _
  · exact keeps_throw _
  · exact keeps_release _
  · exact keeps_pure _

omit veiled in
mutual

theorem keeps_execute (veiled : machine.Veiled) {veil : Veil} {env : Env}
    (admits : veil.Admits env) : (statement : Stmt) →
    veil.Keeps (execute machine env statement)
  | .simple location action => by
    rw [execute]
    exact (veiled.keeps_runSimple env location action).traced location env
  | .choice _ branches otherwise => by
    rw [execute]
    exact veiled.keeps_executeBranches admits (veiled.keeps_executeElse admits otherwise) branches
  | .whileLoop location condition body otherwise => by
    rw [execute]
    refine keeps_loop ((veiled.keeps_holds env location condition).bind fun held => ?_)
      (veiled.keeps_executeElse admits otherwise)
    cases held with
    | false => exact keeps_pure _
    | true => exact (veiled.keeps_executeAll admits body).bind fun _ => keeps_pure _
  | .forLoop location target iterable body otherwise => by
    rw [execute]
    refine Keeps.bind ?_ fun iterator => keeps_loop (Keeps.bind ?_ fun element => ?_)
      (veiled.keeps_executeElse admits otherwise)
    · refine Keeps.traced ((veiled.keeps_evaluate env iterable).bind fun value => ?_) location env
      exact veiled.keeps_of_obeys ((veiled.conduct veil).obeys_iter value)
    · refine Keeps.traced ?_ location env
      exact veiled.keeps_of_obeys ((veiled.conduct veil).obeys_next? iterator)
    · cases element with
      | none => exact keeps_pure _
      | some element =>
        refine ((veiled.keeps_assign env element target).traced location env).bind fun _ => ?_
        exact (veiled.keeps_executeAll admits body).bind fun _ => keeps_pure _
  | .attempt _ body handlers otherwise cleanup => by
    -- However the first part ends, the cleanup comes after it.
    have finish (outcome : Except Failure Flow) : veil.Keeps (match cleanup with
        | none => release outcome
        | some block => cleanUp outcome (executeAll machine env block)) := by
      cases cleanup with
      | none => exact keeps_release outcome
      | some block => exact keeps_cleanUp outcome (veiled.keeps_executeAll admits block)
    rw [execute]
    refine (veiled.keeps_executeAll admits body).settle.bind fun ended => ?_
    cases ended with
    | ok flow =>
      cases flow with
      | done => exact (veiled.keeps_executeElse admits otherwise).settle.bind finish
      | _ => exact (keeps_pure _).bind finish
    | error failure =>
      cases failure with
      | raised id => exact (veiled.keeps_executeHandlers admits id handlers).settle.bind finish
      | _ => exact (keeps_pure _).bind finish
  | .functionDef location name parameters body => by
    rw [execute]
    exact (veiled.keeps_defineFunction admits location name parameters body).bind
      fun _ => keeps_pure _
  | .classDef location name base body => by
    rw [execute]
    refine ((veiled.keeps_evaluateBase env name base).traced location env).bind fun base => ?_
    exact (veiled.keeps_defineClass admits name base fun inner scope innerAdmits =>
      veiled.keeps_executeAll innerAdmits body).bind fun _ => keeps_pure _

theorem keeps_executeAll (veiled : machine.Veiled) {veil : Veil} {env : Env}
    (admits : veil.Admits env) : (statements : List Stmt) →
    veil.Keeps (executeAll machine env statements)
  | [] => by
    rw [executeAll]
    exact keeps_pure _
  | statement :: rest => by
    rw [executeAll]
    refine (veiled.keeps_checkInterrupt.traced _ env).bind fun _ => ?_
    refine (veiled.keeps_execute admits statement).bind fun flow => ?_
    split
    · exact veiled.keeps_executeAll admits rest
    · exact keeps_pure _

theorem keeps_executeElse (veiled : machine.Veiled) {veil : Veil} {env : Env} (admits : veil.Admits env) :
    (block : Option (List Stmt)) → veil.Keeps (executeElse machine env block)
  | none => by
    rw [executeElse]
    exact keeps_pure _
  | some block => by
    rw [executeElse]
    exact veiled.keeps_executeAll admits block

theorem keeps_executeBranches (veiled : machine.Veiled) {veil : Veil} {env : Env}
    (admits : veil.Admits env) {otherwise : Exec Flow}
    (otherwiseKeeps : veil.Keeps otherwise) : (branches : List Branch) →
    veil.Keeps (executeBranches machine env otherwise branches)
  | [] => by
    rw [executeBranches]
    exact otherwiseKeeps
  | .mk location condition body :: rest => by
    rw [executeBranches]
    refine (veiled.keeps_holds env location condition).bind fun held => ?_
    split
    · exact veiled.keeps_executeAll admits body
    · exact veiled.keeps_executeBranches admits otherwiseKeeps rest

theorem keeps_executeHandlers (veiled : machine.Veiled) {veil : Veil} {env : Env}
    (admits : veil.Admits env) (id : RaisedId) :
    (handlers : List Handler) → veil.Keeps (executeHandlers machine env id handlers)
  | [] => by
    rw [executeHandlers]
    exact keeps_throw _
  | .mk location class_ name body :: rest => by
    rw [executeHandlers]
    refine (veiled.keeps_handlerMatches env location class_ id).settle.bind fun ended => ?_
    split
    · exact (keeps_linkFailures _ _).bind fun _ => keeps_throw _
    · exact veiled.keeps_handleWith (veiled.keeps_executeAll admits body) env name id
    · exact veiled.keeps_executeHandlers admits id rest

end

/-! ### Calls -/

/-- The body of a function runs in a scope that the function was made to keep. -/
theorem keeps_runBody (name : String) (definition : Definition) {closure : Env}
    (closureShown : ∀ frame ∈ closure, veil.Shows veil.count frame)
    (defaults : List (String × Ref)) (arguments : List Ref) (named : List (String × Ref)) :
    veil.Keeps (runBody machine name definition closure defaults arguments named) := by
  unfold runBody
  split
  · exact veiled.keeps_complain _
  · simp only [enter, bind_assoc, pure_bind]
    refine keeps_newFrame fun count more le => ?_
    have admits : (veil.later (count + 1) more).Admits (⟨⟨count⟩, name, false⟩ :: closure) :=
      admits_call name (veil.not_hides le) (Nat.lt_succ_self count) fun frame inside =>
        ((closureShown frame inside).mono more).later more
    refine (veiled.run _ definition.body _ admits).bind fun flow => ?_
    split <;> exact keeps_pure _

theorem keeps_callWritten (name : String) (definition : Definition) {closure : Env}
    (closureShown : ∀ frame ∈ closure, veil.Shows veil.count frame)
    (defaults : List (String × Ref)) (arguments : List Ref) (named : List (String × Ref)) :
    veil.Keeps (callWritten machine name definition closure defaults arguments named) := by
  refine keeps_read fun depth => ?_
  split
  · exact veiled.keeps_complain _
  · have entered : veil.Keeps (change (·.enterCall)) :=
      keeps_change (fun _ => rfl) fun _ => Nat.le_refl _
    have noted : veil.Keeps (change (·.noteCall .entered)) :=
      keeps_change (fun _ => rfl) fun _ => Nat.le_refl _
    exact entered.bind fun _ => noted.bind fun _ =>
      (veiled.keeps_runBody name definition closureShown defaults arguments named).thenAlways
        (fun _ => rfl) fun _ => Nat.le_refl _

/-- What a function on the heap keeps is shown, so the function may be called. -/
theorem callWritten_spec (callee : Ref) (function : Function) (definition : Definition)
    (closure : Env) (defaults : List (String × Ref)) (arguments : List Ref)
    (named : List (String × Ref)) (code : function.code = .written definition closure defaults) :
    ⦃fun world => ⌜(veiled.conduct veil).holds world ∧
        (world.object callee).function = some function⌝⦄
      callWritten machine function.name definition closure defaults arguments named
    ⦃post⟨fun _ world => ⌜(veiled.conduct veil).holds world⌝,
      fun failure world => ⌜(veiled.conduct veil).allows failure world⌝⟩⦄ := by
  rintro world ⟨(covers : veil.Covers world), found⟩
  -- The frames of the scope may be newer than the veil.
  have shown := covers.closures callee function definition closure defaults found code
  let finer := veil.later world.spaces.size covers.made
  have called : finer.Keeps (callWritten machine function.name definition closure defaults
      arguments named) := by
    exact veiled.keeps_callWritten _ _ (fun frame inside => (shown frame inside).later _) _ _ _
  have kept := (called world (covers.later covers.made le_rfl)).of_later
  simp only [wp, PredTrans.apply, EStateM.run]
  generalize callWritten machine function.name definition closure defaults arguments named world =
    result at kept ⊢
  cases result <;> exact kept

end Machine.Veiled

/-! ### Runs -/

/-- No run lets a function see what is hidden, whatever fuel it is given. -/
theorem Machine.ofFuel_veiled (fuel : Nat) : (Machine.ofFuel fuel).Veiled := by
  induction fuel with
  | zero => exact ⟨fun _ _ _ _ => Veil.keeps_throw _, fun _ _ _ _ => Veil.keeps_throw _⟩
  | succ fuel inductionHypothesis =>
    refine ⟨fun veil callee arguments named => ?_, fun veil statements env admits => ?_⟩
    · exact inductionHypothesis.keeps_of_obeys ((inductionHypothesis.conduct veil).obeys_callStep
        inductionHypothesis.callWritten_spec callee arguments named)
    · exact inductionHypothesis.keeps_executeAll admits statements

theorem Machine.standard_veiled : Machine.standard.Veiled :=
  Machine.ofFuel_veiled fuelOfRun

end Offside
