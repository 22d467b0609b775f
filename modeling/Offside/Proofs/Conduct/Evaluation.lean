/-
This file shows that evaluating expressions and calling objects keep to every
conduct. Evaluation itself is a recursion on the expression, so this is an induction
on it; what it starts anew goes through the machine, whose calls keep to the conduct.

There is one way in which evaluation itself can break a rule of the interpreter: by
assigning to something that is no target. So the expression has to be sound, unless
the conduct does not mind.
-/

import Offside.Eval.Calling
import Offside.Eval.Import
import Offside.Proofs.Conduct.Library
import Offside.Proofs.Targets

open Std.Do

set_option mvcgen.warning false

namespace Offside

/-! ### Frames of calls -/

namespace Arguments

theorem fillPositional_eq (parameters : List Parameter) (positional : List Ref) :
    fillPositional parameters positional =
      Namespace.empty.setAll ((parameters.map (·.name)).zip positional) := by
  rw [fillPositional, Namespace.setAll, List.zip_map_left, List.foldl_map]
  rfl

theorem pending_fillPositional (parameters : List Parameter) (positional : List Ref) :
    (fillPositional parameters positional).pending = [] := by
  rw [fillPositional_eq]
  exact Namespace.pending_setAll rfl _

theorem pending_fillNamed (function : String) (parameters : List Parameter)
    (named : List (String × Ref)) {table filled : Namespace} (settled : table.pending = [])
    (done : fillNamed function parameters named table = .ok filled) : filled.pending = [] := by
  induction named generalizing table with
  | nil =>
    cases done
    exact settled
  | cons entry rest inductionHypothesis =>
    rw [fillNamed] at done
    split at done
    · cases done
    · split at done
      · cases done
      · exact inductionHypothesis (Namespace.pending_set_of_settled settled _ _) done

theorem pending_fillDefaults (defaults : List (String × Ref)) (parameters : List Parameter)
    {table : Namespace} (settled : table.pending = []) :
    (fillDefaults defaults parameters table).1.pending = [] := by
  induction parameters generalizing table with
  | nil => exact settled
  | cons parameter rest inductionHypothesis =>
    rw [fillDefaults]
    split
    · exact inductionHypothesis settled
    · split
      · exact inductionHypothesis (Namespace.pending_set_of_settled settled _ _)
      · exact inductionHypothesis settled

/-- No name is pending when a call begins. -/
theorem pending_bind {function : String} {parameters : List Parameter}
    {defaults : List (String × Ref)} {positional : List Ref} {named : List (String × Ref)}
    {table : Namespace} (bound : bind function parameters defaults positional named = .ok table) :
    table.pending = [] := by
  rw [bind] at bound
  split at bound
  · cases bound
  · cases filled : fillNamed function parameters (byName named)
        (fillPositional parameters positional) with
    | error complaint =>
      rw [filled] at bound
      cases bound
    | ok middle =>
      rw [filled] at bound
      have settled := pending_fillDefaults defaults parameters
        (pending_fillNamed function parameters _ (pending_fillPositional _ _) filled)
      dsimp only [Bind.bind, Except.bind] at bound
      split at bound
      · next all same =>
        cases bound
        rwa [same] at settled
      · cases bound

end Arguments

namespace Conduct

open Exec

variable {machine : Machine} (conduct : Conduct machine)

/-! ### Scopes -/

@[spec]
theorem obeys_lookupName (env : Env) (name : String) : conduct.Obeys (lookupName env name) := by
  mvcgen [lookupName]

theorem obeys_modifyFrame (env : Env) {step : Namespace → Namespace}
    (settled : ∀ table : Namespace, (step table).pending ⊆ table.pending) :
    conduct.Obeys (modifyFrame env step) := by
  cases env with
  | nil => exact fun _ holds => holds
  | cons frame rest => exact conduct.obeys_modifySpace frame.space settled

@[spec]
theorem obeys_modifyFrame_erase (env : Env) (name : String) :
    conduct.Obeys (modifyFrame env (·.erase name)) :=
  conduct.obeys_modifyFrame env fun table => by rw [Namespace.pending_erase]; exact .refl _

@[spec]
theorem obeys_bindName (env : Env) (name : String) (value : Ref) :
    conduct.Obeys (bindName env name value) :=
  conduct.obeys_modifyFrame env (pending_set name value)

@[spec]
theorem obeys_isBoundHere (env : Env) (name : String) : conduct.Obeys (isBoundHere env name) :=
  fun _ holds => holds

@[spec]
theorem obeys_unbindName (env : Env) (name : String) : conduct.Obeys (unbindName env name) := by
  mvcgen [unbindName]

theorem obeys_enter (env : Env) (label : String) (isClassBody : Bool) {table : Namespace}
    (settled : table.pending = []) : conduct.Obeys (enter env label isClassBody table) :=
  conduct.obeys_bind _ _ (conduct.obeys_newSpace settled) fun _ _ holds => holds

@[spec]
theorem obeys_enter_empty (env : Env) (label : String) (isClassBody : Bool) :
    conduct.Obeys (enter env label isClassBody .empty) :=
  conduct.obeys_enter env label isClassBody rfl

/-! ### Steps on values -/

@[spec]
theorem obeys_negate (operand : Ref) : conduct.Obeys (negate machine operand) := by
  mvcgen [negate]

@[spec]
theorem obeys_unaryOperation (operator : UnaryOperator) (operand : Ref) :
    conduct.Obeys (unaryOperation machine operator operand) := by
  mvcgen [unaryOperation]

@[spec]
theorem obeys_newSetOf (values : List Ref) : conduct.Obeys (newSetOf values) := by
  mvcgen [newSetOf]

@[spec]
theorem obeys_unpack (value : Ref) (count : Nat) : conduct.Obeys (unpack machine value count) := by
  mvcgen [unpack, isRaised_eq]
  rename_i allowed isRaised
  exact conduct.holds_of_isRaised allowed isRaised

@[spec]
theorem obeys_deleteAttribute (ref : Ref) (name : String) :
    conduct.Obeys (deleteAttribute ref name) := by
  mvcgen [deleteAttribute]

/-! ### Expressions -/

/-- The conduct does not mind that a rule of the interpreter is broken. -/
def Lenient : Prop :=
  ∀ (world : World) (location : Option Location) (reason : String),
    conduct.holds world → conduct.allows (.internal location reason) world

/-- What is not a target is never assigned to. -/
theorem obeys_assign_other {env : Env} {value : Ref} {target : Expr}
    (isTarget : conduct.Lenient ∨ target.isTarget) (other : target.untargetable? = some target)
    (assigns : assign machine env value target = unassignable target) :
    conduct.Obeys (assign machine env value target) := by
  rw [assigns]
  intro world holds
  obtain lenient | isTarget := isTarget
  · exact lenient world _ _ holds
  · rw [Expr.isTarget, other] at isTarget
    cases isTarget

mutual

theorem obeys_evaluate (env : Env) : (expression : Expr) →
    (sound : conduct.Lenient ∨ expression.Sound) →
    conduct.Obeys (evaluate machine env expression)
  | .integer _ value, _ => by mvcgen [evaluate]
  | .float _ value, _ => by mvcgen [evaluate]
  | .string _ value, _ => by mvcgen [evaluate]
  | .boolean _ value, _ => by mvcgen [evaluate]
  | .none _, _ => by mvcgen [evaluate]
  | .omitted _, _ => by mvcgen [evaluate]
  | .name _ name, _ => by mvcgen [evaluate]
  | .parenthesized _ inner, sound => by
    rw [evaluate]
    exact obeys_evaluate env inner sound
  | .tuple _ elements, sound => by
    have elementsObey := obeys_evaluateAll env elements sound
    mvcgen [evaluate, elementsObey]
  | .list _ elements, sound => by
    have elementsObey := obeys_evaluateAll env elements sound
    mvcgen [evaluate, elementsObey]
  | .set _ elements, sound => by
    have elementsObey := obeys_evaluateAll env elements sound
    mvcgen [evaluate, elementsObey]
  | .dict _ entries, sound => by
    have entriesObey := fun dict => obeys_evaluateEntries env dict entries sound
    mvcgen [evaluate, entriesObey]
  | .call _ callee positional named, sound => by
    have calleeObeys := obeys_evaluate env callee (sound.imp_right And.left)
    have positionalObey := obeys_evaluateAll env positional (sound.imp_right (·.2.1))
    have namedObey := obeys_evaluateNamed env [] named (sound.imp_right (·.2.2))
    mvcgen [evaluate, calleeObeys, positionalObey, namedObey]
  | .attribute _ object name, sound => by
    have objectObeys := obeys_evaluate env object sound
    mvcgen [evaluate, objectObeys]
  | .index _ object index, sound => by
    have objectObeys := obeys_evaluate env object (sound.imp_right And.left)
    have indexObeys := obeys_evaluate env index (sound.imp_right And.right)
    mvcgen [evaluate, objectObeys, indexObeys]
  | .slice _ object start stop step, sound => by
    have objectObeys := obeys_evaluate env object (sound.imp_right And.left)
    have startObeys := obeys_evaluate env start (sound.imp_right (·.2.1))
    have stopObeys := obeys_evaluate env stop (sound.imp_right (·.2.2.1))
    have stepObeys := obeys_evaluate env step (sound.imp_right (·.2.2.2))
    mvcgen [evaluate, objectObeys, startObeys, stopObeys, stepObeys]
  | .unary _ operator operand, sound => by
    have operandObeys := obeys_evaluate env operand sound
    mvcgen [evaluate, operandObeys]
  | .binary _ operator left right, sound => by
    have leftObeys := obeys_evaluate env left (sound.imp_right And.left)
    have rightObeys := obeys_evaluate env right (sound.imp_right And.right)
    mvcgen [evaluate, leftObeys, rightObeys]
    exact fun _ _ => by simpa using ‹¬ isShortCircuit operator›
  | .comprehension _ output target source filter, sound => by
    have outputObeys := fun scope => obeys_evaluate scope output (sound.imp_right And.left)
    have targetObeys := fun scope value =>
      obeys_assign scope value target (sound.imp_right fun sound => ⟨sound.2.1, sound.2.2.1⟩)
    have sourceObeys := obeys_evaluate env source (sound.imp_right (·.2.2.2.1))
    have filterObeys := fun scope => obeys_filter scope filter (sound.imp_right (·.2.2.2.2))
    rw [evaluate]
    refine conduct.obeys_bind _ _ sourceObeys fun iterable => ?_
    refine conduct.obeys_bind _ _ (conduct.obeys_iter iterable) fun iterator => ?_
    refine conduct.obeys_bind _ _ (conduct.obeys_enter_empty _ _ _) fun scope => ?_
    refine conduct.obeys_bind _ _ ?_ fun elements => conduct.obeys_newListIn _
    refine conduct.obeys_repeatUntil _ _ _ fun found => ?_
    cases filter with
    | none => mvcgen [targetObeys, outputObeys]
    | some condition =>
      have conditionObeys := fun scope => filterObeys scope condition rfl
      mvcgen [targetObeys, conditionObeys, outputObeys]

/-- The condition of a comprehension, if there is one. -/
theorem obeys_filter (scope : Env) : (filter : Option Expr) →
    (sound : conduct.Lenient ∨ Expr.SoundFilter filter) →
    ∀ condition, filter = some condition → conduct.Obeys (evaluate machine scope condition)
  | none, _ => by
    rintro _ ⟨⟩
  | some condition, sound => by
    rintro _ ⟨⟩
    exact obeys_evaluate scope condition sound

theorem obeys_evaluateAll (env : Env) : (expressions : List Expr) →
    (sound : conduct.Lenient ∨ Expr.SoundAll expressions) →
    conduct.Obeys (evaluateAll machine env expressions)
  | [], _ => by mvcgen [evaluateAll]
  | expression :: rest, sound => by
    have firstObeys := obeys_evaluate env expression (sound.imp_right And.left)
    have restObey := obeys_evaluateAll env rest (sound.imp_right And.right)
    mvcgen [evaluateAll, firstObeys, restObey]

theorem obeys_evaluateEntries (env : Env) (dict : Ref) : (entries : List (Expr × Expr)) →
    (sound : conduct.Lenient ∨ Expr.SoundEntries entries) →
    conduct.Obeys (evaluateEntries machine env dict entries)
  | [], _ => by mvcgen [evaluateEntries]
  | (key, value) :: rest, sound => by
    have keyObeys := obeys_evaluate env key (sound.imp_right And.left)
    have valueObeys := obeys_evaluate env value (sound.imp_right (·.2.1))
    have restObey := obeys_evaluateEntries env dict rest (sound.imp_right (·.2.2))
    mvcgen [evaluateEntries, keyObeys, valueObeys, restObey]

theorem obeys_evaluateNamed (env : Env) (found : List (String × Ref)) :
    (named : List (String × Expr)) → (sound : conduct.Lenient ∨ Expr.SoundNamed named) →
    conduct.Obeys (evaluateNamed machine env found named)
  | [], _ => by mvcgen [evaluateNamed]
  | (name, expression) :: rest, sound => by
    have firstObeys := obeys_evaluate env expression (sound.imp_right And.left)
    have restObey := fun value =>
      obeys_evaluateNamed env (found ++ [(name, value)]) rest (sound.imp_right And.right)
    mvcgen [evaluateNamed, firstObeys, restObey]

theorem obeys_assign (env : Env) (value : Ref) : (target : Expr) →
    (sound : conduct.Lenient ∨ (target.Sound ∧ target.isTarget)) →
    conduct.Obeys (assign machine env value target)
  | .name _ name, _ => by mvcgen [assign]
  | .parenthesized _ inner, sound => by
    rw [assign]
    exact obeys_assign env value inner (by rwa [Expr.isTarget_parenthesized] at sound)
  | .attribute _ object name, sound => by
    have objectObeys := obeys_evaluate env object (sound.imp_right And.left)
    mvcgen [assign, objectObeys]
  | .index _ object index, sound => by
    have objectObeys := obeys_evaluate env object (sound.imp_right (·.1.1))
    have indexObeys := obeys_evaluate env index (sound.imp_right (·.1.2))
    mvcgen [assign, objectObeys, indexObeys]
  | .slice _ object start stop step, sound => by
    have objectObeys := obeys_evaluate env object (sound.imp_right (·.1.1))
    have startObeys := obeys_evaluate env start (sound.imp_right (·.1.2.1))
    have stopObeys := obeys_evaluate env stop (sound.imp_right (·.1.2.2.1))
    have stepObeys := obeys_evaluate env step (sound.imp_right (·.1.2.2.2))
    mvcgen [assign, objectObeys, startObeys, stopObeys, stepObeys]
  | .tuple _ elements, sound => by
    rw [Expr.isTarget_tuple] at sound
    have elementsObey := fun values => obeys_assignEach env values elements sound
    mvcgen [assign, elementsObey]
  | .list _ elements, sound => by
    rw [Expr.isTarget_list] at sound
    have elementsObey := fun values => obeys_assignEach env values elements sound
    mvcgen [assign, elementsObey]
  | .integer _ _, sound | .float _ _, sound | .string _ _, sound | .boolean _ _, sound
  | .none _, sound | .omitted _, sound | .set _ _, sound | .dict _ _, sound
  | .call _ _ _ _, sound | .binary _ _ _ _, sound | .unary _ _ _, sound
  | .comprehension _ _ _ _ _, sound =>
    conduct.obeys_assign_other (sound.imp_right And.right) (by simp [Expr.untargetable?])
      (by simp [assign])

theorem obeys_assignEach (env : Env) : (values : List Ref) → (targets : List Expr) →
    (sound : conduct.Lenient ∨
      (Expr.SoundAll targets ∧ ∀ target ∈ targets, target.isTarget)) →
    conduct.Obeys (assignEach machine env values targets)
  | value :: values, target :: targets, sound => by
    have firstObeys := obeys_assign env value target
      (sound.imp_right fun sound => ⟨sound.1.1, sound.2 target List.mem_cons_self⟩)
    have restObey := obeys_assignEach env values targets
      (sound.imp_right fun sound => ⟨sound.1.2, (List.forall_mem_cons.mp sound.2).2⟩)
    mvcgen [assignEach, firstObeys, restObey]
  | [], targets, _ => by mvcgen [assignEach]
  | _ :: _, [], _ => by mvcgen [assignEach]

end

/-! ### Deleting -/

/-- What is not a target is never deleted. -/
theorem obeys_delete_other {env : Env} {target : Expr} {reason : String}
    (isTarget : conduct.Lenient ∨ target.isTarget) (other : target.untargetable? = some target)
    (deletes : delete machine env target = throw (.internal (some target.location) reason)) :
    conduct.Obeys (delete machine env target) := by
  rw [deletes]
  intro world holds
  obtain lenient | isTarget := isTarget
  · exact lenient world _ _ holds
  · rw [Expr.isTarget, other] at isTarget
    cases isTarget

mutual

theorem obeys_delete (env : Env) : (target : Expr) →
    (sound : conduct.Lenient ∨ (target.Sound ∧ target.isTarget)) →
    conduct.Obeys (delete machine env target)
  | .name _ name, _ => by mvcgen [delete]
  | .parenthesized _ inner, sound => by
    rw [delete]
    exact obeys_delete env inner (by rwa [Expr.isTarget_parenthesized] at sound)
  | .attribute _ object name, sound => by
    have objectObeys := conduct.obeys_evaluate env object (sound.imp_right And.left)
    mvcgen [delete, objectObeys]
  | .index _ object index, sound => by
    have objectObeys := conduct.obeys_evaluate env object (sound.imp_right (·.1.1))
    have indexObeys := conduct.obeys_evaluate env index (sound.imp_right (·.1.2))
    mvcgen [delete, objectObeys, indexObeys]
  | .slice _ object start stop step, sound => by
    have objectObeys := conduct.obeys_evaluate env object (sound.imp_right (·.1.1))
    have startObeys := conduct.obeys_evaluate env start (sound.imp_right (·.1.2.1))
    have stopObeys := conduct.obeys_evaluate env stop (sound.imp_right (·.1.2.2.1))
    have stepObeys := conduct.obeys_evaluate env step (sound.imp_right (·.1.2.2.2))
    mvcgen [delete, objectObeys, startObeys, stopObeys, stepObeys]
  | .tuple _ elements, sound => by
    rw [Expr.isTarget_tuple] at sound
    rw [delete]
    exact obeys_deleteEach env elements sound
  | .list _ elements, sound => by
    rw [Expr.isTarget_list] at sound
    rw [delete]
    exact obeys_deleteEach env elements sound
  | .integer _ _, sound | .float _ _, sound | .string _ _, sound | .boolean _ _, sound
  | .none _, sound | .omitted _, sound | .set _ _, sound | .dict _ _, sound
  | .call _ _ _ _, sound | .binary _ _ _ _, sound | .unary _ _ _, sound
  | .comprehension _ _ _ _ _, sound =>
    conduct.obeys_delete_other (sound.imp_right And.right) (by simp [Expr.untargetable?])
      (by simp [delete]; rfl)

theorem obeys_deleteEach (env : Env) : (targets : List Expr) →
    (sound : conduct.Lenient ∨
      (Expr.SoundAll targets ∧ ∀ target ∈ targets, target.isTarget)) →
    conduct.Obeys (deleteEach machine env targets)
  | target :: targets, sound => by
    have firstObeys := obeys_delete env target
      (sound.imp_right fun sound => ⟨sound.1.1, sound.2 target List.mem_cons_self⟩)
    have restObey := obeys_deleteEach env targets
      (sound.imp_right fun sound => ⟨sound.1.2, (List.forall_mem_cons.mp sound.2).2⟩)
    mvcgen [deleteEach, firstObeys, restObey]
  | [], _ => by mvcgen [deleteEach]

end

/-! ### Raising and catching -/

@[spec]
theorem obeys_exceptionOf (value : Ref) : conduct.Obeys (exceptionOf machine value) := by
  mvcgen [exceptionOf]

@[spec]
theorem obeys_catches (exception : Ref) (classes : List Ref) :
    conduct.Obeys (catches exception classes) := by
  induction classes with
  | nil => mvcgen [catches]
  | cons class_ rest inductionHypothesis => mvcgen [catches, inductionHypothesis]

@[spec]
theorem obeys_bindHandled (env : Env) (name : Option String) (id : RaisedId) :
    conduct.Obeys (bindHandled env name id) := by
  mvcgen [bindHandled]

@[spec]
theorem obeys_unbindHandled (env : Env) (name : Option String) :
    conduct.Obeys (unbindHandled env name) := by
  mvcgen [unbindHandled]

@[spec]
theorem obeys_handlerClasses (class_ : Ref) : conduct.Obeys (handlerClasses class_) :=
  fun _ holds => holds

/-! ### Calling -/

@[spec]
theorem obeys_inheritedConverter? (class_ : Ref) : conduct.Obeys (inheritedConverter? class_) :=
  fun _ holds => holds

@[spec]
theorem obeys_carryPayload (instance_ : Ref) (builtin : BuiltinClass) (arguments : List Ref)
    (named : List (String × Ref)) :
    conduct.Obeys (carryPayload machine instance_ builtin arguments named) := by
  mvcgen [carryPayload]

@[spec]
theorem obeys_runInitializer (initializer : World.Found) (arguments : List Ref)
    (named : List (String × Ref)) :
    conduct.Obeys (runInitializer machine initializer arguments named) := by
  mvcgen [runInitializer]

@[spec]
theorem obeys_construct (class_ : Ref) (arguments : List Ref) (named : List (String × Ref)) :
    conduct.Obeys (construct machine class_ arguments named) := by
  mvcgen [construct]

theorem obeys_checkAllPresent (refs : List Ref) : conduct.Obeys (refs.forM checkPresent) :=
  conduct.obeys_forM _ _ conduct.obeys_checkPresent

@[spec]
theorem obeys_instantiate (class_ : Ref) (arguments : List Ref) (named : List (String × Ref)) :
    conduct.Obeys (instantiate machine class_ arguments named) := by
  mvcgen [instantiate, obeys_checkAllPresent]

@[spec]
theorem obeys_callObject (callee : Ref) (arguments : List Ref) (named : List (String × Ref)) :
    conduct.Obeys (callObject machine callee arguments named) := by
  mvcgen [callObject]

/-- The body of a function runs in a new frame. -/
theorem obeys_runBody (name : String) {definition : Definition} (closure : Env)
    (defaults : List (String × Ref)) (arguments : List Ref) (named : List (String × Ref))
    (bodyObeys : ∀ env, conduct.Obeys (machine.run definition.body env)) :
    conduct.Obeys (runBody machine name definition closure defaults arguments named) := by
  unfold runBody
  cases bound : Arguments.bind name definition.parameters defaults arguments named with
  | error complaint => exact conduct.obeys_complain complaint
  | ok table =>
    refine conduct.obeys_bind _ _
      (conduct.obeys_enter _ _ _ (Arguments.pending_bind bound)) fun env => ?_
    mvcgen [bodyObeys]

/-- Calling an object keeps to a conduct if calling the functions written in the language does. -/
theorem obeys_callStep
    (written : ∀ (callee : Ref) (function : Function) (definition : Definition) (closure : Env)
      (defaults : List (String × Ref)) (arguments : List Ref) (named : List (String × Ref)),
      function.code = .written definition closure defaults →
      ⦃fun world => ⌜conduct.holds world ∧ (world.object callee).function = some function⌝⦄
        callWritten machine function.name definition closure defaults arguments named
      ⦃post⟨fun _ world => ⌜conduct.holds world⌝,
        fun failure world => ⌜conduct.allows failure world⌝⟩⦄)
    (callee : Ref) (arguments : List Ref) (named : List (String × Ref)) :
    conduct.Obeys (callStep machine callee arguments named) := by
  mvcgen [callStep, callFunction, obeys_checkAllPresent, written]

/-! ### Binding modules -/

@[spec]
theorem obeys_newPackage (path : List String) : conduct.Obeys (newPackage path) :=
  Rule.obeys_iff_leads.mpr ((conduct.leads_newSpace rfl).bind fun space =>
    conduct.leads_newModule _ space)

@[spec]
theorem obeys_childModule (parent : Ref) (path : List String) (name : String) :
    conduct.Obeys (childModule parent path name) := by
  mvcgen [childModule]

@[spec]
theorem obeys_graft (parent : Ref) (walked : List String) (module_ : Ref) (path : List String) :
    conduct.Obeys (graft parent walked module_ path) := by
  induction path generalizing parent walked with
  | nil => mvcgen [graft]
  | cons name rest inductionHypothesis =>
    cases rest with
    | nil => mvcgen [graft]
    | cons => mvcgen [graft, inductionHypothesis]

@[spec]
theorem obeys_rootModule (env : Env) (name : String) :
    conduct.Obeys (rootModule env name) := by
  mvcgen [rootModule]

@[spec]
theorem obeys_bindModule (env : Env) (path : List String) (newName : Option String)
    (module_ : Ref) : conduct.Obeys (bindModule env path newName module_) := by
  mvcgen [bindModule]

@[spec]
theorem obeys_bindNames (env : Env) (path : List String) (module_ : Ref) (names : List String) :
    conduct.Obeys (bindNames env path module_ names) := by
  induction names with
  | nil => mvcgen [bindNames]
  | cons name rest inductionHypothesis => mvcgen [bindNames, inductionHypothesis]

@[spec]
theorem obeys_bindPublic (env : Env) (module_ : Ref) :
    conduct.Obeys (bindPublic env module_) := by
  refine conduct.obeys_bind _ _ (fun _ holds => holds) fun table => ?_
  refine conduct.obeys_forM _ _ fun entry => ?_
  mvcgen

@[spec]
theorem obeys_newModuleSpace (name file : String) :
    conduct.Obeys (newModuleSpace name file) := by
  mvcgen [newModuleSpace]

/-- A module is made with a table that was made for it. -/
@[spec]
theorem obeys_newFileModule (name file : String) : conduct.Obeys (newFileModule name file) := by
  have text (value : String) := Rule.obeys_iff_leads.mp (conduct.obeys_newStr value)
  have made : conduct.Leads conduct.holds (newModuleSpace name file) fun space world =>
      conduct.holds world ∧ space.index < world.spaces.size :=
    (text name).bind fun _ => (text file).bind fun _ =>
      conduct.leads_newSpace (Namespace.pending_setAll rfl _)
  exact Rule.obeys_iff_leads.mpr (made.bind fun space =>
    (conduct.leads_newModule name space).bind fun _ _ holds => holds)

@[spec]
theorem obeys_directoryOf (location : Location) : conduct.Obeys (directoryOf location) :=
  fun _ holds => holds

end Conduct

end Offside
