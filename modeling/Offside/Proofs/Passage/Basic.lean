/-
This file says what it takes to follow a run through everything that is not quiet:
exceptions that are recorded and linked, handlers, calls and new code. A passage is a
relation between the world before a step and the world after it, with what holds in
between and with what is known of an exception that ends a step.

Of an exception more is known once it has left a statement than while it is on its way
inside of one, because a statement records itself in every exception that leaves it. So
there are two levels, and recording a statement leads from the one to the other. Both
only look at the exceptions of the world, which is why restoring what a call or a
handler changed does them no harm.

It does not matter how a step ends: what it leads to is known after a failure as well,
since the failure may be caught.
-/

import Offside.Eval.Interpreter
import Offside.Proofs.Watch

open Std.Do

set_option mvcgen.warning false

namespace Offside

/-! ### Exceptions that end a step -/

/-- Something is known of the failure if it is an exception. -/
def Failure.Meets (level : RaisedId → Array Raised → Prop) (failure : Failure)
    (exceptions : Array Raised) : Prop :=
  match failure with
  | .raised id => level id exceptions
  | _ => True

/-- A failure that ends the run at once is no exception. -/
theorem Failure.meets_of_isFatal {failure : Failure} (fatal : failure.isFatal)
    (level : RaisedId → Array Raised → Prop) (exceptions : Array Raised) :
    failure.Meets level exceptions := by
  cases failure with
  | raised => cases fatal
  | _ => trivial

theorem Failure.Meets.mono {weak strong : RaisedId → Array Raised → Prop} {failure : Failure}
    {before after : Array Raised} (meets : failure.Meets strong before)
    (implies : ∀ id, strong id before → weak id after) : failure.Meets weak after := by
  cases failure with
  | raised id => exact implies id meets
  | _ => trivial

/-- A statement that an exception passed through is put before the others. -/
def World.record (world : World) (id : RaisedId) (frame : TraceFrame) : World :=
  { world with raised := world.raised.modify id.index fun raised =>
      { raised with trace := frame :: raised.trace } }

/-- Every file that can be read has a text that is given. -/
def Files.Given (given : String → String → Prop) (files : Files) : Prop :=
  ∀ path text : String, files.read path = .ok text → given path text

/-! ### Passages -/

structure Passage where
  /-- What holds before and after each step. -/
  fine : World → Prop
  /-- The world after a step, however it ended, is one that the world before it leads to. -/
  leads : World → World → Prop
  /-- What is known of an exception on its way inside of a statement. -/
  raised : RaisedId → Array Raised → Prop
  /-- What is known of an exception that has left a statement. -/
  recorded : RaisedId → Array Raised → Prop
  /-- Lines that are recorded. -/
  placed : Location → Prop
  /-- Texts that are read, with the names of their files. -/
  given : String → String → Prop
  refl : ∀ {world : World}, fine world → leads world world
  trans : ∀ {before middle after : World}, leads before middle → leads middle after →
    leads before after
  fine_of_leads : ∀ {before after : World}, leads before after → fine after
  raised_of_leads : ∀ {before after : World} {id : RaisedId}, leads before after →
    raised id before.raised → raised id after.raised
  recorded_of_leads : ∀ {before after : World} {id : RaisedId}, leads before after →
    recorded id before.raised → recorded id after.raised
  raised_of_recorded : ∀ {id : RaisedId} {exceptions : Array Raised}, recorded id exceptions →
    raised id exceptions
  quiet : ∀ {before after : World}, fine before → before.Quiet after → leads before after
  /-- A new exception is on its way. -/
  made : ∀ {world : World} (value : Ref), fine world →
    raised ⟨world.raised.size⟩ (world.raised.push ⟨value, [], none⟩)
  recording : ∀ {world : World} {id : RaisedId} (frame : TraceFrame), fine world →
    raised id world.raised → placed frame.location →
    leads world (world.record id frame) ∧ recorded id (world.record id frame).raised
  linking : ∀ {world : World} {id below : RaisedId}, fine world → raised id world.raised →
    recorded below world.raised → leads world (world.link id below)
  /-- What is being handled had left a statement when it was caught. -/
  handling : ∀ {world : World} {id : RaisedId}, fine world → world.handling = some id →
    recorded id world.raised
  handler : ∀ {world : World} {id : RaisedId}, fine world → recorded id world.raised →
    fine { world with handling := some id }
  handled : ∀ {world after : World} {id : RaisedId}, fine world →
    leads { world with handling := some id } after →
    leads world { after with handling := world.handling }
  call : ∀ {world : World}, fine world → world.callDepth < Exec.maxCallDepth →
    fine (world.enterCall.noteCall .entered)
  called : ∀ {world after : World}, fine world → world.callDepth < Exec.maxCallDepth →
    leads (world.enterCall.noteCall .entered) after →
    leads world (after.leaveCall.noteCall .left)
  /-- Functions on the heap come from statements that record lines as they should. -/
  code : ∀ {world : World}, fine world →
    world.Defines fun definition => Stmt.EverywhereAll (Stmt.Stands placed) definition.body
  defining : ∀ {world : World} (object : Object), fine world →
    object.class_ = BuiltinClass.function.ref →
    (∀ (function : Function) (definition : Definition) (closure : Env)
      (defaults : List (String × Ref)), object.function = some function →
      function.code = .written definition closure defaults →
      Stmt.EverywhereAll (Stmt.Stands placed) definition.body) →
    leads world { world with objects := world.objects.push object }
  /-- And so do texts. -/
  parsed : ∀ {file text : String} {program : List Stmt}, given file text →
    Program.parse file text = .ok program → Stmt.EverywhereAll (Stmt.Stands placed) program
  files : ∀ {world : World}, fine world → world.host.files.Given given
  loading : ∀ {world : World} {file text : String}, fine world → given file text →
    leads world (world.rememberSource file text)

namespace Passage

open Exec

variable {passage : Passage}

/-- A step that began in a world ended in one that it leads to, and something is known of the
exception that ended it. -/
inductive Ends {α : Type} (passage : Passage) (level : RaisedId → Array Raised → Prop)
    (before : World) : EStateM.Result Failure World α → Prop
  | ok {value : α} {after : World} : passage.leads before after →
    Ends passage level before (.ok value after)
  | error {failure : Failure} {after : World} : passage.leads before after →
    failure.Meets level after.raised → Ends passage level before (.error failure after)

/-- What is known of how a step ended, once it has been settled. -/
def Settled {α : Type} (level : RaisedId → Array Raised → Prop) (exceptions : Array Raised) :
    Except Failure α → Prop
  | .ok _ => True
  | .error failure => failure.Meets level exceptions

variable {α β : Type} {level other : RaisedId → Array Raised → Prop} {world : World}

/-! ### How steps end -/

theorem Ends.of_ok {step : Exec α} (ended : passage.Ends level world (step world)) {value : α}
    {after : World} (done : step world = .ok value after) : passage.leads world after := by
  rw [done] at ended
  cases ended with
  | ok led => exact led

theorem Ends.of_error {step : Exec α} (ended : passage.Ends level world (step world))
    {failure : Failure} {after : World} (failed : step world = .error failure after) :
    passage.leads world after ∧ failure.Meets level after.raised := by
  rw [failed] at ended
  cases ended with
  | error led meets => exact ⟨led, meets⟩

theorem Ends.after {middle : World} {result : EStateM.Result Failure World α}
    (led : passage.leads world middle) (ended : passage.Ends level middle result) :
    passage.Ends level world result := by
  cases ended with
  | ok last => exact .ok (passage.trans led last)
  | error last meets => exact .error (passage.trans led last) meets

theorem Ends.mono {result : EStateM.Result Failure World α}
    (ended : passage.Ends other world result)
    (implies : ∀ id exceptions, other id exceptions → level id exceptions) :
    passage.Ends level world result := by
  cases ended with
  | ok led => exact .ok led
  | error led meets => exact .error led (meets.mono fun id => implies id _)

/-- What has left a statement may be on its way inside of another one. -/
theorem Ends.inside {result : EStateM.Result Failure World α}
    (ended : passage.Ends passage.recorded world result) :
    passage.Ends passage.raised world result :=
  ended.mono fun _ _ => passage.raised_of_recorded

theorem Ends.leftBy {result : EStateM.Result Failure World α}
    (ended : passage.Ends level world result) : passage.leads world (World.leftBy result) := by
  cases ended with
  | ok led => exact led
  | error led => exact led

theorem ends_pure (fine : passage.fine world) (value : α) :
    passage.Ends level world ((pure value : Exec α) world) :=
  .ok (passage.refl fine)

theorem ends_throw (fine : passage.fine world) {failure : Failure}
    (meets : failure.Meets level world.raised) :
    passage.Ends level world ((throw failure : Exec α) world) :=
  .error (passage.refl fine) meets

theorem ends_bind {step : Exec α} {next : α → Exec β}
    (ended : passage.Ends level world (step world))
    (rest : ∀ value after, passage.leads world after →
      passage.Ends level after (next value after)) :
    passage.Ends level world ((step >>= next) world) := by
  cases done : step world with
  | ok value after =>
    have led := ended.of_ok done
    rw [bind_of_ok done]
    exact (rest value after led).after led
  | error failure after =>
    obtain ⟨led, meets⟩ := ended.of_error done
    rw [bind_of_error done]
    exact .error led meets

/-- A step that looks at the world and then goes on. -/
theorem ends_read {view : World → α} {next : α → Exec β}
    (rest : ∀ value, view world = value → passage.Ends level world (next value world)) :
    passage.Ends level world ((read view >>= next) world) :=
  rest (view world) rfl

theorem ends_change {step : World → World} {next : Unit → Exec β}
    (led : passage.leads world (step world))
    (rest : passage.Ends level (step world) (next () (step world))) :
    passage.Ends level world ((change step >>= next) world) :=
  rest.after led

theorem ends_tryCatch {step : Exec α} {handler : Failure → Exec α}
    (ended : passage.Ends other world (step world))
    (rest : ∀ failure after, passage.leads world after → failure.Meets other after.raised →
      passage.Ends level after (handler failure after)) :
    passage.Ends level world ((tryCatch step handler : Exec α) world) := by
  cases done : step world with
  | ok value after =>
    rw [tryCatch_ok done]
    exact .ok (ended.of_ok done)
  | error failure after =>
    obtain ⟨led, meets⟩ := ended.of_error done
    rw [tryCatch_error done]
    exact (rest failure after led meets).after led

/-- A statement records itself in an exception that leaves it. -/
theorem ends_traced {step : Exec α} {location : Location} (placed : passage.placed location)
    (env : Env) (ended : passage.Ends passage.raised world (step world)) :
    passage.Ends passage.recorded world (traced location env step world) := by
  refine ends_tryCatch ended fun failure after led meets => ?_
  have fine := passage.fine_of_leads led
  cases failure with
  | raised id =>
    obtain ⟨led, recorded⟩ := passage.recording ⟨location, env.label⟩ fine meets placed
    exact ends_change led (ends_throw (passage.fine_of_leads led) recorded)
  | _ => exact ends_throw fine trivial

theorem ends_settle {step : Exec α} {next : Except Failure α → Exec β}
    (ended : passage.Ends other world (step world))
    (rest : ∀ outcome after, passage.leads world after → Settled other after.raised outcome →
      passage.Ends level after (next outcome after)) :
    passage.Ends level world ((settle step >>= next) world) := by
  cases done : step world with
  | ok value after =>
    have led := ended.of_ok done
    rw [bind_of_ok (settle_ok done)]
    exact (rest (.ok value) after led True.intro).after led
  | error failure after =>
    obtain ⟨led, meets⟩ := ended.of_error done
    have settled := settle_error done
    split at settled
    next fatal =>
      rw [bind_of_error settled]
      exact .error led (Failure.meets_of_isFatal fatal _ _)
    next =>
      rw [bind_of_ok settled]
      exact (rest (.error failure) after led meets).after led

theorem ends_release {outcome : Except Failure α} (fine : passage.fine world)
    (settled : Settled level world.raised outcome) :
    passage.Ends level world (release outcome world) := by
  cases outcome with
  | ok value => exact ends_pure fine value
  | error failure => exact ends_throw fine settled

/-- An exception that was just made, and then a step that may rely on it. -/
theorem ends_newRaised (fine : passage.fine world) (value : Ref) {next : RaisedId → Exec β}
    (rest : ∀ id after, passage.leads world after → passage.raised id after.raised →
      passage.Ends level after (next id after)) :
    passage.Ends level world ((newRaised value >>= next) world) := by
  have led := passage.quiet fine (.raise world value)
  exact (rest _ _ led (passage.made value fine)).after led

/-- What is known of a recorded failure stays known. -/
theorem meets_of_leads {failure : Failure} {after : World} (led : passage.leads world after)
    (meets : failure.Meets passage.recorded world.raised) :
    failure.Meets passage.recorded after.raised :=
  meets.mono fun _ => passage.recorded_of_leads led

theorem settled_of_leads {outcome : Except Failure α} {after : World}
    (led : passage.leads world after) (settled : Settled passage.recorded world.raised outcome) :
    Settled passage.recorded after.raised outcome := by
  cases outcome with
  | ok => trivial
  | error => exact meets_of_leads led settled

/-- A failure is linked to another one, and then a step comes that may rely on both. -/
theorem ends_linkFailures {failure inflight : Failure} {next : Unit → Exec β}
    (fine : passage.fine world) (meets : failure.Meets passage.recorded world.raised)
    (below : inflight.Meets passage.recorded world.raised)
    (rest : ∀ after, passage.leads world after → passage.Ends level after (next () after)) :
    passage.Ends level world ((linkFailures failure inflight >>= next) world) := by
  unfold linkFailures
  split
  next id found =>
    have led := passage.linking fine (passage.raised_of_recorded meets) below
    exact ends_change led (rest _ led)
  · exact rest world (passage.refl fine)

theorem ends_forM {step : β → Exec PUnit} {elements : List β} (fine : passage.fine world)
    (ended : ∀ element ∈ elements, ∀ middle, passage.fine middle →
      passage.Ends level middle (step element middle)) :
    passage.Ends level world (elements.forM step world) := by
  induction elements generalizing world with
  | nil => exact ends_pure fine _
  | cons element rest inductionHypothesis =>
    rw [List.forall_mem_cons] at ended
    exact ends_bind (ended.1 world fine) fun _ _ led =>
      inductionHypothesis (passage.fine_of_leads led) ended.2

theorem ends_repeatUntil {σ : Type} {round : σ → Exec (Except σ α)} (budget : Nat) (state : σ)
    {origin : World} (led : passage.leads origin world)
    (ended : ∀ state middle, passage.leads origin middle →
      passage.Ends level middle (round state middle)) :
    passage.Ends level world (repeatUntil round budget state world) := by
  induction budget generalizing state world with
  | zero => exact ends_throw (passage.fine_of_leads led) trivial
  | succ budget inductionHypothesis =>
    refine ends_bind (ended state world led) fun outcome after next => ?_
    cases outcome with
    | ok result => exact ends_pure (passage.fine_of_leads next) result
    | error state => exact inductionHypothesis state (passage.trans led next)

/-- The rounds of a loop may rely on what led to its beginning, and so may the block that runs when
there are no more rounds. -/
theorem ends_loop {machine : Machine} {round : Exec (Option Round)} {otherwise : Exec Flow}
    (fine : passage.fine world)
    (ended : ∀ middle, passage.leads world middle → passage.Ends level middle (round middle))
    (otherwiseEnded : ∀ middle, passage.leads world middle →
      passage.Ends level middle (otherwise middle)) :
    passage.Ends level world (loop machine round otherwise world) := by
  refine ends_repeatUntil _ _ (passage.refl fine) fun _ middle led => ?_
  refine ends_bind (ended middle led) fun found after next => ?_
  have finePassed := passage.fine_of_leads next
  split
  · refine ends_bind (otherwiseEnded after (passage.trans led next)) fun flow last done => ?_
    exact ends_pure (passage.fine_of_leads done) _
  · exact ends_pure finePassed _
  · exact ends_pure finePassed _
  · exact ends_pure finePassed _

end Passage

/-! ### Machines -/

/-- The calls and runs of a machine keep to a passage. An exception that ends a run has left a
statement. -/
structure Machine.Keeps (machine : Machine) (passage : Passage) : Prop where
  call : ∀ (callee : Ref) (arguments : List Ref) (named : List (String × Ref)) {world : World},
    passage.fine world →
    passage.Ends passage.raised world (machine.call callee arguments named world)
  run : ∀ {statements : List Stmt} (env : Env) {world : World}, passage.fine world →
    Stmt.EverywhereAll (Stmt.Stands passage.placed) statements →
    passage.Ends passage.recorded world (machine.run statements env world)

namespace Passage

/-- What is led to from some world, as a rule for the steps inside of a statement. -/
def inside (passage : Passage) (origin : World) : Rule where
  holds := passage.leads origin
  allows failure world := passage.leads origin world ∧ failure.Meets passage.raised world.raised

theorem Ends.obeys {passage : Passage} {α : Type} {step : Exec α} (origin : World)
    (ended : ∀ world, passage.leads origin world →
      passage.Ends passage.raised world (step world)) : (passage.inside origin).Obeys step := by
  refine (Rule.ensures_iff.mpr fun world led => ?_ : Rule.Ensures _ _ fun _ => True).obeys
  have result := (ended world led).after led
  cases done : step world with
  | ok value after =>
    rw [done] at result
    cases result with
    | ok led => exact ⟨led, trivial⟩
  | error failure after =>
    rw [done] at result
    cases result with
    | error led meets => exact ⟨led, meets⟩

end Passage

namespace Machine.Keeps

open Exec Passage

variable {passage : Passage} {machine : Machine} (keeps : machine.Keeps passage)

/-- The rule for the steps inside of a statement, as a conduct. -/
def conduct (origin : World) : Conduct machine where
  toRule := passage.inside origin
  quiet led quiet := passage.trans led (passage.quiet (passage.fine_of_leads led) quiet)
  complaint value led :=
    ⟨passage.trans led (passage.quiet (passage.fine_of_leads led) (.raise _ value)),
      passage.made value (passage.fine_of_leads led)⟩
  fatal led fatal := ⟨led, Failure.meets_of_isFatal fatal _ _⟩
  caught allowed := allowed.1
  call callee arguments named := Ends.obeys origin fun _ led =>
    keeps.call callee arguments named (passage.fine_of_leads led)

/-- A passage does not mind that a rule of the interpreter is broken. -/
theorem lenient (origin : World) : (keeps.conduct origin).Lenient :=
  fun _ _ _ led => ⟨led, trivial⟩

variable {α β : Type} {level : RaisedId → Array Raised → Prop} {world : World}
  (fine : passage.fine world)

include keeps fine

/-- What keeps to every conduct keeps to the passage. -/
theorem ends_of_obeys {step : Exec α} (obeys : ∀ origin, (keeps.conduct origin).Obeys step) :
    passage.Ends passage.raised world (step world) := by
  have result := Rule.ensures_iff.mp (obeys world).ensures world (passage.refl fine)
  cases done : step world with
  | ok value after =>
    rw [done] at result
    exact .ok result.1
  | error failure after =>
    rw [done] at result
    exact .error result.1 result.2

/-- A step that never fails needs no statement to record it. -/
theorem ends_of_succeeds {step : Exec α} (obeys : ∀ origin, (keeps.conduct origin).Obeys step)
    (succeeds : ∃ value after, step world = .ok value after) :
    passage.Ends level world (step world) := by
  obtain ⟨value, after, done⟩ := succeeds
  rw [done]
  exact .ok ((keeps.ends_of_obeys fine obeys).of_ok done)

theorem ends_evaluate (env : Env) (expression : Expr) :
    passage.Ends passage.raised world (evaluate machine env expression world) :=
  keeps.ends_of_obeys fine fun origin =>
    (keeps.conduct origin).obeys_evaluate env expression (.inl (keeps.lenient origin))

theorem ends_assign (env : Env) (value : Ref) (target : Expr) :
    passage.Ends passage.raised world (assign machine env value target world) :=
  keeps.ends_of_obeys fine fun origin =>
    (keeps.conduct origin).obeys_assign env value target (.inl (keeps.lenient origin))

theorem ends_bindName (env : Env) (name : String) (value : Ref) :
    passage.Ends level world (bindName env name value world) := by
  refine keeps.ends_of_succeeds fine
    (fun origin => (keeps.conduct origin).obeys_bindName env name value) ?_
  cases env <;> exact ⟨_, _, rfl⟩

theorem ends_complain (complaint : Complaint) :
    passage.Ends passage.raised world ((complain complaint : Exec α) world) :=
  keeps.ends_of_obeys fine fun origin => (keeps.conduct origin).obeys_complain complaint

/-! ### Raising -/

omit keeps in
theorem ends_raiseNew (value : Ref) :
    passage.Ends passage.raised world (raiseNew value world) := by
  refine ends_read fun handling handled => ?_
  cases handling with
  | none =>
    exact ends_newRaised fine value fun id after led raised =>
      ends_throw (passage.fine_of_leads led) raised
  | some current =>
    have recorded := passage.handling fine handled
    refine ends_read fun raised _ => ?_
    split
    · exact ends_throw fine (passage.raised_of_recorded recorded)
    · refine ends_newRaised fine value fun id after led raised => ?_
      have linked := passage.linking (passage.fine_of_leads led) raised
        (passage.recorded_of_leads led recorded)
      refine ends_change linked (ends_throw (passage.fine_of_leads linked) ?_)
      exact passage.raised_of_leads linked raised

theorem ends_raiseAgain : passage.Ends passage.raised world (raiseAgain world) := by
  refine ends_read fun handling handled => ?_
  cases handling with
  | none => exact keeps.ends_complain fine _
  | some current =>
    exact ends_throw fine (passage.raised_of_recorded (passage.handling fine handled))

/-! ### Catching -/

theorem ends_handlerMatches (env : Env) {location : Location} (placed : passage.placed location)
    (class_ : Option Expr) (id : RaisedId) :
    passage.Ends passage.recorded world
      (handlerMatches machine env location class_ id world) := by
  refine ends_read fun raised _ => ?_
  cases class_ with
  | none => exact .ok (passage.refl fine)
  | some expression =>
    refine ends_bind (ends_traced placed env (keeps.ends_evaluate fine env expression))
      fun class_ _ led => ?_
    refine ends_read fun classes _ => ?_
    exact ends_traced placed env (keeps.ends_of_obeys (passage.fine_of_leads led) fun origin =>
      (keeps.conduct origin).obeys_catches _ _)

theorem ends_bindHandled (env : Env) (name : Option String) (id : RaisedId) :
    passage.Ends level world (bindHandled env name id world) := by
  obtain ⟨after, bound⟩ := bindHandled_succeeds env name id world
  exact keeps.ends_of_succeeds fine (fun origin =>
    (keeps.conduct origin).obeys_bindHandled env name id) ⟨_, after, bound⟩

theorem ends_unbindHandled (env : Env) (name : Option String) :
    passage.Ends level world (unbindHandled env name world) := by
  obtain ⟨after, unbound⟩ := unbindHandled_succeeds env name world
  exact keeps.ends_of_succeeds fine (fun origin =>
    (keeps.conduct origin).obeys_unbindHandled env name) ⟨_, after, unbound⟩

/-- What is left to do once the body of a handler has ended. -/
theorem ends_endHandler (env : Env) (name : Option String) {id : RaisedId}
    (caught : passage.recorded id world.raised) {outcome : Except Failure Flow}
    (settled : Settled passage.recorded world.raised outcome) :
    passage.Ends passage.recorded world (endHandler env name id outcome world) := by
  have released {middle : World} (led : passage.leads world middle) :
      passage.Ends passage.recorded middle ((do
        unbindHandled env name
        release outcome : Exec Flow) middle) := by
    refine ends_bind (keeps.ends_unbindHandled (passage.fine_of_leads led) env name)
      fun _ last next => ?_
    exact ends_release (passage.fine_of_leads next)
      (settled_of_leads (passage.trans led next) settled)
  cases outcome with
  | ok flow => exact released (passage.refl fine)
  | error failure => exact ends_linkFailures fine settled caught fun _ linked => released linked

theorem ends_runHandler (env : Env) (name : Option String) {id : RaisedId}
    (caught : passage.recorded id world.raised) {body : Exec Flow}
    (bodyEnds : ∀ middle, passage.fine middle →
      passage.Ends passage.recorded middle (body middle)) :
    passage.Ends passage.recorded world (runHandler env name id body world) := by
  refine ends_bind (keeps.ends_bindHandled fine env name id) fun _ here led => ?_
  refine ends_settle (bodyEnds here (passage.fine_of_leads led)) fun outcome _ next settled => ?_
  have caught := passage.recorded_of_leads (passage.trans led next) caught
  exact keeps.ends_endHandler (passage.fine_of_leads next) env name caught settled

theorem ends_handleWith (env : Env) (name : Option String) {id : RaisedId}
    (caught : passage.recorded id world.raised) {body : Exec Flow}
    (bodyEnds : ∀ middle, passage.fine middle →
      passage.Ends passage.recorded middle (body middle)) :
    passage.Ends passage.recorded world (handleWith env name id body world) := by
  have ran : passage.Ends passage.recorded { world with handling := some id } _ :=
    keeps.ends_runHandler (passage.handler fine caught) env name caught bodyEnds
  change passage.Ends passage.recorded world
    (thenAlways (runHandler env name id body)
      (fun after => { after with handling := world.handling }) { world with handling := some id })
  unfold thenAlways
  cases done : runHandler env name id body { world with handling := some id } with
  | ok flow after => exact .ok (passage.handled fine (ran.of_ok done))
  | error failure after =>
    obtain ⟨led, meets⟩ := ran.of_error done
    exact .error (passage.handled fine led) meets

end Machine.Keeps

end Offside
