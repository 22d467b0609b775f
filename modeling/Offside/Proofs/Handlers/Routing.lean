/-
This file says which parts of a `try` statement run, and how the statement ends. The body
runs first. If it raises an exception, the handlers decide about it one after the other, and
the body of the first one that catches it runs; if it ends without a signal, the `else` block
runs. The cleanup comes last, whatever happened before.

A run is written down as the list of the parts that run, and as the worlds in between. The
relations below leave nothing of it open: a statement ends in some way exactly if there is
such a run. Only failures that end the whole program at once are left out, since nothing
runs after them.
-/

import Offside.Proofs.Handlers.Matching
import Offside.Proofs.Signals.Layers

namespace Offside

namespace Exec

/-- A part of a `try` statement. Looking whether a handler matches is a part of its own. -/
inductive Part where
  | body
  | look (place : Nat)
  | handler (place : Nat)
  | otherwise
  | cleanup
deriving DecidableEq

/-- The part is the body of a handler. -/
def Part.isHandler : Part → Bool
  | .handler _ => true
  | _ => false

/-- The looks at the first handlers. -/
def looks (count : Nat) : List Part :=
  (List.range count).map .look

/-! ### Runs -/

section Runs

variable (machine : Machine) (env : Env)

/-- Handlers pass an exception over, one after the other. -/
inductive PassOver (id : RaisedId) : List Handler → World → World → Prop where
  | none {world : World} : PassOver id [] world world
  | further {handler : Handler} {rest : List Handler} {before middle after : World}
      (decided : Decides machine env id handler before (.ok false) middle)
      (passed : PassOver id rest middle after) : PassOver id (handler :: rest) before after

/-- The body of a handler runs, while the exception has its name and is the one being handled. An
exception that leaves the body is linked to it. -/
inductive Handles (id : RaisedId) : Handler → World → Except Failure Flow → World → Prop where
  | mk {location : Location} {class_ : Option Expr} {name : Option String} {body : List Stmt}
      {before bound left linked unbound : World} {ended : Except Failure Flow}
      (binds : bindHandled env name id { before with handling := some id } = .ok () bound)
      (runs : settle (executeAll machine env body) bound = .ok ended left)
      (links : linkOutcome ended id left = .ok () linked)
      (unbinds : unbindHandled env name linked = .ok () unbound) :
      Handles id (.mk location class_ name body) before ended
        { unbound with handling := before.handling }

/-- What the handlers of a statement do about an exception: all pass it over, and it goes on; or the
first one that does not pass it over catches it; or that one fails itself. -/
inductive Routes (id : RaisedId) (handlers : List Handler) :
    World → List Part → Except Failure Flow → World → Prop where
  | uncaught {before after : World} (passed : PassOver machine env id handlers before after) :
      Routes id handlers before (looks handlers.length) (.error (.raised id)) after
  | caught {earlier later : List Handler} {handler : Handler} {before here there after : World}
      {ended : Except Failure Flow} (split : handlers = earlier ++ handler :: later)
      (passed : PassOver machine env id earlier before here)
      (decided : Decides machine env id handler here (.ok true) there)
      (handled : Handles machine env id handler there ended after) :
      Routes id handlers before (looks (earlier.length + 1) ++ [.handler earlier.length]) ended
        after
  | failed {earlier later : List Handler} {handler : Handler} {before here there after : World}
      {failure : Failure} (split : handlers = earlier ++ handler :: later)
      (passed : PassOver machine env id earlier before here)
      (decided : Decides machine env id handler here (.error failure) there)
      (links : linkFailures failure (.raised id) there = .ok () after) :
      Routes id handlers before (looks (earlier.length + 1)) (.error failure) after

/-- What a cleanup makes of what is pending. Without a signal or a failure of its own it keeps that.
Its failure is linked to a pending one. -/
inductive Cleans (block : List Stmt) :
    Except Failure Flow → World → Except Failure Flow → World → Prop where
  | kept {pending : Except Failure Flow} {before after : World}
      (runs : settle (executeAll machine env block) before = .ok (.ok .done) after) :
      Cleans block pending before pending after
  | signalled {pending : Except Failure Flow} {before after : World} {flow : Flow}
      (runs : settle (executeAll machine env block) before = .ok (.ok flow) after)
      (signal : flow ≠ .done) : Cleans block pending before (.ok flow) after
  | failed {flow : Flow} {before after : World} {failure : Failure}
      (runs : settle (executeAll machine env block) before = .ok (.error failure) after) :
      Cleans block (.ok flow) before (.error failure) after
  | failedTwice {inflight failure : Failure} {before left after : World}
      (runs : settle (executeAll machine env block) before = .ok (.error failure) left)
      (links : linkFailures failure inflight left = .ok () after) :
      Cleans block (.error inflight) before (.error failure) after

variable (body : List Stmt) (handlers : List Handler) (otherwise : Option (List Stmt))

/-- A run of a `try` statement up to its cleanup. The handlers are for exceptions, the `else` block
is for a body without a signal. -/
inductive Attempts : World → List Part → Except Failure Flow → World → Prop where
  | raised {before failed after : World} {id : RaisedId} {parts : List Part}
      {pending : Except Failure Flow}
      (runs : settle (executeAll machine env body) before = .ok (.error (.raised id)) failed)
      (routes : Routes machine env id handlers failed parts pending after) :
      Attempts before (.body :: parts) pending after
  | completed {before middle after : World} {block : List Stmt} {pending : Except Failure Flow}
      (runs : settle (executeAll machine env body) before = .ok (.ok .done) middle)
      (known : otherwise = some block)
      (continues : settle (executeAll machine env block) middle = .ok pending after) :
      Attempts before [.body, .otherwise] pending after
  | ended {before after : World} {pending : Except Failure Flow}
      (runs : settle (executeAll machine env body) before = .ok pending after)
      (noException : ∀ id, pending ≠ .error (.raised id))
      (noElse : pending = .ok .done → otherwise = none) :
      Attempts before [.body] pending after

/-- A whole run of a `try` statement, with its cleanup if there is one. -/
inductive Concludes : Option (List Stmt) → World → List Part → Except Failure Flow → World → Prop
    where
  | bare {before after : World} {parts : List Part} {pending : Except Failure Flow}
      (attempts : Attempts machine env body handlers otherwise before parts pending after) :
      Concludes none before parts pending after
  | cleaned {before here after : World} {parts : List Part} {pending outcome : Except Failure Flow}
      {block : List Stmt}
      (attempts : Attempts machine env body handlers otherwise before parts pending here)
      (cleans : Cleans machine env block pending here outcome after) :
      Concludes (some block) before (parts ++ [.cleanup]) outcome after

end Runs

/-! ### Handlers -/

section Handling

variable {machine : Machine} {env : Env} {id : RaisedId}

theorem linkFailures_succeeds (failure inflight : Failure) (world : World) :
    ∃ after, linkFailures failure inflight world = .ok () after := by
  cases failure <;> cases inflight <;> exact ⟨_, rfl⟩

theorem linkOutcome_succeeds (outcome : Except Failure Flow) (caught : RaisedId) (world : World) :
    ∃ after, linkOutcome outcome caught world = .ok () after := by
  cases outcome with
  | ok => exact ⟨world, rfl⟩
  | error failure => exact linkFailures_succeeds failure (.raised caught) world

/-- The outcome leaves room for cleanup. -/
def Mild {α : Type} (outcome : Except Failure α) : Prop :=
  ∀ failure, outcome = .error failure → ¬ failure.isFatal

theorem Settles.mild {α : Type} {step : Exec (Except Failure α)} (settles : Settles step)
    {outcome : Except Failure α} {before after : World}
    (settled : step before = .ok outcome after) : Mild outcome := by
  rintro failure rfl
  exact (settles before after failure).1 settled

/-- Ending in a mild way is no failure that ends everything. -/
theorem Mild.settle_release {α : Type} {outcome : Except Failure α} (mild : Mild outcome)
    (world : World) : settle (release outcome) world = .ok outcome world := by
  cases outcome with
  | ok value => rfl
  | error failure =>
    have released : (release (.error failure) : Exec α) world = .error failure world := rfl
    rw [settle_error released, if_neg (mild failure rfl)]

/-- Nor is failing as a step failed, once that is linked to another failure. -/
theorem settle_linked {α : Type} {failure inflight : Failure} (mild : ¬ failure.isFatal)
    {before after : World} (links : linkFailures failure inflight before = .ok () after) :
    settle (do linkFailures failure inflight; throw failure : Exec α) before =
      .ok (.error failure) after := by
  have failed : (do linkFailures failure inflight; throw failure : Exec α) before =
      .error failure after := bind_of_ok links
  rw [settle_error failed, if_neg mild]

theorem settle_thenAlways {α : Type} {step : Exec α} {change : World → World} {before after : World}
    {outcome : Except Failure α} (settled : settle step before = .ok outcome after) :
    settle (thenAlways step change) before = .ok outcome (change after) := by
  cases ended : step before with
  | ok value last =>
    have changed : thenAlways step change before = .ok value (change last) := by
      rw [thenAlways, ended]
    cases (settle_ok ended).symm.trans settled
    exact settle_ok changed
  | error failure last =>
    have changed : thenAlways step change before = .error failure (change last) := by
      rw [thenAlways, ended]
    have same := (settle_error ended).symm.trans settled
    split at same
    · cases same
    next mild =>
      cases same
      rw [settle_error changed, if_neg mild]

theorem settle_thenAlways_error {α : Type} {step : Exec α} {change : World → World}
    {before after : World} {failure : Failure} (fatal : failure.isFatal = true)
    (failed : step before = .error failure after) :
    settle (thenAlways step change) before = .error failure (change after) := by
  have changed : thenAlways step change before = .error failure (change after) := by
    rw [thenAlways, failed]
  rw [settle_error changed, if_pos fatal]

section Bodies

variable {name : Option String} {body : List Stmt} {before after : World}
  {ended : Except Failure Flow}

theorem settle_handleWith {bound left linked unbound : World}
    (binds : bindHandled env name id { before with handling := some id } = .ok () bound)
    (runs : settle (executeAll machine env body) bound = .ok ended left)
    (links : linkOutcome ended id left = .ok () linked)
    (unbinds : unbindHandled env name linked = .ok () unbound) :
    settle (handleWith env name id (executeAll machine env body)) before =
      .ok ended { unbound with handling := before.handling } := by
  have ends : (do endHandler env name id (← settle (executeAll machine env body))) bound =
      release ended unbound := by
    rw [bind_of_ok runs, endHandler, bind_of_ok links, bind_of_ok unbinds]
  rw [settle_same (handleWith_eq machine binds (executeAll machine env body)), resume]
  refine settle_thenAlways ?_
  rw [settle_same ends]
  exact ((settles_settle _).mild runs).settle_release unbound

/-- A handler's body runs as the relation says. -/
theorem handles_iff {location : Location} {class_ : Option Expr} :
    settle (handleWith env name id (executeAll machine env body)) before = .ok ended after ↔
      Handles machine env id (.mk location class_ name body) before ended after := by
  constructor
  · intro ran
    obtain ⟨bound, binds⟩ := bindHandled_succeeds env name id { before with handling := some id }
    cases runs : settle (executeAll machine env body) bound with
    | error failure left =>
      have fatal := (settles_settle _ _ _ _).2 runs
      have failed : (do endHandler env name id (← settle (executeAll machine env body))) bound =
          .error failure left := bind_of_error runs
      rw [settle_same (handleWith_eq machine binds (executeAll machine env body)), resume,
        settle_thenAlways_error fatal failed] at ran
      cases ran
    | ok outcome left =>
      obtain ⟨linked, links⟩ := linkOutcome_succeeds outcome id left
      obtain ⟨unbound, unbinds⟩ := unbindHandled_succeeds env name linked
      cases (settle_handleWith binds runs links unbinds).symm.trans ran
      exact .mk binds runs links unbinds
  · intro handles
    cases handles with
    | mk binds runs links unbinds => exact settle_handleWith binds runs links unbinds

end Bodies

theorem PassOver.executeHandlers_eq {earlier : List Handler} {before here : World}
    (passed : PassOver machine env id earlier before here) (later : List Handler) :
    executeHandlers machine env id (earlier ++ later) before =
      executeHandlers machine env id later here := by
  induction passed with
  | none => rfl
  | @further handler rest _ _ _ decided _ inductionHypothesis =>
    obtain ⟨location, class_, name, body⟩ := handler
    rw [List.cons_append, executeHandlers, bind_of_ok (decides_iff.mpr decided)]
    exact inductionHypothesis

/-- A handler that passes an exception over leaves it to the others. -/
theorem Routes.cons {handler : Handler} {rest : List Handler} {before middle after : World}
    {parts : List Part} {ended : Except Failure Flow}
    (decided : Decides machine env id handler before (.ok false) middle)
    (routes : Routes machine env id rest middle parts ended after) :
    ∃ parts, Routes machine env id (handler :: rest) before parts ended after := by
  cases routes with
  | uncaught passed => exact ⟨_, .uncaught (.further decided passed)⟩
  | caught split passed found handled =>
    exact ⟨_, .caught (congrArg (handler :: ·) split) (.further decided passed) found handled⟩
  | failed split passed found links =>
    exact ⟨_, .failed (congrArg (handler :: ·) split) (.further decided passed) found links⟩

/-- The handlers run as the relation says. -/
theorem routes_iff {handlers : List Handler} {before after : World} {ended : Except Failure Flow} :
    settle (executeHandlers machine env id handlers) before = .ok ended after ↔
      ∃ parts, Routes machine env id handlers before parts ended after := by
  constructor
  · intro ran
    induction handlers generalizing before with
    | nil =>
      cases ran
      exact ⟨_, .uncaught .none⟩
    | cons handler rest inductionHypothesis =>
      obtain ⟨location, class_, name, body⟩ := handler
      cases looked : settle (handlerMatches machine env location class_ id) before with
      | error failure middle =>
        have failed :
            executeHandlers machine env id (.mk location class_ name body :: rest) before =
              .error failure middle := by
          rw [executeHandlers]
          exact bind_of_error looked
        rw [settle_error failed, if_pos ((settles_settle _ _ _ _).2 looked)] at ran
        cases ran
      | ok verdict middle =>
        have decided :
            Decides machine env id (.mk location class_ name body) before verdict middle :=
          decides_iff.mp looked
        rw [executeHandlers, settle_same (bind_of_ok looked)] at ran
        cases verdict with
        | error failure =>
          obtain ⟨linked, links⟩ := linkFailures_succeeds failure (.raised id) middle
          cases (settle_linked ((settles_settle _).mild looked _ rfl) links).symm.trans ran
          exact ⟨_, .failed (List.nil_append _).symm .none decided links⟩
        | ok matching =>
          cases matching with
          | true => exact ⟨_, .caught (List.nil_append _).symm .none decided (handles_iff.mp ran)⟩
          | false =>
            obtain ⟨parts, routes⟩ := inductionHypothesis ran
            exact routes.cons decided
  · rintro ⟨parts, routes⟩
    cases routes with
    | uncaught passed =>
      rw [← List.append_nil handlers, settle_same (passed.executeHandlers_eq [])]
      rfl
    | @caught _ _ handler _ _ _ _ _ split passed decided handled =>
      obtain ⟨location, class_, name, body⟩ := handler
      rw [split, settle_same (passed.executeHandlers_eq _), executeHandlers,
        settle_same (bind_of_ok (decides_iff.mpr decided))]
      exact handles_iff.mpr handled
    | @failed _ _ handler _ _ _ _ _ split passed decided links =>
      obtain ⟨location, class_, name, body⟩ := handler
      rw [split, settle_same (passed.executeHandlers_eq _), executeHandlers,
        settle_same (bind_of_ok (decides_iff.mpr decided))]
      exact settle_linked ((settles_settle _).mild (decides_iff.mpr decided) _ rfl) links

end Handling

/-! ### Statements -/

section Statements

variable {machine : Machine} {env : Env} {body : List Stmt} {handlers : List Handler}
  {otherwise cleanup : Option (List Stmt)} {before after : World} {outcome : Except Failure Flow}

/-- What neither the handlers nor the `else` block are for stays pending. -/
theorem attemptThen_of_ended {pending : Except Failure Flow}
    (runs : settle (executeAll machine env body) before = .ok pending after)
    (noException : ∀ id, pending ≠ .error (.raised id))
    (noElse : pending = .ok .done → otherwise = none) :
    attemptThen machine env handlers otherwise (executeAll machine env body) before =
      .ok pending after := by
  rw [attemptThen, bind_of_ok runs]
  cases pending with
  | error failure =>
    cases failure with
    | raised id => exact absurd rfl (noException id)
    | _ => rfl
  | ok flow =>
    cases flow with
    | done =>
      rw [noElse rfl]
      rfl
    | _ => rfl

/-- Up to its cleanup, a statement runs as the relation says. -/
theorem attempts_iff :
    attemptThen machine env handlers otherwise (executeAll machine env body) before =
        .ok outcome after ↔
      ∃ parts, Attempts machine env body handlers otherwise before parts outcome after := by
  constructor
  · intro ran
    cases runs : settle (executeAll machine env body) before with
    | error failure middle =>
      rw [attemptThen, bind_of_error runs] at ran
      cases ran
    | ok pending middle =>
      by_cases exception : ∃ id, pending = .error (.raised id)
      · obtain ⟨id, rfl⟩ := exception
        rw [attemptThen, bind_of_ok runs] at ran
        obtain ⟨parts, routes⟩ := routes_iff.mp ran
        exact ⟨_, .raised runs routes⟩
      · by_cases continues : pending = .ok .done ∧ otherwise ≠ none
        · obtain ⟨rfl, some_⟩ := continues
          obtain ⟨block, known⟩ := Option.ne_none_iff_exists'.mp some_
          rw [attemptThen, bind_of_ok runs, known] at ran
          exact ⟨_, .completed runs known ran⟩
        · have noException : ∀ id, pending ≠ .error (.raised id) := fun id same =>
            exception ⟨id, same⟩
          have noElse : pending = .ok .done → otherwise = none := fun same =>
            not_not.mp fun some_ => continues ⟨same, some_⟩
          cases (attemptThen_of_ended runs noException noElse).symm.trans ran
          exact ⟨_, .ended runs noException noElse⟩
  · rintro ⟨parts, attempts⟩
    cases attempts with
    | raised runs routes =>
      rw [attemptThen, bind_of_ok runs]
      exact routes_iff.mpr ⟨_, routes⟩
    | completed runs known continues =>
      rw [attemptThen, bind_of_ok runs, known]
      exact continues
    | ended runs noException noElse => exact attemptThen_of_ended runs noException noElse

theorem settle_cleanUp_of_signal {block : List Stmt} {pending : Except Failure Flow} {flow : Flow}
    (runs : settle (executeAll machine env block) before = .ok (.ok flow) after)
    (signal : flow ≠ .done) :
    settle (cleanUp pending (executeAll machine env block)) before = .ok (.ok flow) after := by
  rw [cleanUp, settle_same (bind_of_ok runs)]
  cases flow with
  | done => exact absurd rfl signal
  | _ => rfl

/-- A cleanup runs as the relation says. -/
theorem cleans_iff {block : List Stmt} {pending : Except Failure Flow} (mild : Mild pending) :
    settle (cleanUp pending (executeAll machine env block)) before = .ok outcome after ↔
      Cleans machine env block pending before outcome after := by
  constructor
  · intro ran
    cases runs : settle (executeAll machine env block) before with
    | error failure left =>
      have failed : cleanUp pending (executeAll machine env block) before = .error failure left :=
        bind_of_error runs
      rw [settle_error failed, if_pos ((settles_settle _ _ _ _).2 runs)] at ran
      cases ran
    | ok ended left =>
      by_cases signal : ∃ flow, ended = .ok flow ∧ flow ≠ .done
      · obtain ⟨flow, rfl, signal⟩ := signal
        cases (settle_cleanUp_of_signal runs signal).symm.trans ran
        exact .signalled runs signal
      · have own := (settles_settle _).mild runs
        rw [cleanUp, settle_same (bind_of_ok runs)] at ran
        cases ended with
        | error failure =>
          cases pending with
          | error inflight =>
            obtain ⟨linked, links⟩ := linkFailures_succeeds failure inflight left
            cases (settle_linked (own _ rfl) links).symm.trans ran
            exact .failedTwice runs links
          | ok flow =>
            cases (own.settle_release left (α := Flow)).symm.trans ran
            exact .failed runs
        | ok flow =>
          obtain rfl : flow = .done := by_contra fun other => signal ⟨flow, rfl, other⟩
          cases (mild.settle_release left).symm.trans ran
          exact .kept runs
  · intro cleans
    cases cleans with
    | kept runs =>
      rw [cleanUp, settle_same (bind_of_ok runs)]
      exact mild.settle_release after
    | signalled runs signal => exact settle_cleanUp_of_signal runs signal
    | failed runs =>
      rw [cleanUp, settle_same (bind_of_ok runs)]
      exact ((settles_settle _).mild runs).settle_release after (α := Flow)
    | failedTwice runs links =>
      rw [cleanUp, settle_same (bind_of_ok runs)]
      exact settle_linked ((settles_settle _).mild runs _ rfl) links

/-- A statement with a cleanup runs it after everything else. -/
theorem settle_execute_attempt (location : Location) (block : List Stmt) :
    settle (execute machine env (.attempt location body handlers otherwise (some block))) =
      settle (do
        cleanUp (← attemptThen machine env handlers otherwise (executeAll machine env body))
          (executeAll machine env block)) := by
  rw [execute_attempt]
  change settle (do cleanUp (← settle (do release (← attemptThen machine env handlers otherwise
    (executeAll machine env body)))) (executeAll machine env block)) = _
  rw [settle_release (settles_attemptThen handlers otherwise _)]

/-- A statement without one ends as it was going to. -/
theorem settle_execute_attempt_none (location : Location) :
    settle (execute machine env (.attempt location body handlers otherwise none)) =
      attemptThen machine env handlers otherwise (executeAll machine env body) := by
  rw [execute_attempt]
  exact settle_release (settles_attemptThen handlers otherwise _)

/-- A statement runs as the relation says. -/
theorem concludes_iff (location : Location) :
    settle (execute machine env (.attempt location body handlers otherwise cleanup)) before =
        .ok outcome after ↔
      ∃ parts, Concludes machine env body handlers otherwise cleanup before parts outcome
        after := by
  cases cleanup with
  | none =>
    rw [settle_execute_attempt_none, attempts_iff]
    constructor
    · rintro ⟨parts, attempts⟩
      exact ⟨parts, .bare attempts⟩
    · rintro ⟨parts, concludes⟩
      cases concludes with
      | bare attempts => exact ⟨parts, attempts⟩
  | some block =>
    rw [settle_execute_attempt]
    constructor
    · intro ran
      cases attempted :
          attemptThen machine env handlers otherwise (executeAll machine env body) before with
      | error failure middle =>
        rw [settle_error (bind_of_error attempted),
          if_pos ((settles_attemptThen handlers otherwise _ _ _ _).2 attempted)] at ran
        cases ran
      | ok pending here =>
        rw [settle_same (bind_of_ok attempted)] at ran
        obtain ⟨parts, attempts⟩ := attempts_iff.mp attempted
        have mild := (settles_attemptThen handlers otherwise _).mild attempted
        exact ⟨_, .cleaned attempts ((cleans_iff mild).mp ran)⟩
    · rintro ⟨parts, concludes⟩
      cases concludes with
      | cleaned attempts cleans =>
        have attempted := attempts_iff.mpr ⟨_, attempts⟩
        have mild := (settles_attemptThen handlers otherwise _).mild attempted
        rw [settle_same (bind_of_ok attempted)]
        exact (cleans_iff mild).mpr cleans

end Statements

/-! ### Order -/

section Order

variable {machine : Machine} {env : Env} {id : RaisedId}

theorem Decides.unique {handler : Handler} {before after afterToo : World}
    {verdict verdictToo : Except Failure Bool}
    (decided : Decides machine env id handler before verdict after)
    (decidedToo : Decides machine env id handler before verdictToo afterToo) :
    verdict = verdictToo ∧ after = afterToo := by
  obtain ⟨location, class_, name, body⟩ := handler
  cases (decides_iff.mpr decided).symm.trans (decides_iff.mpr decidedToo)
  exact ⟨rfl, rfl⟩

/-- A handler catches an exception, and all handlers before it pass it over. -/
def FirstCatches (machine : Machine) (env : Env) (id : RaisedId) (handlers : List Handler)
    (before : World) (place : Nat) : Prop :=
  ∃ earlier handler later here there, handlers = earlier ++ handler :: later ∧
    earlier.length = place ∧ PassOver machine env id earlier before here ∧
    Decides machine env id handler here (.ok true) there

/-- A handler that does not pass an exception over is not one of those that do. -/
theorem PassOver.false_of_decides {earlier later : List Handler} {handler : Handler}
    {before here there after : World} {verdict : Except Failure Bool}
    (passed : PassOver machine env id earlier before here)
    (decided : Decides machine env id handler here verdict there) (other : verdict ≠ .ok false)
    (all : PassOver machine env id (earlier ++ handler :: later) before after) : False := by
  induction passed with
  | none =>
    cases all with
    | further decidedToo _ => exact other (decided.unique decidedToo).1
  | further first _ inductionHypothesis =>
    cases all with
    | further firstToo all =>
      obtain ⟨-, rfl⟩ := first.unique firstToo
      exact inductionHypothesis decided all

/-- Only one handler is the first that does not pass an exception over. -/
theorem PassOver.first_unique {earlier later others rest : List Handler}
    {handler handlerToo : Handler} {before here hereToo there thereToo : World}
    {verdict verdictToo : Except Failure Bool}
    (same : earlier ++ handler :: later = others ++ handlerToo :: rest)
    (passed : PassOver machine env id earlier before here)
    (decided : Decides machine env id handler here verdict there) (stops : verdict ≠ .ok false)
    (passedToo : PassOver machine env id others before hereToo)
    (decidedToo : Decides machine env id handlerToo hereToo verdictToo thereToo)
    (stopsToo : verdictToo ≠ .ok false) :
    earlier.length = others.length ∧ verdict = verdictToo := by
  induction passed generalizing others with
  | none =>
    cases passedToo with
    | none =>
      obtain ⟨rfl, -⟩ := List.cons.inj same
      exact ⟨rfl, (decided.unique decidedToo).1⟩
    | further first _ =>
      obtain ⟨rfl, -⟩ := List.cons.inj same
      exact absurd (decided.unique first).1 stops
  | further first _ inductionHypothesis =>
    cases passedToo with
    | none =>
      obtain ⟨rfl, -⟩ := List.cons.inj same
      exact absurd (decidedToo.unique first).1 stopsToo
    | further firstToo passedToo =>
      obtain ⟨rfl, sameRest⟩ := List.cons.inj same
      obtain ⟨-, rfl⟩ := first.unique firstToo
      obtain ⟨length, verdicts⟩ := inductionHypothesis sameRest decided passedToo
      exact ⟨congrArg Nat.succ length, verdicts⟩

@[simp] theorem mem_looks {part : Part} {count : Nat} :
    part ∈ looks count ↔ ∃ place < count, part = .look place := by
  simp [looks, eq_comm]

section Parts

variable {handlers : List Handler} {before after : World} {parts : List Part}
  {ended : Except Failure Flow} (routes : Routes machine env id handlers before parts ended after)

include routes

/-- The handler whose body runs is the first one that catches the exception. -/
theorem Routes.handler_mem_iff (place : Nat) :
    .handler place ∈ parts ↔ FirstCatches machine env id handlers before place := by
  cases routes with
  | uncaught passed =>
    refine iff_of_false (by simp) ?_
    rintro ⟨earlier, handler, later, here, there, rfl, -, passedToo, decided⟩
    exact passedToo.false_of_decides decided nofun passed
  | caught split passed decided handled =>
    constructor
    · intro ran
      obtain rfl : place = _ := by simpa using ran
      exact ⟨_, _, _, _, _, split, rfl, passed, decided⟩
    · rintro ⟨earlier, handler, later, here, there, splitToo, rfl, passedToo, decidedToo⟩
      have same := (passedToo.first_unique (splitToo.symm.trans split) decidedToo nofun passed
        decided nofun).1
      simp [same]
  | failed split passed decided links =>
    refine iff_of_false (by simp) ?_
    rintro ⟨earlier, handler, later, here, there, splitToo, -, passedToo, decidedToo⟩
    have same := (passedToo.first_unique (splitToo.symm.trans split) decidedToo nofun passed
      decided nofun).2
    cases same

/-- No handler behind it is looked at. -/
theorem Routes.look_mem_iff {place : Nat} (ran : .handler place ∈ parts) (other : Nat) :
    .look other ∈ parts ↔ other ≤ place := by
  cases routes with
  | uncaught passed => simp at ran
  | caught split passed decided handled =>
    obtain rfl : place = _ := by simpa using ran
    simp
  | failed split passed decided links => simp at ran

/-- There are only looks and one handler at most. -/
theorem Routes.counts : parts.count .body = 0 ∧ parts.count .otherwise = 0 ∧
    parts.count .cleanup = 0 ∧ parts.countP Part.isHandler ≤ 1 := by
  have none (count : Nat) : (looks count).countP Part.isHandler = 0 := by
    refine List.countP_eq_zero.mpr fun part inside => ?_
    obtain ⟨place, -, rfl⟩ := mem_looks.mp inside
    exact Bool.false_ne_true
  cases routes with
  | uncaught passed => simp [List.count_eq_zero, none]
  | caught split passed decided handled =>
    simp [List.count_eq_zero, List.countP_append, none, Part.isHandler]
  | failed split passed decided links => simp [List.count_eq_zero, none]

end Parts

/-- The order in which parts of a statement run: what runs how often, and when. -/
structure Orderly (machine : Machine) (env : Env) (body : List Stmt) (handlers : List Handler)
    (otherwise cleanup : Option (List Stmt)) (before : World) (parts : List Part) : Prop where
  body_once : parts.count .body = 1
  cleanup_once : parts.count .cleanup = if cleanup.isSome then 1 else 0
  handler_atMost : parts.countP Part.isHandler ≤ 1
  otherwise_atMost : parts.count .otherwise ≤ 1
  /-- A handler's body runs exactly if the handler is the first one that catches what the body of
  the statement raised. -/
  handler_iff : ∀ place, .handler place ∈ parts ↔ ∃ id failed,
    settle (executeAll machine env body) before = .ok (.error (.raised id)) failed ∧
      FirstCatches machine env id handlers failed place
  look_iff : ∀ place, .handler place ∈ parts → ∀ other, .look other ∈ parts ↔ other ≤ place
  /-- The `else` block runs exactly if the body has neither failed nor given a signal. -/
  otherwise_iff : .otherwise ∈ parts ↔ otherwise.isSome ∧
    ∃ middle, settle (executeAll machine env body) before = .ok (.ok .done) middle

section Orders

variable {body : List Stmt} {handlers : List Handler} {otherwise cleanup : Option (List Stmt)}
  {before after : World} {parts : List Part} {outcome : Except Failure Flow}

theorem Attempts.orderly
    (attempts : Attempts machine env body handlers otherwise before parts outcome after) :
    Orderly machine env body handlers otherwise none before parts := by
  cases attempts with
  | raised runs routes =>
    obtain ⟨bodies, elses, cleanups, bounded⟩ := routes.counts
    refine ⟨by simp [bodies], by simp [cleanups], by simpa [Part.isHandler] using bounded,
      by simp [elses], fun place => ?_, fun place ran other => ?_, iff_of_false ?_ ?_⟩
    · have here := routes.handler_mem_iff place
      simp only [List.mem_cons, reduceCtorEq, false_or, here]
      refine ⟨fun first => ⟨_, _, runs, first⟩, ?_⟩
      rintro ⟨id, failed, runsToo, first⟩
      cases runs.symm.trans runsToo
      exact first
    · have inside := List.mem_of_ne_of_mem (by simp) ran
      simpa using routes.look_mem_iff inside other
    · simpa [List.count_eq_zero] using elses
    · rintro ⟨-, middle, runsToo⟩
      cases runs.symm.trans runsToo
  | completed runs known continues =>
    refine ⟨by simp, by simp, by simp [Part.isHandler], by simp,
      fun place => iff_of_false (by simp) ?_, fun place ran => by simp at ran,
      iff_of_true (by simp) ⟨by simp [known], _, runs⟩⟩
    rintro ⟨id, failed, runsToo, -⟩
    cases runs.symm.trans runsToo
  | ended runs noException noElse =>
    refine ⟨by simp, by simp, by simp [Part.isHandler], by simp,
      fun place => iff_of_false (by simp) ?_, fun place ran => by simp at ran,
      iff_of_false (by simp) ?_⟩
    · rintro ⟨id, failed, runsToo, -⟩
      cases runs.symm.trans runsToo
      exact noException id rfl
    · rintro ⟨known, middle, runsToo⟩
      cases runs.symm.trans runsToo
      rw [noElse rfl] at known
      cases known

/-- A cleanup comes behind everything else. -/
theorem Orderly.cleaned {block : List Stmt}
    (orderly : Orderly machine env body handlers otherwise none before parts) :
    Orderly machine env body handlers otherwise (some block) before (parts ++ [.cleanup]) where
  body_once := by simpa using orderly.body_once
  cleanup_once := by simpa using orderly.cleanup_once
  handler_atMost := by simpa [Part.isHandler] using orderly.handler_atMost
  otherwise_atMost := by simpa using orderly.otherwise_atMost
  handler_iff place := by simpa using orderly.handler_iff place
  look_iff place ran other := by simpa using orderly.look_iff place (by simpa using ran) other
  otherwise_iff := by simpa using orderly.otherwise_iff

theorem Concludes.orderly
    (concludes : Concludes machine env body handlers otherwise cleanup before parts outcome after) :
    Orderly machine env body handlers otherwise cleanup before parts := by
  cases concludes with
  | bare attempts => exact attempts.orderly
  | cleaned attempts cleans => exact attempts.orderly.cleaned

/-- A `try` statement ends in some way exactly if there is a run of its parts that does. Its body
runs once and its cleanup once. If the body raises an exception, the handlers are looked at in their
order, up to the first one that the exception's class or a base of that is given for, and only the
body of that one runs; if all pass the exception over, the same exception is pending. The `else`
block runs exactly if the body ends without failure and signal. What is pending is how the statement
ends, unless the cleanup ends with a failure or a signal of its own. -/
theorem attempt_routes (machine : Machine) (env : Env) (location : Location) (body : List Stmt)
    (handlers : List Handler) (otherwise cleanup : Option (List Stmt)) (before : World) :
    (∀ outcome after,
      settle (execute machine env (.attempt location body handlers otherwise cleanup)) before =
          .ok outcome after ↔
        ∃ parts, Concludes machine env body handlers otherwise cleanup before parts outcome after) ∧
    ∀ parts outcome after,
      Concludes machine env body handlers otherwise cleanup before parts outcome after →
        Orderly machine env body handlers otherwise cleanup before parts :=
  ⟨fun _ _ => concludes_iff location, fun _ _ _ concludes => concludes.orderly⟩

end Orders

end Order

/-- A body that raises an exception, two handlers for every exception and a cleanup that breaks: the
first handler runs, then the cleanup, and the statement breaks. -/
theorem first_handler_then_cleanup :
    let world := World.bare { files := ⟨"/", []⟩, input := "", output := "" } []
    let env : Env := default
    let here : Location := default
    let body : List Stmt := [.simple here (.raiseValue none)]
    let handlers : List Handler := [.mk here none none [], .mk here none none []]
    let cleanup : List Stmt := [.simple here .breakLoop]
    ∃ after,
      settle (execute (.ofFuel 0) env (.attempt here body handlers (some []) (some cleanup)))
          world = .ok (.ok (.broken here)) after ∧
      Orderly (.ofFuel 0) env body handlers (some []) (some cleanup) world
        [.body, .look 0, .handler 0, .cleanup] := by
  intro world env here body handlers cleanup
  obtain ⟨failed, runs, isOf, quiet, unrequested⟩ : ∃ failed,
      settle (executeAll (.ofFuel 0) env body) world = .ok (.error (.raised ⟨0⟩)) failed ∧
      failed.IsOf (failed.raisedAt ⟨0⟩).value BuiltinClass.exception.ref ∧
      failed.interrupted = false ∧ failed.host.arrivals = [] :=
    ⟨_, rfl, .refl, rfl, rfl⟩
  let entered : World := { failed with handling := some ⟨0⟩ }
  have handled : Handles (.ofFuel 0) env ⟨0⟩ (.mk here none none []) failed (.ok .done)
      { entered with handling := failed.handling } :=
    .mk rfl rfl rfl rfl
  have routes :
      Routes (.ofFuel 0) env ⟨0⟩ handlers failed [.look 0, .handler 0] (.ok .done) failed :=
    .caught (List.nil_append _).symm .none (.everything (iff_of_true rfl isOf)) handled
  have calm : traced here env checkInterrupt failed = .ok () failed :=
    tryCatch_ok (checkInterrupt_of_quiet quiet unrequested)
  have breaks : settle (executeAll (.ofFuel 0) env cleanup) failed =
      .ok (.ok (.broken here)) failed := by
    refine settle_ok ?_
    rw [executeAll]
    exact (bind_of_ok calm).trans rfl
  have run : Concludes (.ofFuel 0) env body handlers (some []) (some cleanup) world
      [.body, .look 0, .handler 0, .cleanup] (.ok (.broken here)) failed :=
    .cleaned (.raised runs routes) (.signalled breaks (by simp))
  obtain ⟨ends, orderly⟩ := attempt_routes (.ofFuel 0) env here body handlers (some [])
    (some cleanup) world
  exact ⟨failed, (ends _ _).mpr ⟨_, run⟩, orderly _ _ _ run⟩

end Exec

end Offside
