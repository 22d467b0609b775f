/-
This file says where a run stands while it is inside of statements. A run comes to a
statement through the blocks around it, and each of them leaves a layer: what will be
made of how the statement ends. Layers are listed from the inside outwards, and they do
not reach beyond the body of the function, class or module that is being run.

What the layers stand for is proved here: to run a block is to run the statement that it
has come to, and to go on with the layers around it. Nothing is said yet of signals. They
only pass through the layers, and what runs on their way out is the cleanup of `try`
statements and the end of handlers.
-/

import Offside.Eval.Statement

namespace Offside

/-! ### Loops that are being run -/

/-- A loop that is being run. By then a `for` loop has its iterator. -/
inductive Looping where
  | whileTrue (location : Location) (condition : Expr) (body : List Stmt)
      (otherwise : Option (List Stmt))
  | forEach (location : Location) (target iterable : Expr) (body : List Stmt)
      (otherwise : Option (List Stmt)) (iterator : Ref)

namespace Looping

open Exec

def statement : Looping → Stmt
  | .whileTrue location condition body otherwise => .whileLoop location condition body otherwise
  | .forEach location target iterable body otherwise _ =>
    .forLoop location target iterable body otherwise

def body : Looping → List Stmt
  | .whileTrue _ _ body _ => body
  | .forEach _ _ _ body _ _ => body

def otherwise : Looping → Option (List Stmt)
  | .whileTrue _ _ _ otherwise => otherwise
  | .forEach _ _ _ _ otherwise _ => otherwise

variable (machine : Machine) (env : Env)

/-- What comes before every round: whether there is one more, and its element. -/
def goesOn : Looping → Exec Bool
  | .whileTrue location condition _ _ => holds machine env location condition
  | .forEach location target _ _ _ iterator => do
    match ← traced location env (next? machine iterator) with
    | none => return false
    | some element =>
      traced location env (assign machine env element target)
      return true

/-- One round. -/
def round (looping : Looping) : Exec (Option Round) := do
  if ← looping.goesOn machine env then
    return some (.ofFlow (← executeAll machine env looping.body))
  else return none

/-- The rounds that are left, of which there may be no more than are given. -/
def run (looping : Looping) (left : Nat) : Exec Flow :=
  loop { machine with budget := left } (looping.round machine env)
    (executeElse machine env looping.otherwise)

end Looping

/-! ### Layers -/

/-- What is around a statement that is being run. -/
inductive Layer where
  /-- The statements after it. -/
  | block (rest : List Stmt)
  | attempted (handlers : List Handler) (otherwise : Option (List Stmt))
  /-- A handler for an exception, with the one that was being handled before. -/
  | handled (name : Option String) (id : RaisedId) (previous : Option RaisedId)
  | guarded (cleanup : List Stmt)
  /-- The cleanup itself, after everything before it has ended. -/
  | cleaning (outcome : Except Failure Flow)
  /-- The body of a loop, with the number of rounds that may follow. -/
  | round (looping : Looping) (left : Nat)

/-- The loop whose body the layer is around. -/
def Layer.looping? : Layer → Option Looping
  | .round looping _ => some looping
  | _ => none

/-- The layer of a `try` statement's cleanup, if it has one. -/
def Layer.guards : Option (List Stmt) → List Layer
  | none => []
  | some cleanup => [.guarded cleanup]

/-- The signal is meant for a loop. -/
def Flow.isForLoop : Flow → Bool
  | .broken _ => true
  | .continued _ => true
  | _ => false

namespace Exec

section Resuming

variable (machine : Machine) (env : Env)

/-- How a `try` statement ends before its cleanup. -/
def attemptThen (handlers : List Handler) (otherwise : Option (List Stmt)) (step : Exec Flow) :
    Exec (Except Failure Flow) := do
  match ← settle step with
  | .error (.raised id) => settle (executeHandlers machine env id handlers)
  | .ok .done => settle (executeElse machine env otherwise)
  | ended => pure ended

/-- Goes on with a layer after the step inside of it. -/
def resume : Layer → Exec Flow → Exec Flow
  | .block rest, step => do
    match ← step with
    | .done => executeAll machine env rest
    | flow => return flow
  | .attempted handlers otherwise, step => do
    release (← attemptThen machine env handlers otherwise step)
  | .handled name id previous, step =>
    thenAlways (do endHandler env name id (← settle step)) fun world =>
      { world with handling := previous }
  | .guarded cleanup, step => do cleanUp (← settle step) (executeAll machine env cleanup)
  | .cleaning outcome, step => cleanUp outcome step
  | .round looping left, step => do
    match Round.ofFlow (← step) with
    | .again => looping.run machine env left
    | .broken => return .done
    | .left flow => return flow

/-- Goes on with all layers, from the inside outwards. -/
def resumeAll : List Layer → Exec Flow → Exec Flow
  | [], step => step
  | layer :: outer, step => resumeAll outer (resume machine env layer step)

/-- What runs when a signal leaves a layer. -/
def leave : Layer → Exec Flow
  | .handled name _ previous => do
    unbindHandled env name
    change fun world => { world with handling := previous }
    return .done
  | .guarded cleanup => executeAll machine env cleanup
  | _ => return .done

/-- What runs when a signal leaves all layers. A layer with a signal of its own stops this. -/
def leaveAll : List Layer → Exec Flow
  | [] => return .done
  | layer :: outer => do
    match ← leave machine env layer with
    | .done => leaveAll outer
    | flow => return flow

/-! ### Ways into a statement -/

/-- The first branch whose condition holds, or the `else` block. -/
inductive Chooses (otherwise : Option (List Stmt)) :
    List Branch → World → List Stmt → World → Prop
  | here {location condition body rest before here} :
    holds machine env location condition before = .ok true here →
    Chooses otherwise (.mk location condition body :: rest) before body here
  | later {location condition body rest before middle block here} :
    holds machine env location condition before = .ok false middle →
    Chooses otherwise rest middle block here →
    Chooses otherwise (.mk location condition body :: rest) before block here
  | otherwise {block here} : otherwise = some block → Chooses otherwise [] here block here

/-- The first handler that catches an exception. -/
inductive Catches (id : RaisedId) :
    List Handler → World → Option String → List Stmt → World → Prop
  | here {location class_ name body rest before here} :
    settle (handlerMatches machine env location class_ id) before = .ok (.ok true) here →
    Catches id (.mk location class_ name body :: rest) before name body here
  | later {location class_ name body rest before middle found block here} :
    settle (handlerMatches machine env location class_ id) before = .ok (.ok false) middle →
    Catches id rest middle found block here →
    Catches id (.mk location class_ name body :: rest) before found block here

/-- The rounds of a loop begin. -/
inductive Starts : Stmt → World → Looping → World → Prop
  | whileLoop {location condition body otherwise start} :
    Starts (.whileLoop location condition body otherwise) start
      (.whileTrue location condition body otherwise) start
  | forLoop {location target iterable body otherwise before iterator start} :
    traced location env (do iter machine (← evaluate machine env iterable)) before =
      .ok iterator start →
    Starts (.forLoop location target iterable body otherwise) before
      (.forEach location target iterable body otherwise iterator) start

/-- Some rounds of a loop, after each of which it goes on with the next one. -/
inductive Rounds (looping : Looping) : Nat → World → Nat → World → Prop
  | none {left here} : Rounds looping left here left here
  | more {first before next flow middle left here} :
    looping.goesOn machine env before = .ok true next →
    executeAll machine env looping.body next = .ok flow middle → Round.ofFlow flow = .again →
    Rounds looping first middle left here → Rounds looping (first + 1) before left here

/-- A run comes to a block of a `try` statement, other than its cleanup. -/
inductive EntersAttempt (body : List Stmt) (handlers : List Handler)
    (otherwise : Option (List Stmt)) : World → List Stmt → World → List Layer → Prop
  | body {here} :
    EntersAttempt body handlers otherwise here body here [.attempted handlers otherwise]
  | handler {before id failed name block caught here} :
    executeAll machine env body before = .error (.raised id) failed →
    Catches machine env id handlers failed name block caught →
    bindHandled env name id { caught with handling := some id } = .ok () here →
    EntersAttempt body handlers otherwise before block here [.handled name id caught.handling]
  | otherwise {before block here} :
    executeAll machine env body before = .ok .done here → otherwise = some block →
    EntersAttempt body handlers otherwise before block here []

/-- A run of a statement comes to one of its blocks. The bodies of functions and classes run in
scopes of their own. -/
inductive Enters : Stmt → World → List Stmt → World → List Layer → Prop
  | branch {location branches otherwise before block here} :
    Chooses machine env otherwise branches before block here →
    Enters (.choice location branches otherwise) before block here []
  | round {statement before looping start left reached here} :
    Starts machine env statement before looping start →
    Rounds machine env looping machine.budget start (left + 1) reached →
    looping.goesOn machine env reached = .ok true here →
    Enters statement before looping.body here [.round looping left]
  | loopElse {statement before looping start left reached block here} :
    Starts machine env statement before looping start →
    Rounds machine env looping machine.budget start (left + 1) reached →
    looping.goesOn machine env reached = .ok false here → looping.otherwise = some block →
    Enters statement before block here []
  | attempt {location body handlers otherwise cleanup before block here layers} :
    EntersAttempt machine env body handlers otherwise before block here layers →
    Enters (.attempt location body handlers otherwise cleanup) before block here
      (layers ++ Layer.guards cleanup)
  | cleanup {location body handlers otherwise cleanup before outcome here} :
    attemptThen machine env handlers otherwise (executeAll machine env body) before =
      .ok outcome here →
    Enters (.attempt location body handlers otherwise (some cleanup)) before cleanup here
      [.cleaning outcome]

/-- A run of a block comes to a statement, with these layers around it. -/
inductive ComesTo : List Stmt → World → Stmt → World → List Layer → Prop
  | first {statement rest before here} :
    traced statement.location env checkInterrupt before = .ok () here →
    ComesTo (statement :: rest) before statement here [.block rest]
  | later {statement rest before middle next target here layers} :
    traced statement.location env checkInterrupt before = .ok () middle →
    execute machine env statement middle = .ok .done next →
    ComesTo rest next target here layers → ComesTo (statement :: rest) before target here layers
  | inside {statement rest before middle block start outer target here inner} :
    traced statement.location env checkInterrupt before = .ok () middle →
    Enters machine env statement middle block start outer →
    ComesTo block start target here inner →
    ComesTo (statement :: rest) before target here (inner ++ (outer ++ [.block rest]))

end Resuming

/-! ### Layers only look at how a step ended -/

section Congruence

variable {α : Type} {machine : Machine} {env : Env} {world middle : World}

theorem settle_same {step other : Exec α} (same : step world = other middle) :
    settle step world = settle other middle := by
  rw [settle, settle, same]

theorem resume_same (layer : Layer) {step other : Exec Flow} (same : step world = other middle) :
    resume machine env layer step world = resume machine env layer other middle := by
  cases layer with
  | block => exact bind_same _ same
  | attempted => exact bind_same _ (bind_same _ (settle_same same))
  | handled =>
    rw [resume, resume, thenAlways, thenAlways]
    rw [bind_same _ (settle_same same)]
  | guarded => exact bind_same _ (settle_same same)
  | cleaning => exact bind_same _ (settle_same same)
  | round => exact bind_same _ same

theorem resumeAll_same (layers : List Layer) {step other : Exec Flow}
    (same : step world = other middle) :
    resumeAll machine env layers step world = resumeAll machine env layers other middle := by
  induction layers generalizing step other with
  | nil => exact same
  | cons layer outer inductionHypothesis => exact inductionHypothesis (resume_same layer same)

theorem resumeAll_append (inner outer : List Layer) (step : Exec Flow) :
    resumeAll machine env (inner ++ outer) step =
      resumeAll machine env outer (resumeAll machine env inner step) := by
  induction inner generalizing step with
  | nil => rfl
  | cons layer rest inductionHypothesis => exact inductionHypothesis _

end Congruence

/-! ### What the layers stand for -/

section Running

variable {machine : Machine} {env : Env}

/-- A loop goes on with a round, or with its `else` block. -/
theorem run_succ (looping : Looping) (left : Nat) :
    looping.run machine env (left + 1) = (do
      if ← looping.goesOn machine env then
        resume machine env (.round looping left) (executeAll machine env looping.body)
      else executeElse machine env looping.otherwise) := by
  simp only [Looping.run, loop, repeatUntil, Looping.round, resume, bind_assoc]
  refine bind_congr fun goesOn => ?_
  cases goesOn with
  | false => simp
  | true =>
    simp only [if_true, bind_assoc, pure_bind]
    refine bind_congr fun flow => ?_
    cases flow <;> rfl

theorem Starts.execute_eq {statement : Stmt} {before start : World} {looping : Looping}
    (starts : Starts machine env statement before looping start) :
    execute machine env statement before = looping.run machine env machine.budget start := by
  cases starts with
  | whileLoop =>
    rw [execute]
    rfl
  | @forLoop location target iterable body otherwise _ iterator _ started =>
    rw [execute, bind_of_ok started]
    have round : Looping.round machine env
        (.forEach location target iterable body otherwise iterator) = (do
          match ← traced location env (next? machine iterator) with
          | none => return none
          | some element =>
            traced location env (assign machine env element target)
            return some (.ofFlow (← executeAll machine env body))) := by
      simp only [Looping.round, Looping.goesOn, bind_assoc]
      refine bind_congr fun element => ?_
      cases element with
      | none => rfl
      | some element =>
        simp only [bind_assoc, pure_bind]
        rfl
    rw [Looping.run, round]
    rfl

theorem Rounds.run_eq {looping : Looping} {first left : Nat} {before here : World}
    (rounds : Rounds machine env looping first before left here) :
    looping.run machine env first before = looping.run machine env left here := by
  induction rounds with
  | none => rfl
  | @more first _ _ _ _ _ _ goesOn done again _ inductionHypothesis =>
    have resumed : resume machine env (.round looping first)
        (executeAll machine env looping.body) _ = _ := bind_of_ok done
    rw [run_succ, bind_of_ok goesOn, if_pos rfl, resumed, again]
    exact inductionHypothesis

theorem Chooses.executeBranches_eq {otherwise : Option (List Stmt)} {branches : List Branch}
    {before here : World} {block : List Stmt}
    (chooses : Chooses machine env otherwise branches before block here) :
    executeBranches machine env (executeElse machine env otherwise) branches before =
      executeAll machine env block here := by
  induction chooses with
  | here holds =>
    rw [executeBranches, bind_of_ok holds]
    rfl
  | later holds _ inductionHypothesis =>
    rw [executeBranches, bind_of_ok holds]
    exact inductionHypothesis
  | otherwise known =>
    rw [executeBranches, known, executeElse]

theorem Catches.executeHandlers_eq {id : RaisedId} {handlers : List Handler}
    {before caught : World} {name : Option String} {block : List Stmt}
    (catches : Catches machine env id handlers before name block caught) :
    executeHandlers machine env id handlers before =
      handleWith env name id (executeAll machine env block) caught := by
  induction catches with
  | here found => rw [executeHandlers, bind_of_ok found]
  | later found _ inductionHypothesis =>
    rw [executeHandlers, bind_of_ok found]
    exact inductionHypothesis

theorem handleWith_eq (machine : Machine) {name : Option String} {id : RaisedId}
    {caught here : World}
    (bound : bindHandled env name id { caught with handling := some id } = .ok () here)
    (body : Exec Flow) :
    handleWith env name id body caught =
      resume machine env (.handled name id caught.handling) body here := by
  have ran : runHandler env name id body { caught with handling := some id } =
      (do endHandler env name id (← settle body)) here := bind_of_ok bound
  change thenAlways (runHandler env name id body) _ { caught with handling := some id } = _
  rw [thenAlways, ran]
  rfl

theorem release_settle {α : Type} (step : Exec α) : (do release (← settle step)) = step := by
  funext world
  cases ended : step world with
  | ok value after => exact bind_of_ok (settle_ok ended)
  | error failure after =>
    have settled := settle_error ended
    split at settled
    · exact bind_of_error settled
    · exact bind_of_ok settled

/-- What a step gives is how another one ended, with a failure that leaves room for cleanup or none.
Only a failure without such room ends the step itself. -/
def Settles {α : Type} (step : Exec (Except Failure α)) : Prop :=
  ∀ (world after : World) (failure : Failure),
    (step world = .ok (.error failure) after → ¬ failure.isFatal) ∧
    (step world = .error failure after → failure.isFatal)

theorem settles_settle {α : Type} (step : Exec α) : Settles (settle step) := by
  intro world after failure
  cases ended : step world with
  | ok value last =>
    rw [settle_ok ended]
    exact ⟨nofun, nofun⟩
  | error known last =>
    rw [settle_error ended]
    split
    next fatal => exact ⟨nofun, fun same => by cases same; exact fatal⟩
    next mild => exact ⟨fun same => by cases same; exact mild, nofun⟩

theorem settles_attemptThen (handlers : List Handler) (otherwise : Option (List Stmt))
    (step : Exec Flow) : Settles (attemptThen machine env handlers otherwise step) := by
  intro world after failure
  have settled := settles_settle step world
  cases ended : settle step world with
  | error known last =>
    rw [attemptThen, bind_of_error ended, ← ended]
    exact settled after failure
  | ok outcome last =>
    rw [attemptThen, bind_of_ok ended]
    split
    · exact settles_settle _ _ _ _
    · exact settles_settle _ _ _ _
    · exact ⟨fun same => by cases same; exact (settled _ _).1 ended, by rintro ⟨⟩⟩

theorem settle_release {α : Type} {step : Exec (Except Failure α)} (settles : Settles step) :
    settle (do release (← step)) = step := by
  funext world
  cases ended : step world with
  | error failure after =>
    rw [settle_error (bind_of_error ended), if_pos ((settles world after failure).2 ended)]
  | ok outcome after =>
    cases outcome with
    | ok value => exact settle_ok (bind_of_ok ended)
    | error failure =>
      have released : (do release (← step)) world = .error failure after := bind_of_ok ended
      rw [settle_error released, if_neg ((settles world after failure).1 ended)]

theorem execute_attempt (location : Location) (body : List Stmt) (handlers : List Handler)
    (otherwise cleanup : Option (List Stmt)) :
    execute machine env (.attempt location body handlers otherwise cleanup) =
      resumeAll machine env (.attempted handlers otherwise :: Layer.guards cleanup)
        (executeAll machine env body) := by
  have main : execute machine env (.attempt location body handlers otherwise cleanup) = (do
      let outcome ← attemptThen machine env handlers otherwise (executeAll machine env body)
      match cleanup with
      | none => release outcome
      | some block => cleanUp outcome (executeAll machine env block)) := by
    rw [execute, attemptThen, bind_assoc]
    refine bind_congr fun ended => ?_
    rcases ended with failure | flow
    · cases failure <;> rfl
    · cases flow <;> rfl
  rw [main]
  cases cleanup with
  | none => rfl
  | some block =>
    change _ = (do cleanUp (← settle (do release (← attemptThen machine env handlers otherwise
      (executeAll machine env body)))) (executeAll machine env block))
    rw [settle_release (settles_attemptThen handlers otherwise _)]

theorem EntersAttempt.resume_eq {body block : List Stmt} {handlers : List Handler}
    {otherwise : Option (List Stmt)} {before here : World} {layers : List Layer}
    (enters : EntersAttempt machine env body handlers otherwise before block here layers) :
    resume machine env (.attempted handlers otherwise) (executeAll machine env body) before =
      resumeAll machine env layers (executeAll machine env block) here := by
  cases enters with
  | body => rfl
  | handler failed catches bound =>
    have settled : settle (executeAll machine env body) before = _ := settle_error failed
    have handled : attemptThen machine env handlers otherwise (executeAll machine env body) before =
        settle (executeHandlers machine env _ handlers) _ := bind_of_ok settled
    change (do release (← attemptThen machine env handlers otherwise _)) before = _
    rw [bind_same _ handled, release_settle]
    exact catches.executeHandlers_eq.trans (handleWith_eq machine bound _)
  | otherwise done known =>
    have settled : settle (executeAll machine env body) before = _ := settle_ok done
    have continued : attemptThen machine env handlers otherwise (executeAll machine env body)
        before = settle (executeElse machine env otherwise) _ := bind_of_ok settled
    change (do release (← attemptThen machine env handlers otherwise _)) before = _
    rw [bind_same _ continued, release_settle, known, executeElse]
    rfl

theorem Enters.execute_eq {statement : Stmt} {before here : World} {block : List Stmt}
    {layers : List Layer} (enters : Enters machine env statement before block here layers) :
    execute machine env statement before =
      resumeAll machine env layers (executeAll machine env block) here := by
  cases enters with
  | branch chooses =>
    rw [execute]
    exact chooses.executeBranches_eq
  | round starts rounds goesOn =>
    rw [starts.execute_eq, rounds.run_eq, run_succ, bind_of_ok goesOn]
    rfl
  | loopElse starts rounds goesOn known =>
    rw [starts.execute_eq, rounds.run_eq, run_succ, bind_of_ok goesOn, known]
    rfl
  | attempt enters =>
    rw [execute_attempt, resumeAll_append]
    exact resumeAll_same _ enters.resume_eq
  | cleanup ended =>
    rw [execute_attempt]
    change (do cleanUp (← settle (do release (← attemptThen _ _ _ _ _))) _) before = _
    rw [settle_release (settles_attemptThen _ _ _), bind_of_ok ended]
    rfl

/-- To run a block is to run the statement that it comes to, and to go on with the layers around
it. -/
theorem ComesTo.executeAll_eq {block : List Stmt} {before here : World} {target : Stmt}
    {layers : List Layer} (comesTo : ComesTo machine env block before target here layers) :
    executeAll machine env block before =
      resumeAll machine env layers (execute machine env target) here := by
  induction comesTo with
  | first checked =>
    rw [executeAll, bind_of_ok checked]
    rfl
  | later checked done _ inductionHypothesis =>
    rw [executeAll, bind_of_ok checked, bind_of_ok done]
    exact inductionHypothesis
  | inside checked enters _ inductionHypothesis =>
    rw [executeAll, bind_of_ok checked, resumeAll_append, resumeAll_append]
    refine bind_same _ ?_
    rw [enters.execute_eq]
    exact resumeAll_same _ inductionHypothesis

/-! ### Signals on their way out -/

/-- A signal leaves a layer as it is, after what the layer runs on its way. Only a loop around it
takes up a signal that is meant for loops. -/
theorem resume_signal {layer : Layer} {step : Exec Flow} {flow : Flow} {world middle after : World}
    (signal : flow ≠ .done) (passes : flow.isForLoop → layer.looping? = none)
    (done : step world = .ok flow middle)
    (left : leave machine env layer middle = .ok .done after) :
    resume machine env layer step world = .ok flow after := by
  cases layer with
  | block rest =>
    cases left
    rw [resume, bind_of_ok done]
    cases flow with
    | done => exact absurd rfl signal
    | _ => rfl
  | attempted handlers otherwise =>
    cases left
    have passed : attemptThen machine env handlers otherwise step world =
        .ok (.ok flow) middle := by
      rw [attemptThen, bind_of_ok (settle_ok done)]
      cases flow with
      | done => exact absurd rfl signal
      | _ => rfl
    exact bind_of_ok passed
  | handled name id previous =>
    obtain ⟨_, last, unbound, changed⟩ := exists_of_bind_eq_ok left
    cases changed
    have ended : (do endHandler env name id (← settle step)) world = .ok flow last := by
      rw [bind_of_ok (settle_ok done)]
      exact bind_of_ok unbound
    rw [resume, thenAlways, ended]
  | guarded cleanup =>
    have cleaned : executeAll machine env cleanup middle = .ok .done after := left
    rw [resume, bind_of_ok (settle_ok done), cleanUp, bind_of_ok (settle_ok cleaned)]
    rfl
  | cleaning outcome =>
    cases left
    rw [resume, cleanUp, bind_of_ok (settle_ok done)]
    cases flow with
    | done => exact absurd rfl signal
    | _ => rfl
  | round looping rounds =>
    cases left
    rw [resume, bind_of_ok done]
    cases flow with
    | done => exact absurd rfl signal
    | returned => rfl
    | _ => cases passes rfl

/-- A signal leaves all layers as it is, after what they run on its way. -/
theorem resumeAll_signal {layers : List Layer} {step : Exec Flow} {flow : Flow}
    {world middle after : World} (signal : flow ≠ .done)
    (passes : flow.isForLoop → ∀ layer ∈ layers, layer.looping? = none)
    (done : step world = .ok flow middle)
    (left : leaveAll machine env layers middle = .ok .done after) :
    resumeAll machine env layers step world = .ok flow after := by
  induction layers generalizing step middle with
  | nil =>
    cases left
    exact done
  | cons layer outer inductionHypothesis =>
    obtain ⟨own, last, ended, left⟩ := exists_of_bind_eq_ok left
    cases own with
    | done =>
      have resumed := resume_signal signal (fun forLoop => passes forLoop _ List.mem_cons_self) done
        ended
      exact inductionHypothesis (fun forLoop layer inside =>
        passes forLoop layer (List.mem_cons_of_mem _ inside)) resumed left
    | _ => cases left

theorem leaveAll_append (inner outer : List Layer) :
    leaveAll machine env (inner ++ outer) = (do
      match ← leaveAll machine env inner with
      | .done => leaveAll machine env outer
      | flow => return flow) := by
  induction inner with
  | nil => rfl
  | cons layer rest inductionHypothesis =>
    simp only [List.cons_append, leaveAll, bind_assoc]
    refine bind_congr fun flow => ?_
    cases flow with
    | done => exact inductionHypothesis
    | _ => rfl

end Running

end Exec

end Offside
