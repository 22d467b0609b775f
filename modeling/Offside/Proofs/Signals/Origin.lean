/-
This file proves that signals come from nowhere but from the statements that give them. A
block that ends with a signal has come to such a statement, and the signal has left all the
layers in between, so it was not meant for a loop among them. This is the converse of what
was proved of layers: there it is said what becomes of the signal of a statement that a run
has come to, and here that every signal is one of those.
-/

import Offside.Proofs.Signals.Places

namespace Offside

/-! ### Simple statements -/

/-- The signals that a simple statement gives on a line. -/
def Simple.Gives (location : Location) (action : Simple) : Flow → Prop
  | .done => True
  | .returned place _ => place = location ∧ ∃ value, action = .returnValue value
  | .broken place => place = location ∧ action = .breakLoop
  | .continued place => place = location ∧ action = .continueLoop

namespace Exec

variable {machine : Machine} {env : Env} {before here : World} {block : List Stmt}
  {layers : List Layer}

theorem raiseNew_fails (value : Ref) {flow : Flow} {world after : World} :
    raiseNew value world ≠ .ok flow after := by
  intro done
  obtain ⟨handling, _, -, done⟩ := exists_of_bind_eq_ok done
  cases handling with
  | none =>
    obtain ⟨_, _, -, thrown⟩ := exists_of_bind_eq_ok done
    cases thrown
  | some current =>
    obtain ⟨raised, _, -, done⟩ := exists_of_bind_eq_ok done
    split at done
    · cases done
    · obtain ⟨_, _, -, done⟩ := exists_of_bind_eq_ok done
      obtain ⟨_, _, -, thrown⟩ := exists_of_bind_eq_ok done
      cases thrown

theorem raiseAgain_fails {flow : Flow} {world after : World} :
    raiseAgain world ≠ .ok flow after := by
  intro done
  obtain ⟨handling, _, -, done⟩ := exists_of_bind_eq_ok done
  cases handling with
  | none =>
    obtain ⟨_, _, -, thrown⟩ := exists_of_bind_eq_ok done
    cases thrown
  | some current => cases done

theorem runSimple_gives {location : Location} {action : Simple} {flow : Flow} {world after : World}
    (done : runSimple machine env location action world = .ok flow after) :
    Simple.Gives location action flow := by
  have ofDone {α : Type} {step : Exec α} {world : World}
      (done : (do let _ ← step; return Flow.done) world = .ok flow after) :
      Simple.Gives location action flow := by
    obtain ⟨_, _, -, done⟩ := exists_of_bind_eq_ok done
    cases done
    trivial
  cases action with
  | expression => exact ofDone done
  | assign =>
    obtain ⟨_, _, -, done⟩ := exists_of_bind_eq_ok done
    exact ofDone done
  | pass =>
    cases done
    trivial
  | breakLoop =>
    cases done
    exact ⟨rfl, rfl⟩
  | continueLoop =>
    cases done
    exact ⟨rfl, rfl⟩
  | returnValue value =>
    cases value with
    | none =>
      cases done
      exact ⟨rfl, _, rfl⟩
    | some value =>
      obtain ⟨_, _, -, done⟩ := exists_of_bind_eq_ok done
      cases done
      exact ⟨rfl, _, rfl⟩
  | raiseValue value =>
    cases value with
    | none => exact (raiseAgain_fails done).elim
    | some value =>
      obtain ⟨_, _, -, done⟩ := exists_of_bind_eq_ok done
      obtain ⟨_, _, -, done⟩ := exists_of_bind_eq_ok done
      exact (raiseNew_fails _ done).elim
  | delete => exact ofDone done
  | importModule => exact ofDone done
  | importNames => exact ofDone done

/-! ### Blocks -/

section Origin

variable {flow : Flow} {after : World} (signal : flow ≠ .done)

/-- A block ends with a signal, which leaves the layers around it as it is. -/
def Passes (machine : Machine) (env : Env) (block : List Stmt) (here : World)
    (layers : List Layer) (flow : Flow) (after : World) : Prop :=
  ∃ middle, executeAll machine env block here = .ok flow middle ∧
    leaveAll machine env layers middle = .ok .done after ∧
    (flow.isForLoop → ∀ layer ∈ layers, layer.looping? = none)

/-- What is left around a block may be left out where nothing runs on the way. -/
theorem Passes.of_nil (done : executeAll machine env block here = .ok flow after) :
    Passes machine env block here [] flow after :=
  ⟨after, done, rfl, fun _ _ inside => by cases inside⟩

theorem of_release_eq_ok {α : Type} {outcome : Except Failure α} {value : α} {world after : World}
    (done : release outcome world = .ok value after) : outcome = .ok value ∧ world = after := by
  cases outcome <;> cases done
  exact ⟨rfl, rfl⟩

theorem of_settle_eq_ok {α : Type} {step : Exec α} {outcome : Except Failure α}
    {world after : World} (done : settle step world = .ok outcome after) :
    match outcome with
    | .ok value => step world = .ok value after
    | .error failure => step world = .error failure after := by
  cases ended : step world with
  | ok value last =>
    rw [settle_ok ended] at done
    cases done
    rfl
  | error failure last =>
    rw [settle_error ended] at done
    split at done
    · cases done
    · cases done
      rfl

/-- The rounds of a loop end with a signal that is not for the loop, or its `else` block ends with
one. -/
def EndsRounds (machine : Machine) (env : Env) (looping : Looping) (first : Nat) (before : World)
    (flow : Flow) (after : World) : Prop :=
  ∃ left reached goesOn here, Rounds machine env looping first before (left + 1) reached ∧
    looping.goesOn machine env reached = .ok goesOn here ∧
    if goesOn then executeAll machine env looping.body here = .ok flow after ∧ ¬ flow.isForLoop
    else executeElse machine env looping.otherwise here = .ok flow after

theorem exists_catches {id : RaisedId} {handlers : List Handler}
    (done : executeHandlers machine env id handlers before = .ok flow after) :
    ∃ name block caught, Catches machine env id handlers before name block caught ∧
      handleWith env name id (executeAll machine env block) caught = .ok flow after := by
  induction handlers generalizing before with
  | nil =>
    rw [executeHandlers] at done
    cases done
  | cons handler rest inductionHypothesis =>
    obtain ⟨location, class_, name, body⟩ := handler
    rw [executeHandlers] at done
    obtain ⟨outcome, middle, settled, done⟩ := exists_of_bind_eq_ok done
    cases outcome with
    | error failure =>
      obtain ⟨_, _, -, thrown⟩ := exists_of_bind_eq_ok done
      cases thrown
    | ok found =>
      cases found with
      | true => exact ⟨name, body, middle, .here settled, done⟩
      | false =>
        obtain ⟨name, block, caught, catches, done⟩ := inductionHypothesis done
        exact ⟨name, block, caught, .later settled catches, done⟩

/-- A handler adds nothing to how its body ends, if that is no failure. -/
theorem exists_of_resume_handled {name : Option String} {id : RaisedId}
    {previous : Option RaisedId} {step : Exec Flow}
    (done : resume machine env (.handled name id previous) step before = .ok flow after) :
    ∃ middle, step before = .ok flow middle ∧
      leave machine env (.handled name id previous) middle = .ok .done after := by
  rw [resume, thenAlways] at done
  split at done
  next value last ended =>
    cases done
    obtain ⟨outcome, middle, settled, ended⟩ := exists_of_bind_eq_ok ended
    have stepped := of_settle_eq_ok settled
    cases outcome with
    | error failure =>
      obtain ⟨_, _, -, ended⟩ := exists_of_bind_eq_ok ended
      obtain ⟨_, _, -, ended⟩ := exists_of_bind_eq_ok ended
      cases ended
    | ok value =>
      obtain ⟨_, _, linked, ended⟩ := exists_of_bind_eq_ok ended
      cases linked
      obtain ⟨_, _, unbinds, ended⟩ := exists_of_bind_eq_ok ended
      cases ended
      exact ⟨middle, stepped, bind_of_ok unbinds⟩
  next => cases done

include signal

theorem exists_of_executeElse {otherwise : Option (List Stmt)}
    (done : executeElse machine env otherwise here = .ok flow after) :
    ∃ block, otherwise = some block ∧ executeAll machine env block here = .ok flow after := by
  cases otherwise with
  | none =>
    rw [executeElse] at done
    cases done
    exact (signal rfl).elim
  | some block =>
    rw [executeElse] at done
    exact ⟨block, rfl, done⟩

theorem exists_chooses {otherwise : Option (List Stmt)} {branches : List Branch}
    (done : executeBranches machine env (executeElse machine env otherwise) branches before =
      .ok flow after) :
    ∃ block here, Chooses machine env otherwise branches before block here ∧
      executeAll machine env block here = .ok flow after := by
  induction branches generalizing before with
  | nil =>
    rw [executeBranches] at done
    obtain ⟨block, known, done⟩ := exists_of_executeElse signal done
    exact ⟨block, before, .otherwise known, done⟩
  | cons branch rest inductionHypothesis =>
    obtain ⟨location, condition, body⟩ := branch
    rw [executeBranches] at done
    obtain ⟨held, middle, holds, done⟩ := exists_of_bind_eq_ok done
    cases held with
    | true => exact ⟨body, middle, .here holds, done⟩
    | false =>
      obtain ⟨block, here, chooses, done⟩ := inductionHypothesis done
      exact ⟨block, here, .later holds chooses, done⟩

theorem endsRounds_of_run {looping : Looping} {first : Nat}
    (done : looping.run machine env first before = .ok flow after) :
    EndsRounds machine env looping first before flow after := by
  induction first generalizing before with
  | zero => cases done
  | succ first inductionHypothesis =>
    rw [run_succ] at done
    obtain ⟨goesOn, here, held, done⟩ := exists_of_bind_eq_ok done
    cases goesOn with
    | false => exact ⟨first, before, false, here, .none, held, done⟩
    | true =>
      obtain ⟨own, middle, ended, done⟩ := exists_of_bind_eq_ok done
      have further (again : Round.ofFlow own = .again)
          (done : looping.run machine env first middle = .ok flow after) :
          EndsRounds machine env looping (first + 1) before flow after := by
        obtain ⟨left, reached, goesOn, last, rounds, ends⟩ := inductionHypothesis done
        exact ⟨left, reached, goesOn, last, Rounds.more held ended again rounds, ends⟩
      cases own with
      | done => exact further rfl done
      | continued => exact further rfl done
      | broken =>
        cases done
        exact (signal rfl).elim
      | returned location value =>
        cases done
        exact ⟨first, before, true, here, .none, held, ended, Bool.false_ne_true⟩

/-- A signal that leaves a `try` statement before its cleanup comes from one of its blocks. -/
theorem exists_entersAttempt {body : List Stmt} {handlers : List Handler}
    {otherwise : Option (List Stmt)}
    (done : attemptThen machine env handlers otherwise (executeAll machine env body) before =
      .ok (.ok flow) after) :
    ∃ block here layers,
      EntersAttempt machine env body handlers otherwise before block here layers ∧
        Passes machine env block here layers flow after := by
  obtain ⟨outcome, middle, settled, done⟩ := exists_of_bind_eq_ok done
  have ended := of_settle_eq_ok settled
  split at done
  next id =>
    obtain ⟨name, block, caught, catches, handled⟩ := exists_catches (of_settle_eq_ok done)
    obtain ⟨here, bound⟩ := bindHandled_succeeds env name id { caught with handling := some id }
    rw [handleWith_eq machine bound] at handled
    obtain ⟨last, done, left⟩ := exists_of_resume_handled handled
    refine ⟨block, here, _, .handler ended catches bound, last, done, ?_, ?_⟩
    · exact bind_of_ok left
    · simp [Layer.looping?]
  next =>
    obtain ⟨block, known, done⟩ := exists_of_executeElse signal (of_settle_eq_ok done)
    exact ⟨block, middle, [], .otherwise ended known, .of_nil done⟩
  next =>
    cases done
    refine ⟨body, before, _, .body, after, ended, rfl, ?_⟩
    simp [Layer.looping?]

/-- A signal that leaves a loop comes from the last round that was begun, or from the `else` block. -/
theorem exists_enters_loop {statement : Stmt} {looping : Looping} {start : World}
    (done : execute machine env statement before = .ok flow after)
    (starts : Starts machine env statement before looping start) :
    ∃ block here layers, Enters machine env statement before block here layers ∧
      Passes machine env block here layers flow after := by
  rw [starts.execute_eq] at done
  obtain ⟨left, reached, goesOn, here, rounds, held, ended⟩ := endsRounds_of_run signal done
  cases goesOn with
  | true =>
    refine ⟨_, here, _, .round starts rounds held, after, ended.1, rfl, ?_⟩
    exact fun forLoop => absurd forLoop ended.2
  | false =>
    obtain ⟨block, known, ended⟩ := exists_of_executeElse signal ended
    exact ⟨block, here, [], .loopElse starts rounds held known, .of_nil ended⟩

/-- A signal that leaves a `try` statement comes from its cleanup, or from another one of its blocks
and its cleanup had none. -/
theorem exists_enters_attempt {location : Location} {body : List Stmt} {handlers : List Handler}
    {otherwise cleanup : Option (List Stmt)}
    (done : execute machine env (.attempt location body handlers otherwise cleanup) before =
      .ok flow after) :
    ∃ block here layers,
      Enters machine env (.attempt location body handlers otherwise cleanup) before block here
        layers ∧ Passes machine env block here layers flow after := by
  rw [execute_attempt] at done
  cases cleanup with
  | none =>
    obtain ⟨outcome, middle, ended, released⟩ := exists_of_bind_eq_ok done
    obtain ⟨rfl, rfl⟩ := of_release_eq_ok released
    obtain ⟨block, here, layers, enters, passes⟩ := exists_entersAttempt signal ended
    refine ⟨block, here, _, .attempt enters, ?_⟩
    rwa [Layer.guards, List.append_nil]
  | some cleanup =>
    have main : (do cleanUp (← attemptThen machine env handlers otherwise
        (executeAll machine env body)) (executeAll machine env cleanup)) before =
        .ok flow after := by
      rw [← settle_release (settles_attemptThen handlers otherwise _)]
      exact done
    obtain ⟨outcome, middle, ended, cleaned⟩ := exists_of_bind_eq_ok main
    obtain ⟨own, last, settled, finished⟩ := exists_of_bind_eq_ok cleaned
    have ownEnded := of_settle_eq_ok settled
    split at finished
    · obtain ⟨_, _, -, thrown⟩ := exists_of_bind_eq_ok finished
      cases thrown
    · cases finished
    · obtain ⟨rfl, rfl⟩ := of_release_eq_ok finished
      obtain ⟨block, here, layers, enters, inner, passed, left, passes⟩ :=
        exists_entersAttempt signal ended
      refine ⟨block, here, _, .attempt enters, inner, passed, ?_, fun forLoop => ?_⟩
      · rw [leaveAll_append, bind_of_ok left]
        exact bind_of_ok ownEnded
      · rw [List.forall_mem_append]
        exact ⟨passes forLoop, by simp [Layer.guards, Layer.looping?]⟩
    · cases finished
      refine ⟨cleanup, middle, _, .cleanup ended, after, ownEnded, rfl, ?_⟩
      simp [Layer.looping?]

/-- A signal that leaves a statement comes from one of its blocks, unless the statement has none. -/
theorem exists_enters {statement : Stmt}
    (done : execute machine env statement before = .ok flow after) :
    (∃ location action, statement = .simple location action ∧
      runSimple machine env location action before = .ok flow after) ∨
    ∃ block here layers, Enters machine env statement before block here layers ∧
      Passes machine env block here layers flow after := by
  cases statement with
  | simple location action =>
    rw [execute] at done
    exact .inl ⟨location, action, rfl, of_traced_eq_ok done⟩
  | choice location branches otherwise =>
    rw [execute] at done
    obtain ⟨block, here, chooses, ended⟩ := exists_chooses signal done
    exact .inr ⟨block, here, [], .branch chooses, .of_nil ended⟩
  | whileLoop location condition body otherwise => exact .inr (exists_enters_loop signal done .whileLoop)
  | forLoop location target iterable body otherwise =>
    have started := done
    rw [execute] at started
    obtain ⟨iterator, start, iterates, -⟩ := exists_of_bind_eq_ok started
    exact .inr (exists_enters_loop signal done (.forLoop iterates))
  | attempt location body handlers otherwise cleanup =>
    exact .inr (exists_enters_attempt signal done)
  | functionDef =>
    rw [execute] at done
    obtain ⟨_, _, -, ended⟩ := exists_of_bind_eq_ok done
    cases ended
    exact (signal rfl).elim
  | classDef =>
    rw [execute] at done
    obtain ⟨_, _, -, done⟩ := exists_of_bind_eq_ok done
    obtain ⟨_, _, -, ended⟩ := exists_of_bind_eq_ok done
    cases ended
    exact (signal rfl).elim

/-- A block that ends with a signal has come to a simple statement that gave it, and no loop in
between was meant. -/
theorem exists_comesTo (block : List Stmt) {before after : World}
    (done : executeAll machine env block before = .ok flow after) :
    ∃ location action here layers middle,
      ComesTo machine env block before (.simple location action) here layers ∧
      runSimple machine env location action here = .ok flow middle ∧
      leaveAll machine env layers middle = .ok .done after ∧
      (flow.isForLoop → ∀ layer ∈ layers, layer.looping? = none) := by
  match block with
  | [] =>
    rw [executeAll] at done
    cases done
    exact (signal rfl).elim
  | statement :: rest =>
    rw [executeAll] at done
    obtain ⟨_, checked, isChecked, done⟩ := exists_of_bind_eq_ok done
    obtain ⟨own, middle, ended, done⟩ := exists_of_bind_eq_ok done
    split at done
    next =>
      obtain ⟨location, action, here, layers, last, comesTo, passes⟩ :=
        exists_comesTo rest done
      exact ⟨location, action, here, layers, last, .later isChecked ended comesTo, passes⟩
    next =>
      cases done
      obtain ⟨location, action, rfl, gives⟩ |
        ⟨inner, start, outer, enters, last, passed, left, passes⟩ := exists_enters signal ended
      · refine ⟨location, action, checked, _, after, .first isChecked, gives, rfl, ?_⟩
        simp [Layer.looping?]
      · have smaller := enters.sizeOf_lt
        obtain ⟨location, action, here, nearer, given, comesTo, gives, nearerLeft, nearerPasses⟩ :=
          exists_comesTo inner passed
        refine ⟨location, action, here, _, given, .inside isChecked enters comesTo, gives, ?_,
          fun forLoop => ?_⟩
        · rw [leaveAll_append, bind_of_ok nearerLeft]
          change leaveAll machine env (outer ++ [.block rest]) last = _
          rw [leaveAll_append, bind_of_ok left]
          rfl
        · rw [List.forall_mem_append, List.forall_mem_append]
          exact ⟨nearerPasses forLoop, passes forLoop, by simp [Layer.looping?]⟩
termination_by sizeOf block
decreasing_by
  all_goals simp_wf
  all_goals omega

end Origin

end Exec

end Offside
