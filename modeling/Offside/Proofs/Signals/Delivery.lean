/-
This file proves that `break`, `continue` and `return` do what their place in the program
says. That parsing refuses a `break` that stands in no loop is what makes sure, in every
run, that there is a layer for a loop around it, and the innermost of these layers is the
one that takes the signal up. On its way there only cleanup can stop it.

Since signals come from nowhere else, nothing but a `return` can be left over at the end of
a function, and nothing at all at the end of a class or a module.
-/

import Offside.Proofs.Reached
import Offside.Proofs.Signals.Origin

namespace Offside

namespace Exec

variable {machine : Machine} {env : Env} {before here : World} {block : List Stmt}
  {layers : List Layer}

/-! ### Where signals may leave -/

/-- The signal that leaves a block is permitted where the block stands, whatever world and scope it
runs in. -/
theorem executeAll_permits {place : Block.Place} (wellFormed : Block.WellFormedAll place block)
    {flow : Flow} {after : World} (done : executeAll machine env block before = .ok flow after) :
    place.Permits flow := by
  by_cases signal : flow = .done
  · rw [signal]
    trivial
  obtain ⟨location, action, here, layers, middle, comesTo, ended, -, passes⟩ :=
    exists_comesTo signal block done
  obtain ⟨inner, within, allows⟩ := comesTo.wellFormed wellFormed
  have allows : inner.allows action := allows
  have around (inLoop : inner.inLoop) (forLoop : flow.isForLoop) : place.inLoop := by
    obtain inLoop | known := within.inLoop inLoop
    · exact inLoop
    · rw [List.findSome?_eq_none_iff.mpr (passes forLoop)] at known
      cases known
  have gives := runSimple_gives ended
  cases flow with
  | done => trivial
  | returned =>
    obtain ⟨-, value, rfl⟩ := gives
    change place.inFunction = true
    rw [← within.inFunction]
    exact allows
  | broken =>
    obtain ⟨-, rfl⟩ := gives
    exact around allows rfl
  | continued =>
    obtain ⟨-, rfl⟩ := gives
    exact around allows rfl

/-! ### Signals reach their loops -/

/-- Of the cleanup blocks on the way out, one fails or gives a signal of its own. -/
def Overridden (machine : Machine) (env : Env) (layers : List Layer) (here : World) : Prop :=
  ∃ nearer cleanup farther middle, layers = nearer ++ .guarded cleanup :: farther ∧
    leaveAll machine env nearer here = .ok .done middle ∧
    ∀ after, executeAll machine env cleanup middle ≠ .ok .done after

/-- Only cleanup can keep a signal from leaving. -/
theorem leaves_or_overridden (layers : List Layer) (here : World) :
    (∃ after, leaveAll machine env layers here = .ok .done after) ∨
      Overridden machine env layers here := by
  induction layers generalizing here with
  | nil => exact .inl ⟨here, rfl⟩
  | cons layer outer inductionHypothesis =>
    have own : (∃ middle, leave machine env layer here = .ok .done middle) ∨
        ∃ cleanup, layer = .guarded cleanup ∧
          ∀ after, executeAll machine env cleanup here ≠ .ok .done after := by
      cases layer with
      | guarded cleanup =>
        by_cases ends : ∃ after, executeAll machine env cleanup here = .ok .done after
        · exact .inl ends
        · exact .inr ⟨cleanup, rfl, fun after done => ends ⟨after, done⟩⟩
      | handled name id previous =>
        obtain ⟨after, unbound⟩ := unbindHandled_succeeds env name here
        exact .inl ⟨_, bind_of_ok unbound⟩
      | _ => exact .inl ⟨here, rfl⟩
    obtain ⟨middle, left⟩ | ⟨cleanup, rfl, overrides⟩ := own
    · have leaves : leaveAll machine env (layer :: outer) here =
          leaveAll machine env outer middle := bind_of_ok left
      obtain ⟨after, further⟩ | ⟨nearer, cleanup, farther, last, rfl, nearerLeft, overrides⟩ :=
        inductionHypothesis middle
      · exact .inl ⟨after, leaves.trans further⟩
      · exact .inr ⟨layer :: nearer, cleanup, farther, last, rfl,
          (bind_of_ok left).trans nearerLeft, overrides⟩
    · exact .inr ⟨[], cleanup, outer, here, rfl, rfl, overrides⟩

/-- Where a statement gives a signal that leaves some layers as it is, the run of the block goes on
with this signal in the layers around them. -/
theorem ComesTo.executeAll_signal {target : Stmt} {inner outer : List Layer} {flow : Flow}
    {middle after : World}
    (comesTo : ComesTo machine env block before target here (inner ++ outer))
    (signal : flow ≠ .done) (passes : flow.isForLoop → ∀ layer ∈ inner, layer.looping? = none)
    (given : execute machine env target here = .ok flow middle)
    (leaves : leaveAll machine env inner middle = .ok .done after) :
    executeAll machine env block before = resumeAll machine env outer (return flow) after := by
  rw [comesTo.executeAll_eq, resumeAll_append]
  exact resumeAll_same outer (resumeAll_signal signal passes given leaves)

theorem execute_simple {location : Location} {action : Simple} {flow : Flow} {middle : World}
    (given : runSimple machine env location action here = .ok flow middle) :
    execute machine env (.simple location action) here = .ok flow middle := by
  rw [execute]
  exact tryCatch_ok given

/-- The signal of a `return` leaves the block, unless cleanup on the way ends otherwise. -/
theorem ComesTo.returns {location place : Location} {action : Simple} {value : Ref}
    {middle : World}
    (comesTo : ComesTo machine env block before (.simple location action) here layers)
    (given : runSimple machine env location action here = .ok (.returned place value) middle) :
    Overridden machine env layers middle ∨
      ∃ after, executeAll machine env block before = .ok (.returned place value) after := by
  obtain ⟨after, leaves⟩ | overridden := leaves_or_overridden layers middle
  · rw [← List.append_nil layers] at comesTo
    exact .inr ⟨after, comesTo.executeAll_signal (by simp) nofun (execute_simple given) leaves⟩
  · exact .inl overridden

/-- The signal of a statement that the run of a block has come to is taken up by the innermost loop
whose body the statement stands in, unless cleanup on the way fails or gives another signal. A loop
that was broken ends without its `else` block; a loop that is continued goes on with the next of the
rounds that are left. In both cases it is only the layers around this loop that the run of the block
then goes on with. -/
def TakenUp (machine : Machine) (env : Env) (block : List Stmt) (before : World)
    (location : Location) (action : Simple) (here : World) (layers : List Layer) : Prop :=
  ∃ inner looping left outer, layers = inner ++ .round looping left :: outer ∧
    (∀ layer ∈ inner, layer.looping? = none) ∧
    looping.statement ∈ Stmt.partsAll block ∧
    .simple location action ∈ Stmt.looseAll looping.body ∧
    (Overridden machine env inner here ∨
      ∃ after, leaveAll machine env inner here = .ok .done after ∧
        (action = .breakLoop → executeAll machine env block before =
          resumeAll machine env outer (return .done) after) ∧
        (action = .continueLoop → executeAll machine env block before =
          resumeAll machine env outer (looping.run machine env left) after))

theorem ComesTo.takenUp {place : Block.Place} {location : Location} {action : Simple}
    (comesTo : ComesTo machine env block before (.simple location action) here layers)
    (forLoop : action.isForLoop) (wellFormed : Block.WellFormedAll place block)
    (outside : place.inLoop = false) :
    TakenUp machine env block before location action here layers := by
  have inLoop : (layers.findSome? Layer.looping?).isSome := by
    obtain ⟨inner, within, allows⟩ := comesTo.wellFormed wellFormed
    have inLoop : inner.inLoop := by
      cases action with
      | breakLoop => exact allows
      | continueLoop => exact allows
      | _ => cases forLoop
    obtain inLoop | known := within.inLoop inLoop
    · cases outside.symm.trans inLoop
    · exact known
  obtain ⟨looping, found⟩ := Option.isSome_iff_exists.mp inLoop
  have innermost := comesTo.innermost (by simp [Stmt.loose, forLoop])
  rw [found] at innermost
  obtain ⟨inner, layer, outer, rfl, known, nearer⟩ := List.findSome?_eq_some_iff.mp found
  cases layer with
  | round _ left =>
    cases known
    refine ⟨inner, looping, left, outer, rfl, nearer, innermost.1, innermost.2, ?_⟩
    obtain ⟨after, leaves⟩ | overridden := leaves_or_overridden inner here
    · refine .inr ⟨after, leaves, ?_, ?_⟩
      · rintro rfl
        have given : runSimple machine env location .breakLoop here = .ok (.broken location) here :=
          rfl
        exact (comesTo.executeAll_signal (by simp) (fun _ => nearer) (execute_simple given)
          leaves).trans (resumeAll_same outer rfl)
      · rintro rfl
        have given : runSimple machine env location .continueLoop here =
            .ok (.continued location) here := rfl
        exact (comesTo.executeAll_signal (by simp) (fun _ => nearer) (execute_simple given)
          leaves).trans (resumeAll_same outer rfl)
    · exact .inl overridden
  | _ => cases known

/-- A signal that leaves a block comes from a statement of its own, and one for loops from a
statement that is in no loop of the block. -/
theorem exists_origin {flow : Flow} (done : executeAll machine env block before = .ok flow after)
    (signal : flow ≠ .done) :
    ∃ location action here layers,
      ComesTo machine env block before (.simple location action) here layers ∧
      Simple.Gives location action flow ∧
      (flow.isForLoop → .simple location action ∈ Stmt.looseAll block) := by
  obtain ⟨location, action, here, layers, middle, comesTo, ended, -, passes⟩ :=
    exists_comesTo signal block done
  have gives := runSimple_gives ended
  refine ⟨location, action, here, layers, comesTo, gives, fun forLoop => ?_⟩
  have loose : .simple location action ∈ Stmt.loose (.simple location action) := by
    cases flow with
    | broken =>
      obtain ⟨-, rfl⟩ := gives
      simp [Stmt.loose, Simple.isForLoop]
    | continued =>
      obtain ⟨-, rfl⟩ := gives
      simp [Stmt.loose, Simple.isForLoop]
    | _ => cases forLoop
  have innermost := comesTo.innermost loose
  rwa [List.findSome?_eq_none_iff.mpr (passes forLoop)] at innermost

/-! ### Calls -/

/-- The call of a function gives what its body returned, or `None` after a body without a signal. -/
def GivesResult (machine : Machine) (definition : Definition) (value : Ref) : Prop :=
  ∃ inner start flow last, machine.run definition.body inner start = .ok flow last ∧
    (flow = .done ∧ value = noneRef ∨ ∃ location, flow = .returned location value)

theorem ofFuel_run_permits {place : Block.Place} (wellFormed : Block.WellFormedAll place block)
    {fuel : Nat} {flow : Flow} {after : World}
    (done : (Machine.ofFuel fuel).run block env before = .ok flow after) : place.Permits flow := by
  cases fuel with
  | zero => cases done
  | succ fuel =>
    have run : executeAll (Machine.ofFuel fuel) env block before = .ok flow after := done
    exact executeAll_permits wellFormed run

theorem runBody_givesResult {fuel : Nat} {name : String} {definition : Definition} {closure : Env}
    {defaults : List (String × Ref)} {arguments : List Ref} {named : List (String × Ref)}
    {value : Ref} {world after : World}
    (wellFormed : Block.WellFormedAll .function definition.body)
    (done : runBody (Machine.ofFuel fuel) name definition closure defaults arguments named world =
      .ok value after) : GivesResult (Machine.ofFuel fuel) definition value := by
  rw [runBody] at done
  cases bound : Arguments.bind name definition.parameters defaults arguments named with
  | error =>
    rw [bound] at done
    obtain ⟨_, _, -, thrown⟩ := exists_of_bind_eq_ok done
    cases thrown
  | ok table =>
    rw [bound] at done
    obtain ⟨inner, start, -, done⟩ := exists_of_bind_eq_ok done
    obtain ⟨flow, ended, ran, done⟩ := exists_of_bind_eq_ok done
    have permitted := ofFuel_run_permits wellFormed ran
    refine ⟨inner, start, flow, ended, ran, ?_⟩
    cases flow with
    | done =>
      cases done
      exact .inl ⟨rfl, rfl⟩
    | returned location value =>
      cases done
      exact .inr ⟨location, rfl⟩
    | broken => cases permitted
    | continued => cases permitted

theorem callFunction_givesResult {fuel : Nat} {function : Function} {definition : Definition}
    {closure : Env} {defaults : List (String × Ref)} {arguments : List Ref}
    {named : List (String × Ref)} {value : Ref} {world after : World}
    (code : function.code = .written definition closure defaults)
    (wellFormed : Block.WellFormedAll .function definition.body)
    (done : callFunction (Machine.ofFuel fuel) function arguments named world = .ok value after) :
    GivesResult (Machine.ofFuel fuel) definition value := by
  rw [callFunction, code] at done
  obtain ⟨depth, _, -, done⟩ := exists_of_bind_eq_ok done
  split at done
  · obtain ⟨_, _, -, thrown⟩ := exists_of_bind_eq_ok done
    cases thrown
  · obtain ⟨_, entered, -, done⟩ := exists_of_bind_eq_ok done
    obtain ⟨_, noted, -, done⟩ := exists_of_bind_eq_ok done
    rw [thenAlways] at done
    split at done
    next found last ran =>
      cases done
      exact runBody_givesResult wellFormed ran
    next => cases done

end Exec

/-! ### The main result -/

namespace World

open Exec

/-- Every function written in the language that is on the heap gives its result when it is called,
and so no other signal is taken for one. -/
def GivesResults (world : World) : Prop :=
  ∀ (callee : Ref) (function : Function) (definition : Definition) (closure : Env)
    (defaults : List (String × Ref)), (world.object callee).function = some function →
    function.code = .written definition closure defaults →
    ∀ (fuel : Nat) (arguments : List Ref) (named : List (String × Ref)) (value : Ref)
      (after : World),
      callFunction (Machine.ofFuel fuel) function arguments named world = .ok value after →
      GivesResult (Machine.ofFuel fuel) definition value

theorem Sound.givesResults {world : World} (sound : world.Sound) : world.GivesResults := by
  intro callee function definition closure defaults found code fuel arguments named value after done
  have definitionSound := sound callee function definition closure defaults found code
  exact callFunction_givesResult code definitionSound.1 done

theorem Sound.execute {world : World} (sound : world.Sound) {statement : Stmt}
    (checked : statement.Checked) (fuel : Nat) (env : Env) :
    (leftBy (Exec.execute (Machine.ofFuel fuel) env statement world)).Sound := by
  obtain ⟨place, wellFormed, statementSound⟩ := checked
  have ensures := (Machine.ofFuel_sound .idle fuel).ensures_execute env statement wellFormed
    statementSound (Stmt.everywhere_of_forall (fun _ => trivial) statement)
  exact (leftBy_checked ensures sound.kept).1

end World

namespace Program

open Exec

/-- Signals are neither lost nor misdelivered in a program that parses, on any machine and in any
scope and world. No signal leaves the body of a class, and only that of a `return` leaves the body
of a function. A signal for loops is taken up by the innermost loop whose body its statement stands
in, in the module or in the same body of a function or a class, unless cleanup on the way ends
otherwise; that of a `return` leaves its body in the same way.

A signal that leaves a block comes from a statement in it that is not in the body of a loop that the
signal is meant for. In every world of a session, and in every world that the statements of a
program lead to from there, calling a function gives what its body returned, or `None` after a body
without a signal. -/
theorem signals_delivered :
    (∀ (file text : String) (program : List Stmt), Program.parse file text = .ok program →
      (∀ location name base body, .classDef location name base body ∈ Stmt.partsAll program →
        ∀ machine env before flow after,
          executeAll machine env body before = .ok flow after → flow = .done) ∧
      (∀ location name parameters body,
        .functionDef location name parameters body ∈ Stmt.partsAll program →
        ∀ machine env before flow after, executeAll machine env body before = .ok flow after →
          flow = .done ∨ ∃ place value, flow = .returned place value) ∧
      ∀ place block, Body program place block →
        ∀ machine env before location action here layers,
          ComesTo machine env block before (.simple location action) here layers →
          (action.isForLoop → TakenUp machine env block before location action here layers) ∧
          ∀ place value middle,
            runSimple machine env location action here = .ok (.returned place value) middle →
            Overridden machine env layers middle ∨
              ∃ after, executeAll machine env block before = .ok (.returned place value) after) ∧
    (∀ machine env block before flow after,
      executeAll machine env block before = .ok flow after → flow ≠ .done →
      ∃ location action here layers,
        ComesTo machine env block before (.simple location action) here layers ∧
        Simple.Gives location action flow ∧
        (flow.isForLoop → .simple location action ∈ Stmt.looseAll block)) ∧
    (∀ world : World, world.Reached → world.Sound) ∧
    ∀ world : World, world.Sound → world.GivesResults ∧
      ∀ (file text : String) (program : List Stmt), Program.parse file text = .ok program →
        ∀ statement ∈ Stmt.partsAll program, ∀ (fuel : Nat) (env : Env),
          (World.leftBy (execute (Machine.ofFuel fuel) env statement world)).Sound := by
  refine ⟨fun file text program parsed => ⟨?_, ?_, ?_⟩, ?_, fun world => World.Reached.sound,
    fun world sound => ⟨sound.givesResults, ?_⟩⟩
  · intro location name base body inside machine env before flow after done
    have permitted := executeAll_permits (Body.wellFormed parsed (.klass inside)) done
    cases flow with
    | done => rfl
    | _ => cases permitted
  · intro location name parameters body inside machine env before flow after done
    have permitted := executeAll_permits (Body.wellFormed parsed (.function inside)) done
    cases flow with
    | done => exact .inl rfl
    | returned place value => exact .inr ⟨place, value, rfl⟩
    | _ => cases permitted
  · intro place block isBody machine env before location action here layers comesTo
    refine ⟨fun forLoop => ?_, fun _ _ _ => comesTo.returns⟩
    refine comesTo.takenUp forLoop (isBody.wellFormed parsed) ?_
    cases isBody <;> rfl
  · exact fun _ _ _ _ _ _ => exists_origin
  · intro file text program parsed statement inside fuel env
    exact sound.execute (parse_checked parsed inside) fuel env

/-- A loop that is left in its first round. -/
theorem loop_left_in_first_round :
    let loop : Stmt := .whileLoop ⟨"m", 1⟩ (.boolean ⟨"m", 1⟩ true) [.simple ⟨"m", 2⟩ .breakLoop] none
    let world := World.bare { files := ⟨"/", []⟩, input := "", output := "" } []
    Program.parse "m" "while True:\n break\n" = .ok [loop] ∧
    ∃ layers,
      ComesTo (Machine.ofFuel 1) [] [loop] world (.simple ⟨"m", 2⟩ .breakLoop) world layers ∧
      TakenUp (Machine.ofFuel 1) [] [loop] world ⟨"m", 2⟩ .breakLoop world layers := by
  intro loop world
  have parsed : Program.parse "m" "while True:\n break\n" = .ok [loop] := by
    cbv
  have comesTo :
      ComesTo (Machine.ofFuel 1) [] [loop] world (.simple ⟨"m", 2⟩ .breakLoop) world _ :=
    .inside rfl (.round .whileLoop .none rfl) (.first rfl)
  refine ⟨parsed, _, comesTo, ?_⟩
  exact ((signals_delivered.1 "m" _ _ parsed).2.2 .top _ .module _ _ _ _ _ _ _ comesTo).1 rfl

end Program

end Offside
