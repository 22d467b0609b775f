/-
This file reads the journal of modules. Every file has a state of its own, which only the
events of the file change: whether it is being run and why, the module of its last run
that succeeded, and the bindings that wait for it. A journal is lawful if each event was
permitted by the state of its file at the time. What can be said about the past of a file
then follows from the journal alone: between two starts of a file there is an end, a
module that was made once is the one that every import finds, and a deferred binding is
carried out or given up.
-/

import Mathlib.Tactic.ByContra
import Offside.Eval.Registry

namespace Offside

/-! ### The state of a file -/

/-- The path of the file that an event is about. -/
def ModuleEvent.path : ModuleEvent → String
  | .started path _ => path
  | .finished path _ => path
  | .failed path => path
  | .found path _ => path
  | .deferred path _ => path
  | .settled path _ _ => path
  | .unsettled path _ _ => path

/-- What has become of a file. -/
structure ModuleState where
  /-- Why the file is being run, if it is. -/
  run : Option Purpose
  /-- The module of the last run that succeeded. -/
  module_ : Option Ref
  /-- The bindings that wait for the run, or that are still to be carried out after it. -/
  owed : List Deferred

namespace ModuleState

/-- The state of a file that was never run. -/
def untouched : ModuleState := ⟨none, none, []⟩

/-- The event may happen to a file in this state. -/
def Permits (state : ModuleState) : ModuleEvent → Prop
  | .started _ .imported => state.run = none ∧ state.module_ = none ∧ state.owed = []
  | .started _ .main => state.run = none ∧ state.owed = []
  | .finished _ _ => state.run.isSome = true
  | .failed _ => state.run.isSome = true
  | .found _ module_ => state.module_ = some module_
  | .deferred _ _ => state.run.isSome = true ∧ state.module_ = none
  | .settled _ module_ binding | .unsettled _ module_ binding =>
    state.run = none ∧ state.module_ = some module_ ∧ state.owed.head? = some binding

/-- A file that may be started is not being run, and nothing waits for it. -/
theorem Permits.of_started {state : ModuleState} {path : String} {purpose : Purpose}
    (permits : state.Permits (.started path purpose)) : state.run = none ∧ state.owed = [] := by
  cases purpose with
  | imported => exact ⟨permits.1, permits.2.2⟩
  | main => exact permits

/-- The state of a file after an event that is about it. -/
def after (state : ModuleState) : ModuleEvent → ModuleState
  | .started _ purpose => { state with run := some purpose }
  | .finished _ module_ => { state with run := none, module_ := some module_ }
  | .failed _ => { state with run := none, owed := [] }
  | .found _ _ => state
  | .deferred _ binding => { state with owed := state.owed ++ [binding] }
  | .settled _ _ _ => { state with owed := state.owed.tail }
  | .unsettled _ _ _ => { state with owed := [] }

end ModuleState

/-- What happened to modules, the latest first. -/
abbrev Journal := List ModuleEvent

namespace Journal

/-- The state that the events of a journal lead to. -/
def state (path : String) : Journal → ModuleState
  | [] => .untouched
  | event :: earlier =>
    if event.path = path then (state path earlier).after event else state path earlier

/-- Every event was permitted when it happened. -/
def Lawful : Journal → Prop
  | [] => True
  | event :: earlier => (state event.path earlier).Permits event ∧ Lawful earlier

theorem state_cons_self (event : ModuleEvent) (earlier : Journal) :
    state event.path (event :: earlier) = (state event.path earlier).after event :=
  if_pos rfl

theorem state_cons_of_ne (event : ModuleEvent) {path : String} (different : event.path ≠ path)
    (earlier : Journal) : state path (event :: earlier) = state path earlier :=
  if_neg different

variable {journal later earlier : Journal} {path : String}

theorem Lawful.of_append (lawful : Lawful (later ++ earlier)) : Lawful earlier := by
  induction later with
  | nil => exact lawful
  | cons event rest inductionHypothesis => exact inductionHypothesis lawful.2

theorem Lawful.permits {event : ModuleEvent} (lawful : Lawful (later ++ event :: earlier)) :
    (state event.path earlier).Permits event :=
  lawful.of_append.1

/-! ### Starts and ends -/

/-- The event is the end of a run of the file. -/
def Ends (path : String) (event : ModuleEvent) : Prop :=
  event = .failed path ∨ ∃ module_, event = .finished path module_

/-- A run that was started goes on until an event ends it. -/
theorem run_of_started (purpose : Purpose) (unended : ∀ event ∈ later, ¬ Ends path event) :
    (state path (later ++ .started path purpose :: earlier)).run.isSome = true := by
  induction later with
  | nil =>
    simp [state, ModuleEvent.path, ModuleState.after]
  | cons event rest inductionHypothesis =>
    rw [List.forall_mem_cons] at unended
    have before := inductionHypothesis unended.2
    rw [List.cons_append]
    by_cases own : event.path = path
    · subst own
      rw [state_cons_self]
      cases event with
      | failed => exact absurd (.inl rfl) unended.1
      | finished _ module_ => exact absurd (.inr ⟨module_, rfl⟩) unended.1
      | started => rfl
      | _ => exact before
    · rwa [state_cons_of_ne event own]

/-- Between two starts of a file there is an end. -/
theorem Lawful.exists_ends {purpose again : Purpose} {between : Journal}
    (lawful : Lawful
      (later ++ .started path again :: (between ++ .started path purpose :: earlier))) :
    ∃ event ∈ between, Ends path event := by
  by_contra unended
  have running : (state path (between ++ .started path purpose :: earlier)).run.isSome = true :=
    run_of_started purpose fun event inside ends => unended ⟨event, inside, ends⟩
  have idle : (state path (between ++ .started path purpose :: earlier)).run = none :=
    lawful.permits.of_started.1
  rw [idle] at running
  cases running

/-! ### Modules that were made -/

/-- The only thing that can happen to a file with a module, short of being run as the main program,
is that imports find the module and that bindings which wait for it are carried out. -/
theorem Lawful.only_found {module_ : Ref} (lawful : Lawful (later ++ earlier))
    (made : (state path earlier).module_ = some module_) (idle : (state path earlier).run = none)
    (unstarted : ModuleEvent.started path .main ∉ later) :
    (∀ event ∈ later, event.path = path → event = .found path module_ ∨
      ∃ binding, event = .settled path module_ binding ∨ event = .unsettled path module_ binding) ∧
    (state path (later ++ earlier)).module_ = some module_ ∧
    (state path (later ++ earlier)).run = none := by
  induction later with
  | nil => exact ⟨by simp, made, idle⟩
  | cons event rest inductionHypothesis =>
    rw [List.mem_cons, not_or] at unstarted
    obtain ⟨permits, restLawful⟩ := lawful
    obtain ⟨only, made, idle⟩ := inductionHypothesis restLawful unstarted.2
    rw [List.cons_append, List.forall_mem_cons]
    by_cases own : event.path = path
    · subst own
      rw [List.append_eq] at permits
      rw [state_cons_self]
      cases event with
      | started _ purpose =>
        cases purpose with
        | main => exact absurd rfl unstarted.1
        | imported => cases made.symm.trans permits.2.1
      | finished =>
        rw [ModuleState.Permits, idle] at permits
        cases permits
      | failed =>
        rw [ModuleState.Permits, idle] at permits
        cases permits
      | found _ other =>
        obtain rfl : module_ = other := Option.some.inj (made.symm.trans permits)
        exact ⟨⟨fun _ => .inl rfl, only⟩, made, idle⟩
      | deferred => cases made.symm.trans permits.2
      | settled _ other binding =>
        obtain rfl : module_ = other := Option.some.inj (made.symm.trans permits.2.1)
        exact ⟨⟨fun _ => .inr ⟨binding, .inl rfl⟩, only⟩, made, idle⟩
      | unsettled _ other binding =>
        obtain rfl : module_ = other := Option.some.inj (made.symm.trans permits.2.1)
        exact ⟨⟨fun _ => .inr ⟨binding, .inr rfl⟩, only⟩, made, idle⟩
    · rw [state_cons_of_ne event own]
      exact ⟨⟨fun same => absurd same own, only⟩, made, idle⟩

theorem state_finished (module_ : Ref) :
    (state path (.finished path module_ :: earlier)).module_ = some module_ ∧
      (state path (.finished path module_ :: earlier)).run = none := by
  simp [state, ModuleEvent.path, ModuleState.after]

/-- A binding was carried out with the module that imports find afterwards. -/
theorem Lawful.module_of_settled {module_ : Ref} {binding : Deferred}
    (lawful : Lawful (later ++ .settled path module_ binding :: earlier))
    (unstarted : ModuleEvent.started path .main ∉ later) :
    (state path (later ++ .settled path module_ binding :: earlier)).module_ = some module_ := by
  obtain ⟨idle, made, -⟩ := lawful.permits
  have carried := state_cons_self (.settled path module_ binding) earlier
  refine (lawful.only_found ?_ ?_ unstarted).2.1
  · exact (congrArg ModuleState.module_ carried).trans made
  · exact (congrArg ModuleState.run carried).trans idle

/-! ### Runs that failed -/

theorem module_eq_none (unmade : (state path earlier).module_ = none)
    (unfinished : ∀ module_, .finished path module_ ∉ later) :
    (state path (later ++ earlier)).module_ = none := by
  induction later with
  | nil => exact unmade
  | cons event rest inductionHypothesis =>
    have before := inductionHypothesis fun module_ inside =>
      unfinished module_ (List.mem_cons_of_mem _ inside)
    rw [List.cons_append]
    by_cases own : event.path = path
    · subst own
      rw [state_cons_self]
      cases event with
      | finished _ module_ => exact absurd List.mem_cons_self (unfinished module_)
      | _ => exact before
    · rwa [state_cons_of_ne event own]

/-- An import that failed leaves no module, and there is none until another run succeeds. -/
theorem Lawful.module_eq_none_of_failed {between : Journal}
    (lawful : Lawful
      (later ++ .failed path :: (between ++ .started path .imported :: earlier)))
    (unended : ∀ event ∈ between, ¬ Ends path event)
    (unfinished : ∀ module_, .finished path module_ ∉ later) :
    (state path
      (later ++ .failed path :: (between ++ .started path .imported :: earlier))).module_ = none := by
  have since : Lawful (.failed path :: (between ++ .started path .imported :: earlier)) :=
    lawful.of_append
  have unmade : (state path earlier).module_ = none := since.2.permits.2.1
  have split : later ++ .failed path :: (between ++ .started path .imported :: earlier) =
      (later ++ .failed path :: (between ++ [.started path .imported])) ++ earlier := by
    simp
  rw [split]
  refine module_eq_none unmade fun module_ inside => ?_
  simp only [List.mem_append, List.mem_cons, List.not_mem_nil, or_false, reduceCtorEq,
    false_or] at inside
  obtain late | early := inside
  · exact unfinished module_ late
  · exact unended _ early (.inr ⟨module_, rfl⟩)

/-! ### Bindings that wait -/

/-- The bindings of a run were given up before the file was started again: the run failed, or one of
the bindings did. -/
def GivenUp (path : String) (journal : Journal) : Prop :=
  ∃ (recent between : Journal) (event : ModuleEvent), journal = recent ++ event :: between ∧
    (event = .failed path ∨ ∃ module_ binding, event = .unsettled path module_ binding) ∧
    ∀ purpose, .started path purpose ∉ between

theorem GivenUp.cons (givenUp : GivenUp path journal) (event : ModuleEvent) :
    GivenUp path (event :: journal) := by
  obtain ⟨recent, between, reason, rfl, given⟩ := givenUp
  exact ⟨event :: recent, between, reason, rfl, given⟩

/-- A binding that was deferred still waits, or was carried out, or was given up. -/
theorem Lawful.owed_or_settled {binding : Deferred}
    (lawful : Lawful (later ++ .deferred path binding :: earlier)) :
    (binding ∈ (state path (later ++ .deferred path binding :: earlier)).owed ∧
      ∀ purpose, .started path purpose ∉ later) ∨
      (∃ module_, .settled path module_ binding ∈ later) ∨ GivenUp path later := by
  induction later with
  | nil =>
    left
    simp [state, ModuleEvent.path, ModuleState.after]
  | cons event rest inductionHypothesis =>
    obtain ⟨permits, restLawful⟩ := lawful
    rw [List.append_eq] at permits
    rw [List.cons_append]
    obtain ⟨owed, unstarted⟩ | ⟨module_, settled⟩ | givenUp := inductionHypothesis restLawful
    · by_cases own : event.path = path
      · subst own
        rw [state_cons_self]
        cases event with
        | started _ purpose =>
          rw [permits.of_started.2] at owed
          cases owed
        | failed => exact .inr (.inr ⟨[], rest, _, rfl, .inl rfl, unstarted⟩)
        | unsettled _ module_ first =>
          exact .inr (.inr ⟨[], rest, _, rfl, .inr ⟨module_, first, rfl⟩, unstarted⟩)
        | finished => exact .inl ⟨owed, by simpa using unstarted⟩
        | found => exact .inl ⟨owed, by simpa using unstarted⟩
        | deferred => exact .inl ⟨List.mem_append_left _ owed, by simpa using unstarted⟩
        | settled _ module_ first =>
          obtain ⟨others, isFirst⟩ := List.head?_eq_some_iff.mp permits.2.2
          rw [ModuleEvent.path] at owed unstarted isFirst ⊢
          rw [isFirst, List.mem_cons] at owed
          obtain rfl | owed := owed
          · exact .inr (.inl ⟨module_, List.mem_cons_self⟩)
          · refine .inl ⟨?_, by simpa using unstarted⟩
            rw [ModuleState.after, isFirst]
            exact owed
      · rw [state_cons_of_ne event own]
        refine .inl ⟨owed, fun purpose inside => ?_⟩
        obtain same | inside := List.mem_cons.mp inside
        · exact own (same ▸ rfl)
        · exact unstarted purpose inside
    · exact .inr (.inl ⟨module_, List.mem_cons_of_mem _ settled⟩)
    · exact .inr (.inr (givenUp.cons event))

end Journal

end Offside
