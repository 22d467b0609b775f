/-
This file makes visible which comparisons a computation asks for. An inquiry is a tree:
either it is done, or it asks whether one object is less than another one and has a branch
for each answer. Inquiries are put together like other computations, so a sort that leaves
open how it asks for a comparison is an inquiry too.

Running an inquiry asks for its comparisons one after the other. There is nothing else in
it that could fail, and nothing that could catch a failure. So it fails exactly if one of
the comparisons that it makes does, with the same failure and in the same world.

What an inquiry ensures, if its questions are answered by a fixed order, is read off the
tree. Running it gives the same, if the comparisons answer by that order in all worlds that
they can lead to.
-/

import Offside.Library.Sorting
import Offside.Proofs.Raising

namespace Offside

/-- A computation that asks whether one object is less than another one and goes on by the
answer. -/
inductive Inquiry (α : Type) where
  | done (value : α)
  | ask (left right : Ref) (next : Bool → Inquiry α)

open Library

namespace Inquiry

variable {α β : Type}

def bind : Inquiry α → (α → Inquiry β) → Inquiry β
  | done value, next => next value
  | ask left right rest, next => ask left right fun answer => (rest answer).bind next

instance : Monad Inquiry where
  pure := done
  bind := bind

theorem bind_done (inquiry : Inquiry α) : inquiry.bind done = inquiry := by
  induction inquiry with
  | done value => rfl
  | ask left right next inductionHypothesis =>
    exact congrArg (ask left right) (funext inductionHypothesis)

theorem bind_bind {γ : Type} (inquiry : Inquiry α) (next : α → Inquiry β) (last : β → Inquiry γ) :
    (inquiry.bind next).bind last = inquiry.bind fun value => (next value).bind last := by
  induction inquiry with
  | done value => rfl
  | ask left right rest inductionHypothesis =>
    exact congrArg (ask left right) (funext inductionHypothesis)

instance : LawfulMonad Inquiry :=
  .mk' Inquiry bind_done (fun _ _ => rfl) bind_bind

/-- A single question. -/
def isLess (left right : Ref) : Inquiry Bool :=
  ask left right done

/-! ### Running an inquiry -/

/-- Asks the questions one after the other. -/
def run (less : Ref → Ref → Exec Bool) : Inquiry α → Exec α
  | done value => pure value
  | ask left right next => do run less (next (← less left right))

variable {less : Ref → Ref → Exec Bool}

@[simp]
theorem run_pure (value : α) : (pure value : Inquiry α).run less = pure value :=
  rfl

@[simp]
theorem run_bind (inquiry : Inquiry α) (next : α → Inquiry β) :
    (inquiry >>= next).run less = inquiry.run less >>= fun value => (next value).run less := by
  change (inquiry.bind next).run less = _
  induction inquiry with
  | done value => exact (pure_bind value fun value => (next value).run less).symm
  | ask left right rest inductionHypothesis =>
    rw [bind, run, run, bind_assoc]
    exact congrArg _ (funext inductionHypothesis)

@[simp]
theorem run_map (change : α → β) (inquiry : Inquiry α) :
    (change <$> inquiry).run less = change <$> inquiry.run less := by
  rw [map_eq_pure_bind, run_bind, map_eq_pure_bind]
  rfl

@[simp]
theorem run_isLess (left right : Ref) : (isLess left right).run less = less left right :=
  bind_pure (less left right)

/-- Run from a world, the inquiry comes to ask about two objects in a world. -/
inductive Asks (less : Ref → Ref → Exec Bool) : Inquiry α → World → Ref → Ref → World → Prop where
  | now {left right : Ref} {next : Bool → Inquiry α} {world : World} :
      Asks less (ask left right next) world left right world
  | later {left right first second : Ref} {next : Bool → Inquiry α} {world middle asked : World}
      {answer : Bool} (answered : less left right world = .ok answer middle)
      (rest : Asks less (next answer) middle first second asked) :
      Asks less (ask left right next) world first second asked

/-- An inquiry fails exactly as the comparison does that ends it. -/
theorem run_eq_error_iff {inquiry : Inquiry α} {world after : World} {failure : Failure} :
    inquiry.run less world = .error failure after ↔
      ∃ left right asked, inquiry.Asks less world left right asked ∧
        less left right asked = .error failure after := by
  induction inquiry generalizing world with
  | done value => exact ⟨nofun, nofun⟩
  | ask left right next inductionHypothesis =>
    rw [run]
    cases answered : less left right world with
    | error other middle =>
      rw [Exec.bind_of_error answered]
      constructor
      · rintro ⟨⟩
        exact ⟨left, right, world, .now, answered⟩
      · rintro ⟨_, _, _, now | ⟨answeredOk, -⟩, fails⟩
        · cases answered.symm.trans fails
          rfl
        · cases answered.symm.trans answeredOk
    | ok answer middle =>
      rw [Exec.bind_of_ok answered, inductionHypothesis]
      constructor
      · rintro ⟨first, second, asked, asks, fails⟩
        exact ⟨first, second, asked, .later answered asks, fails⟩
      · rintro ⟨first, second, asked, now | ⟨answeredOk, rest⟩, fails⟩
        · cases answered.symm.trans fails
        · cases answered.symm.trans answeredOk
          exact ⟨first, second, asked, rest, fails⟩

/-- What all comparisons keep that are made holds wherever one is made. -/
theorem Asks.keeps {inquiry : Inquiry α} {world asked : World} {left right : Ref}
    (asks : inquiry.Asks less world left right asked) {kept : World → Prop} (holds : kept world)
    (keeps : ∀ {left right asked answer after}, inquiry.Asks less world left right asked →
      kept asked → less left right asked = .ok answer after → kept after) : kept asked := by
  induction asks with
  | now => exact holds
  | later answered rest inductionHypothesis =>
    exact inductionHypothesis (keeps .now holds answered) fun asks => keeps (.later answered asks)

/-! ### Sorts -/

/-- A comparison for real is asked for where the inquiry asks. -/
def asked (less : Ref → Ref → Exec Bool) (before : Ref → Ref → Inquiry Bool) (first second : Ref) :
    Exec Bool :=
  (before first second).run less

variable {before : Ref → Ref → Inquiry Bool}

theorem run_precedes (descending : Bool) :
    asked less (precedes isLess descending) = precedes less descending := by
  have ordered (left right : Ref) :
      (precedes isLess false left right).run less = precedes less false left right := by
    refine (run_bind _ _).trans ?_
    rw [run_isLess]
    refine bind_congr fun answer => ?_
    cases answer with
    | true => rfl
    | false => simp [discard, map_const]
  funext first second
  cases descending with
  | false => exact ordered first second
  | true => exact ordered second first

theorem run_insertFromEnd (element : Ref) : (sorted : List Ref) →
    (insertFromEnd before element sorted).run less =
      insertFromEnd (asked less before) element sorted
  | [] => rfl
  | last :: rest => by
    rw [insertFromEnd, insertFromEnd, run_bind]
    refine bind_congr fun answer => ?_
    cases answer with
    | true => exact (run_bind _ _).trans (congrArg (· >>= _) (run_insertFromEnd element rest))
    | false => rfl

theorem run_insertAll : (elements sorted : List Ref) →
    (insertAll before sorted elements).run less = insertAll (asked less before) sorted elements
  | [], _ => rfl
  | element :: rest, sorted => by
    rw [insertAll, insertAll, run_bind, run_insertFromEnd]
    exact bind_congr fun inserted => run_insertAll rest inserted

theorem run_bisect {test : Nat → Inquiry Bool} (low high : Nat) :
    (bisect test low high).run less =
      bisect (fun position => (test position).run less) low high := by
  induction low, high using bisect.induct with
  | case1 low high inside middle upper lower =>
    rw [bisect, bisect, if_pos inside, if_pos inside, run_bind]
    refine bind_congr fun answer => ?_
    cases answer with
    | true => exact upper
    | false => exact lower
  | case2 low high notInside =>
    rw [bisect, bisect, if_neg notInside, if_neg notInside, run_pure]

theorem run_mergeRuns (left right : Array Ref) :
    (mergeRuns before left right).run less = mergeRuns (asked less before) left right := by
  induction left, right using mergeRuns.induct with
  | case1 left right leftEmpty =>
    rw [mergeRuns, mergeRuns, if_pos leftEmpty, if_pos leftEmpty, run_pure]
  | case2 left right leftSome rightEmpty =>
    rw [mergeRuns, mergeRuns, if_neg leftSome, if_neg leftSome, if_pos rightEmpty,
      if_pos rightEmpty, run_pure]
  | case3 left right leftSome rightSome single =>
    rw [mergeRuns, mergeRuns, if_neg leftSome, if_neg leftSome, if_neg rightSome, if_neg rightSome,
      if_pos single, if_pos single, run_bind, run_bisect]
    rfl
  | case4 left right leftSome rightSome several single =>
    rw [mergeRuns, mergeRuns, if_neg leftSome, if_neg leftSome, if_neg rightSome, if_neg rightSome,
      if_neg several, if_neg several, if_pos single, if_pos single, run_bind, run_bisect]
    simp only [run_bind, run_pure]
    rfl
  | case5 left right leftSome rightSome leftSeveral rightSeveral both half line low high bounds
      firstHalf secondHalf =>
    rw [mergeRuns, mergeRuns, if_neg leftSome, if_neg leftSome, if_neg rightSome, if_neg rightSome,
      if_neg leftSeveral, if_neg leftSeveral, if_neg rightSeveral, if_neg rightSeveral]
    simp only [← dite_eq_ite]
    rw [bounds]
    simp only [run_bind, run_pure, run_bisect]
    refine bind_congr fun start => ?_
    rw [firstHalf start]
    exact bind_congr fun first => congrArg (· >>= _) (secondHalf start)

theorem run_mergePairs (runs : List (Array Ref)) :
    (mergePairs before runs).run less = mergePairs (asked less before) runs := by
  induction runs using mergePairs.induct with
  | case1 first second rest inductionHypothesis =>
    rw [mergePairs, mergePairs, run_bind, run_mergeRuns]
    exact bind_congr fun merged => (run_bind _ _).trans (congrArg (· >>= _) inductionHypothesis)
  | case2 runs few =>
    rw [mergePairs, mergePairs, run_pure]
    · exact few
    · exact few

theorem run_mergeRounds (rounds : Nat) (runs : List (Array Ref)) :
    (mergeRounds before rounds runs).run less = mergeRounds (asked less before) rounds runs := by
  induction rounds generalizing runs with
  | zero => rfl
  | succ rounds inductionHypothesis =>
    match runs with
    | [] => rfl
    | [_] => rfl
    | first :: second :: rest =>
      rw [mergeRounds, mergeRounds, run_bind, run_mergePairs]
      on_goal 1 => exact bind_congr fun merged => inductionHypothesis merged
      all_goals exact nofun

theorem run_mapM {step : β → Inquiry α} (inputs : List β) :
    (inputs.mapM step).run less = inputs.mapM fun input => (step input).run less := by
  induction inputs with
  | nil => rfl
  | cons input rest inductionHypothesis =>
    simp only [List.mapM_cons, run_bind, run_pure, inductionHypothesis]

/-- A sort asks for its comparisons and does nothing else to the world. -/
theorem run_sortBy (descending : Bool) (elements : Array Ref) :
    (sortBy isLess descending elements).run less = sortBy less descending elements := by
  rw [sortBy, sortBy, run_bind, run_mapM]
  simp only [run_bind, run_pure, run_insertAll, run_mergeRounds, run_precedes]

/-! ### What an inquiry ensures -/

/-- Only known objects are asked about, and if the answers are right, the result is as required. -/
def Ensures (known : Ref → Prop) (order : Ref → Ref → Bool) (required : α → Prop) :
    Inquiry α → Prop
  | done value => required value
  | ask left right next =>
    known left ∧ known right ∧ (next (order left right)).Ensures known order required

variable {known : Ref → Prop} {order : Ref → Ref → Bool} {required : α → Prop}

@[simp]
theorem ensures_pure {value : α} :
    (pure value : Inquiry α).Ensures known order required ↔ required value :=
  Iff.rfl

@[simp]
theorem ensures_bind {inquiry : Inquiry β} {next : β → Inquiry α} :
    (inquiry >>= next).Ensures known order required ↔
      inquiry.Ensures known order fun value => (next value).Ensures known order required := by
  change (inquiry.bind next).Ensures known order required ↔ _
  induction inquiry with
  | done value => rfl
  | ask left right rest inductionHypothesis =>
    rw [bind, Ensures, Ensures, inductionHypothesis]

theorem Ensures.mono {inquiry : Inquiry α} (ensures : inquiry.Ensures known order required)
    {weaker : α → Prop} (implies : ∀ value, required value → weaker value) :
    inquiry.Ensures known order weaker := by
  induction inquiry with
  | done value => exact implies value ensures
  | ask left right next inductionHypothesis =>
    exact ⟨ensures.1, ensures.2.1, inductionHypothesis _ ensures.2.2⟩

/-- Comparisons that answer in the given order, whatever world of a certain kind they are made in,
and leave a world of that kind. -/
def Calm (less : Ref → Ref → Exec Bool) (known : Ref → Prop) (order : Ref → Ref → Bool)
    (calm : World → Prop) : Prop :=
  ∀ left right world, known left → known right → calm world →
    ∃ after, less left right world = .ok (order left right) after ∧ calm after

/-- Running an inquiry gives what it ensures. -/
theorem Ensures.exists_run {inquiry : Inquiry α} (ensures : inquiry.Ensures known order required)
    {calm : World → Prop} (answers : Calm less known order calm) {world : World}
    (isCalm : calm world) :
    ∃ value after, inquiry.run less world = .ok value after ∧ required value ∧ calm after := by
  induction inquiry generalizing world with
  | done value => exact ⟨value, world, rfl, ensures, isCalm⟩
  | ask left right next inductionHypothesis =>
    obtain ⟨knownLeft, knownRight, rest⟩ := ensures
    obtain ⟨middle, answered, calmMiddle⟩ := answers left right world knownLeft knownRight isCalm
    rw [run, Exec.bind_of_ok answered]
    exact inductionHypothesis _ rest calmMiddle

end Inquiry

end Offside
