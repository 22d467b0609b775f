/-
This file says when a handler catches an exception, in terms of classes and their bases
instead of walks along them. The walk passes as many classes as the heap has objects and
one more. That is enough to come to every class that another one extends, also where the
bases go in a circle: the way there need not pass a class twice, and all classes on it but
the last one have a base, so they are in the heap.

A handler with a tuple looks at one class after the other. It is content with the first
one that the exception is of, so the classes behind it may be anything.
-/

import Mathlib.Logic.Relation
import Offside.Eval.Statement
import Offside.Proofs.Inheritance
import Offside.Proofs.Raising

namespace Offside

namespace World

/-! ### Descent -/

/-- The class is the other one, or it extends it, with any number of bases in between. -/
def Descends (world : World) : Ref → Ref → Prop :=
  Relation.ReflTransGen fun class_ base => world.base? class_ = some base

/-- The bases lead from one class over these ones to the other. -/
inductive Leads (world : World) (other : Ref) : Ref → List Ref → Prop where
  | here : Leads world other other []
  | further {class_ base : Ref} {rest : List Ref} (extends_ : world.base? class_ = some base)
      (leads : Leads world other base rest) : Leads world other class_ (class_ :: rest)

section Descent

variable {world : World} {class_ other : Ref} {path : List Ref}

namespace Leads

theorem of_append {before after : List Ref} {middle : Ref}
    (leads : world.Leads other class_ (before ++ middle :: after)) :
    world.Leads other middle (middle :: after) := by
  induction before generalizing class_ with
  | nil =>
    cases leads with
    | further extends_ leads => exact .further extends_ leads
  | cons first before inductionHypothesis =>
    cases leads with
    | further _ leads => exact inductionHypothesis leads

theorem bound (leads : world.Leads other class_ path) :
    ∀ member ∈ path, member.index < world.objects.size := by
  induction leads with
  | here => exact nofun
  | further extends_ _ inductionHypothesis =>
    exact List.forall_mem_cons.mpr ⟨bound_of_base? extends_, inductionHypothesis⟩

theorem mem_chainFrom (leads : world.Leads other class_ path) {fuel : Nat}
    (enough : path.length < fuel) : other ∈ world.chainFrom fuel class_ := by
  induction leads generalizing fuel with
  | here =>
    obtain ⟨fuel, rfl⟩ := Nat.exists_eq_add_one.mpr (Nat.zero_lt_of_lt enough)
    rw [chainFrom]
    split <;> exact List.mem_cons_self
  | further extends_ _ inductionHypothesis =>
    obtain ⟨fuel, rfl⟩ := Nat.exists_eq_add_one.mpr (Nat.zero_lt_of_lt enough)
    rw [chainFrom, extends_]
    exact List.mem_cons_of_mem _ (inductionHypothesis (Nat.lt_of_succ_lt_succ enough))

end Leads

/-- There is a way that passes no class twice: where it would, it can go on from there at once. -/
theorem Descends.exists_leads (descends : world.Descends class_ other) :
    ∃ path, path.Nodup ∧ world.Leads other class_ path := by
  induction descends using Relation.ReflTransGen.head_induction_on with
  | refl => exact ⟨[], List.nodup_nil, .here⟩
  | @head class_ base extends_ _ inductionHypothesis =>
    obtain ⟨path, distinct, leads⟩ := inductionHypothesis
    by_cases again : class_ ∈ path
    · obtain ⟨before, after, rfl⟩ := List.append_of_mem again
      exact ⟨class_ :: after, distinct.sublist (List.sublist_append_right _ _), leads.of_append⟩
    · exact ⟨class_ :: path, List.nodup_cons.mpr ⟨again, distinct⟩, .further extends_ leads⟩

theorem descends_of_mem_chainFrom {fuel : Nat} (inside : other ∈ world.chainFrom fuel class_) :
    world.Descends class_ other := by
  induction fuel generalizing class_ with
  | zero => cases inside
  | succ fuel inductionHypothesis =>
    rw [chainFrom] at inside
    cases extends_ : world.base? class_ with
    | none =>
      rw [extends_, List.mem_singleton] at inside
      exact inside ▸ .refl
    | some base =>
      rw [extends_, List.mem_cons] at inside
      obtain rfl | inside := inside
      · exact .refl
      · exact .head extends_ (inductionHypothesis inside)

/-- The walk along the bases finds exactly the classes that a class descends from. -/
theorem isSubclass_iff : world.isSubclass class_ other = true ↔ world.Descends class_ other := by
  rw [isSubclass, List.contains_iff_mem]
  refine ⟨descends_of_mem_chainFrom, fun descends => ?_⟩
  obtain ⟨path, distinct, leads⟩ := descends.exists_leads
  exact leads.mem_chainFrom (Nat.lt_succ_of_le (length_le_of_bound distinct leads.bound))

end Descent

/-! ### Classes in handlers -/

/-- Only a class of exceptions may be looked for by a handler. -/
def IsExceptionClass (world : World) (class_ : Ref) : Prop :=
  world.isClass class_ = true ∧ world.Descends class_ BuiltinClass.exception.ref

/-- The object is of the class or of one that extends it. -/
def IsOf (world : World) (value class_ : Ref) : Prop :=
  world.Descends (world.object value).class_ class_

section Classes

variable (world : World) (value : Ref) (classes : List Ref)

/-- The exception is of one of the classes, and up to that all of them are classes of exceptions. -/
def Matching : Prop :=
  ∃ earlier class_ later, classes = earlier ++ class_ :: later ∧
    (∀ other ∈ earlier, world.IsExceptionClass other) ∧ world.IsExceptionClass class_ ∧
    world.IsOf value class_

/-- All of them are classes of exceptions, and the exception is of none of them. -/
def Passing : Prop :=
  ∀ class_ ∈ classes, world.IsExceptionClass class_ ∧ ¬ world.IsOf value class_

/-- One of them is no class of exceptions, and the exception is not of one before it. -/
def Improper : Prop :=
  ∃ earlier class_ later, classes = earlier ++ class_ :: later ∧
    world.Passing value earlier ∧ ¬ world.IsExceptionClass class_

/-- The classes that a handler looks for: those of a tuple, or a single one. -/
def members (class_ : Ref) : List Ref :=
  match world.payload class_ with
  | .tuple elements => elements.toList
  | _ => [class_]

variable {world value classes}

theorem isInstance_iff {class_ : Ref} :
    world.isInstance value class_ = true ↔ world.IsOf value class_ :=
  isSubclass_iff

theorem isExceptionClass_iff {class_ : Ref} :
    (world.isClass class_ && world.isSubclass class_ BuiltinClass.exception.ref) = true ↔
      world.IsExceptionClass class_ := by
  rw [Bool.and_eq_true, isSubclass_iff, IsExceptionClass]

/-- It is always one of the three. -/
theorem matching_or_passing_or_improper (world : World) (value : Ref) (classes : List Ref) :
    world.Matching value classes ∨ world.Passing value classes ∨ world.Improper value classes := by
  induction classes with
  | nil => exact .inr (.inl nofun)
  | cons class_ rest inductionHypothesis =>
    by_cases proper : world.IsExceptionClass class_
    · by_cases isOf : world.IsOf value class_
      · exact .inl ⟨[], class_, rest, rfl, nofun, proper, isOf⟩
      · obtain ⟨earlier, found, later, rfl, propers, matching⟩ | passing |
          ⟨earlier, found, later, rfl, passing, improper⟩ := inductionHypothesis
        · exact .inl ⟨class_ :: earlier, found, later, rfl,
            List.forall_mem_cons.mpr ⟨proper, propers⟩, matching⟩
        · exact .inr (.inl (List.forall_mem_cons.mpr ⟨⟨proper, isOf⟩, passing⟩))
        · exact .inr (.inr ⟨class_ :: earlier, found, later, rfl,
            List.forall_mem_cons.mpr ⟨⟨proper, isOf⟩, passing⟩, improper⟩)
    · exact .inr (.inr ⟨[], class_, rest, rfl, nofun, proper⟩)

end Classes

end World

namespace Exec

open World

/-! ### Catching -/

section Catching

variable {world : World} {value : Ref} {classes : List Ref}

theorem catches_cons_of_isOf {class_ : Ref} (rest : List Ref)
    (proper : world.IsExceptionClass class_) (isOf : world.IsOf value class_) :
    catches value (class_ :: rest) world = .ok true world := by
  rw [catches, read_bind, if_pos (isExceptionClass_iff.mpr proper), read_bind,
    if_pos (isInstance_iff.mpr isOf)]
  rfl

theorem catches_cons_of_not_isOf {class_ : Ref} (rest : List Ref)
    (proper : world.IsExceptionClass class_) (other : ¬ world.IsOf value class_) :
    catches value (class_ :: rest) world = catches value rest world := by
  rw [catches, read_bind, if_pos (isExceptionClass_iff.mpr proper), read_bind,
    if_neg (isInstance_iff.not.mpr other)]

theorem catches_of_matching (matching : world.Matching value classes) :
    catches value classes world = .ok true world := by
  obtain ⟨earlier, class_, later, rfl, propers, proper, isOf⟩ := matching
  induction earlier with
  | nil => exact catches_cons_of_isOf later proper isOf
  | cons first earlier inductionHypothesis =>
    obtain ⟨firstProper, propers⟩ := List.forall_mem_cons.mp propers
    by_cases already : world.IsOf value first
    · exact catches_cons_of_isOf _ firstProper already
    · rw [List.cons_append, catches_cons_of_not_isOf _ firstProper already]
      exact inductionHypothesis propers

/-- Classes that the exception is not of are passed over. -/
theorem catches_append {earlier : List Ref} (passing : world.Passing value earlier)
    (later : List Ref) : catches value (earlier ++ later) world = catches value later world := by
  induction earlier with
  | nil => rfl
  | cons first earlier inductionHypothesis =>
    obtain ⟨⟨proper, other⟩, passing⟩ := List.forall_mem_cons.mp passing
    rw [List.cons_append, catches_cons_of_not_isOf _ proper other]
    exact inductionHypothesis passing

theorem catches_of_passing (passing : world.Passing value classes) :
    catches value classes world = .ok false world := by
  rw [← List.append_nil classes, catches_append passing]
  rfl

theorem catches_of_improper (improper : world.Improper value classes) :
    catches value classes world = complain .catchingNonException world := by
  obtain ⟨earlier, class_, later, rfl, passing, other⟩ := improper
  rw [catches_append passing, catches, read_bind, if_neg (isExceptionClass_iff.not.mpr other)]

end Catching

/-! ### Handlers -/

/-- What a handler says about an exception: that it catches it or passes it over, or nothing, since
looking failed. The class is evaluated only here, and the exception's own classes are looked at
after that. -/
inductive Decides (machine : Machine) (env : Env) (id : RaisedId) :
    Handler → World → Except Failure Bool → World → Prop where
  | everything {location : Location} {name : Option String} {body : List Stmt} {world : World}
      {caught : Bool} (decided : caught = true ↔
        world.IsOf (world.raisedAt id).value BuiltinClass.exception.ref) :
      Decides machine env id (.mk location none name body) world (.ok caught) world
  | unknown {location : Location} {class_ : Expr} {name : Option String} {body : List Stmt}
      {before after : World} {failure : Failure} (mild : ¬ failure.isFatal)
      (failed : traced location env (evaluate machine env class_) before = .error failure after) :
      Decides machine env id (.mk location (some class_) name body) before (.error failure) after
  | catches {location : Location} {class_ : Expr} {name : Option String} {body : List Stmt}
      {before here : World} {given : Ref}
      (evaluated : traced location env (evaluate machine env class_) before = .ok given here)
      (matching : here.Matching (before.raisedAt id).value (here.members given)) :
      Decides machine env id (.mk location (some class_) name body) before (.ok true) here
  | passes {location : Location} {class_ : Expr} {name : Option String} {body : List Stmt}
      {before here : World} {given : Ref}
      (evaluated : traced location env (evaluate machine env class_) before = .ok given here)
      (passing : here.Passing (before.raisedAt id).value (here.members given)) :
      Decides machine env id (.mk location (some class_) name body) before (.ok false) here
  | refuses {location : Location} {class_ : Expr} {name : Option String} {body : List Stmt}
      {before here after : World} {given : Ref} {own : RaisedId}
      (evaluated : traced location env (evaluate machine env class_) before = .ok given here)
      (improper : here.Improper (before.raisedAt id).value (here.members given))
      (refused : traced location env (complain .catchingNonException : Exec Bool) here =
        .error (.raised own) after) :
      Decides machine env id (.mk location (some class_) name body) before
        (.error (.raised own)) after

section Deciding

variable {machine : Machine} {env : Env} {id : RaisedId} {location : Location}
  {name : Option String} {body : List Stmt} {before after : World} {verdict : Except Failure Bool}

/-- How a handler with a class looks, once its class is evaluated. -/
theorem handlerMatches_of_ok {class_ : Expr} {given : Ref} {here : World}
    (evaluated : traced location env (evaluate machine env class_) before = .ok given here) :
    handlerMatches machine env location (some class_) id before =
      traced location env (catches (before.raisedAt id).value (here.members given)) here := by
  rw [handlerMatches, read_bind]
  exact bind_of_ok evaluated

theorem settle_of_matching {class_ : Expr} {given : Ref} {here : World}
    (evaluated : traced location env (evaluate machine env class_) before = .ok given here)
    (matching : here.Matching (before.raisedAt id).value (here.members given)) :
    settle (handlerMatches machine env location (some class_) id) before = .ok (.ok true) here :=
  settle_ok ((handlerMatches_of_ok evaluated).trans (tryCatch_ok (catches_of_matching matching)))

theorem settle_of_passing {class_ : Expr} {given : Ref} {here : World}
    (evaluated : traced location env (evaluate machine env class_) before = .ok given here)
    (passing : here.Passing (before.raisedAt id).value (here.members given)) :
    settle (handlerMatches machine env location (some class_) id) before = .ok (.ok false) here :=
  settle_ok ((handlerMatches_of_ok evaluated).trans (tryCatch_ok (catches_of_passing passing)))

theorem settle_of_improper {class_ : Expr} {given : Ref} {here : World}
    (evaluated : traced location env (evaluate machine env class_) before = .ok given here)
    (improper : here.Improper (before.raisedAt id).value (here.members given)) :
    ∃ own after, traced location env (complain .catchingNonException : Exec Bool) here =
        .error (.raised own) after ∧
      settle (handlerMatches machine env location (some class_) id) before =
        .ok (.error (.raised own)) after := by
  obtain ⟨own, middle, raised, -⟩ :=
    raises_complain (α := Bool)
      (show Complaint.catchingNonException.message = some _ from rfl) here
  have caught := (catches_of_improper improper).trans raised
  refine ⟨own, _, tryCatch_error raised, ?_⟩
  exact settle_error ((handlerMatches_of_ok evaluated).trans (tryCatch_error caught))

theorem settle_of_unknown {class_ : Expr} {failure : Failure} {here : World}
    (failed : traced location env (evaluate machine env class_) before = .error failure here) :
    settle (handlerMatches machine env location (some class_) id) before =
      if failure.isFatal then .error failure here else .ok (.error failure) here := by
  refine settle_error ?_
  rw [handlerMatches, read_bind]
  exact bind_of_error failed

/-- Looking whether a handler matches is deciding. -/
theorem decides_iff {class_ : Option Expr} :
    settle (handlerMatches machine env location class_ id) before = .ok verdict after ↔
      Decides machine env id (.mk location class_ name body) before verdict after := by
  constructor
  · intro looked
    cases class_ with
    | none =>
      cases looked
      exact .everything isInstance_iff
    | some class_ =>
      cases evaluated : traced location env (evaluate machine env class_) before with
      | error failure here =>
        rw [settle_of_unknown evaluated] at looked
        split at looked
        · cases looked
        next mild =>
          cases looked
          exact .unknown mild evaluated
      | ok given here =>
        obtain matching | passing | improper := matching_or_passing_or_improper here
          (before.raisedAt id).value (here.members given)
        · cases (settle_of_matching evaluated matching).symm.trans looked
          exact .catches evaluated matching
        · cases (settle_of_passing evaluated passing).symm.trans looked
          exact .passes evaluated passing
        · obtain ⟨own, later, refused, settled⟩ := settle_of_improper evaluated improper
          cases settled.symm.trans looked
          exact .refuses evaluated improper refused
  · intro decides
    cases decides with
    | everything decided =>
      rw [← isInstance_iff, Bool.coe_iff_coe] at decided
      rw [decided]
      rfl
    | unknown mild failed => rw [settle_of_unknown failed, if_neg mild]
    | catches evaluated matching => exact settle_of_matching evaluated matching
    | passes evaluated passing => exact settle_of_passing evaluated passing
    | refuses evaluated improper refused =>
      obtain ⟨own, later, refusedToo, settled⟩ := settle_of_improper evaluated improper
      cases refused.symm.trans refusedToo
      exact settled

end Deciding

end Exec

end Offside
