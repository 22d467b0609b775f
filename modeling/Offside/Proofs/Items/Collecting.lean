/-
This file compares the two ways to come by the elements of an object. A loop asks the object
for an iterator and takes one element in each round. Collecting drains an iterator in the
same way, but if the object has the elements of a list or tuple it takes those and asks
nothing.

So the two agree for everything that is neither a list nor a tuple, also in how they fail. A
list or tuple, or an object of a class that extends one of theirs, is collected as a loop
goes through it as long as it iterates as lists and tuples were made to. A class that
extends one may have an `__iter__` of its own, which a loop obeys; what is collected does
not depend on it.
-/

import Offside.Proofs.Comparing.Classes

namespace Offside

open Exec Library

namespace Exec

/-! ### What a loop obtains -/

/-- An iterator gives these elements, one in each round, and the world becomes another. -/
inductive Obtains (machine : Machine) (iterator : Ref) : World → List Ref → World → Prop
  | nothing {world} : Obtains machine iterator world [] world
  | further {world element middle rest after} :
    next? machine iterator world = .ok (some element) middle →
    Obtains machine iterator middle rest after →
    Obtains machine iterator world (element :: rest) after

/-- A loop over the object obtains these elements and ends like this, if its body changes nothing:
it fails in asking for an iterator, or in asking for one more element, or there is none. -/
inductive Traverses (machine : Machine) (ref : Ref) (world : World) :
    List Ref → EStateM.Result Failure World Unit → Prop
  | refused {failure after} :
    iter machine ref world = .error failure after →
    Traverses machine ref world [] (.error failure after)
  | failed {iterator started elements middle failure after} :
    iter machine ref world = .ok iterator started →
    Obtains machine iterator started elements middle →
    next? machine iterator middle = .error failure after →
    Traverses machine ref world elements (.error failure after)
  | ended {iterator started elements middle after} :
    iter machine ref world = .ok iterator started →
    Obtains machine iterator started elements middle →
    next? machine iterator middle = .ok none after →
    Traverses machine ref world elements (.ok () after)

/-- What is collected if a loop obtains these elements and ends like this. -/
def collected (elements : List Ref) :
    EStateM.Result Failure World Unit → EStateM.Result Failure World (Array Ref)
  | .ok _ after => .ok elements.toArray after
  | .error failure after => .error failure after

/-- A round of draining: one more element, or all that were found. -/
def drainRound (machine : Machine) (iterator : Ref) (found : Array Ref) :
    Exec (Except (Array Ref) (Array Ref)) := do
  match ← next? machine iterator with
  | some element => return .error (found.push element)
  | none => return .ok found

theorem drain_eq (machine : Machine) (iterator : Ref) :
    drain machine iterator = repeatUntil (drainRound machine iterator) machine.budget #[] :=
  rfl

section Draining

variable {machine : Machine} {iterator ref : Ref} {world middle after : World}
  {elements : List Ref} {found : Array Ref} {failure : Failure} {budget : Nat}

/-- As many rounds as there are elements find all of them. -/
theorem Obtains.repeatUntil_drainRound (obtains : Obtains machine iterator world elements middle) :
    repeatUntil (drainRound machine iterator) (elements.length + budget) found world =
      repeatUntil (drainRound machine iterator) budget (found ++ elements) middle := by
  induction obtains generalizing found with
  | nothing => simp
  | @further world element middle rest after more _ inductionHypothesis =>
    have round : drainRound machine iterator found world =
        .ok (.error (found.push element)) middle := bind_of_ok more
    rw [List.length_cons, Nat.add_right_comm, repeatUntil, bind_of_ok round]
    refine inductionHypothesis.trans ?_
    congr 1

theorem repeatUntil_of_ended (ended : next? machine iterator world = .ok none after) :
    repeatUntil (drainRound machine iterator) (budget + 1) found world = .ok found after := by
  have round : drainRound machine iterator found world = .ok (.ok found) after := bind_of_ok ended
  rw [repeatUntil, bind_of_ok round]
  rfl

theorem repeatUntil_of_failed (failed : next? machine iterator world = .error failure after) :
    repeatUntil (drainRound machine iterator) (budget + 1) found world = .error failure after := by
  have round : drainRound machine iterator found world = .error failure after :=
    bind_of_error failed
  rw [repeatUntil, bind_of_error round]

/-- Draining finds what a loop obtains, if the budget lasts. -/
theorem Traverses.drain_eq {result : EStateM.Result Failure World Unit}
    (traverses : Traverses machine ref world elements result)
    (enough : elements.length < machine.budget) :
    (iter machine ref >>= drain machine) world = collected elements result := by
  obtain ⟨spare, sum⟩ := Nat.exists_eq_add_of_lt enough
  rw [Nat.add_assoc] at sum
  cases traverses with
  | refused refused => exact bind_of_error refused
  | failed started obtains failed =>
    rw [bind_of_ok started, Exec.drain_eq, sum, obtains.repeatUntil_drainRound,
      repeatUntil_of_failed failed]
    rfl
  | ended started obtains ended =>
    rw [bind_of_ok started, Exec.drain_eq, sum, obtains.repeatUntil_drainRound,
      repeatUntil_of_ended ended]
    simp [collected]

/-- An iterator comes to its end or fails in fewer rounds than a number of them, or goes on for as
many. -/
theorem obtains_or_lasts (machine : Machine) (iterator : Ref) (budget : Nat) (world : World) :
    (∃ elements middle, elements.length < budget ∧ Obtains machine iterator world elements middle ∧
      ((∃ after, next? machine iterator middle = .ok none after) ∨
        ∃ failure after, next? machine iterator middle = .error failure after)) ∨
    ∃ elements middle, elements.length = budget ∧
      Obtains machine iterator world elements middle := by
  induction budget generalizing world with
  | zero => exact .inr ⟨[], world, rfl, .nothing⟩
  | succ budget inductionHypothesis =>
    cases more : next? machine iterator world with
    | error failure after =>
      exact .inl ⟨[], world, Nat.succ_pos _, .nothing, .inr ⟨failure, after, more⟩⟩
    | ok element? middle =>
      cases element? with
      | none => exact .inl ⟨[], world, Nat.succ_pos _, .nothing, .inl ⟨middle, more⟩⟩
      | some element =>
        obtain ⟨rest, last, short, obtains, ends⟩ | ⟨rest, last, long, obtains⟩ :=
          inductionHypothesis middle
        · exact .inl ⟨element :: rest, last, Nat.succ_lt_succ short, .further more obtains, ends⟩
        · exact .inr ⟨element :: rest, last, congrArg (· + 1) long, .further more obtains⟩

end Draining

/-! ### The iterator of lists and tuples -/

/-- An object finds a method of a built-in class that its class extends, if neither the object nor a
class before that one has an attribute of this name. -/
theorem answers_of_chain {world : World} (intact : world.Intact) {ref : Ref}
    (instance_ : world.isClass ref = false) {name : String}
    (unnamed : world.ownAttribute? ref name = none) {before after : List Ref}
    {builtin : BuiltinClass} {method : Method}
    (chain : world.chain (world.object ref).class_ = before ++ builtin.ref :: after)
    (silent : ∀ class_ ∈ before, world.ownAttribute? class_ name = none)
    (listed : (name, method) ∈ builtin.methods) (ordinary : World.isClassMarker name = false) :
    world.Answers ref name method := by
  obtain ⟨function, found, runs⟩ := intact.method builtin name method listed
  have first : world.firstIn (before ++ builtin.ref :: after) name = some function := by
    rw [World.firstIn, List.findSome?_append, List.findSome?_eq_none_iff.mpr silent,
      Option.none_or, List.findSome?_cons, intact.ownAttribute?, found]
  have bound : world.bindTo function ref = .method function ref := by
    rw [World.bindTo, World.isClass, runs.class_, runs.code]
    rfl
  refine ⟨function, builtin, intact.present_of_runs runs, ?_, runs⟩
  rw [World.lookupOperator, instance_, if_neg Bool.false_ne_true, World.lookup, unnamed, instance_]
  simp only [Bool.false_eq_true, if_false, ordinary]
  rw [World.lookupInClass, chain, first, Option.map_some, bound]

/-- The world in which an iterator over the object has come to a position. It is a new object, and
the only one. -/
def midway (world : World) (ref : Ref) (position : Nat) : World :=
  { world with
    objects := world.objects.push
      ⟨BuiltinClass.iterator.ref, none, .iterator (.sequence ref position), none⟩ }

theorem modify_pushed {α : Type} (values : Array α) (value : α) (step : α → α) :
    (values.push value).modify values.size step = values.push (step value) := by
  ext place inside _
  · simp
  · obtain earlier | rfl : place < values.size ∨ place = values.size := by
      simp only [Array.size_modify, Array.size_push] at inside
      omega
    · simp [Array.getElem_modify, Array.getElem_push, earlier, Nat.ne_of_gt earlier]
    · simp [Array.getElem_modify]

section Sequences

variable {world : World} {ref : Ref} {elements : Array Ref}
  (held : world.elements? ref = some elements)

include held

theorem elements_midway (position : Nat) : (midway world ref position).elements ref = elements := by
  have inside : ref.index < world.objects.size := World.bound_of_object fun absent => by
    rw [World.elements?, World.payload, absent] at held
    cases held
  have same : (midway world ref position).object ref = world.object ref :=
    (show world.Extends [] _ from .push world _).object ref inside
  have payload : (midway world ref position).payload ref = world.payload ref :=
    congrArg Object.payload same
  rw [World.elements, World.elements?, payload]
  exact congrArg (Option.getD · #[]) held

/-- One step of the iterator gives the element at its position, or nothing at the end. -/
theorem next?_midway (machine : Machine) (position : Nat) :
    next? machine ⟨world.objects.size⟩ (midway world ref position) =
      match elements[position]? with
      | some element => .ok (some element) (midway world ref (position + 1))
      | none => .ok none (midway world ref position) := by
  have payload : (midway world ref position).payload ⟨world.objects.size⟩ =
      .iterator (.sequence ref position) := by
    simp [midway, World.payload, World.object]
  rw [next?, read_bind, payload]
  change advance _ _ _ = _
  rw [advance, read_bind, elements_midway held]
  cases elements[position]? with
  | none => rfl
  | some element =>
    have moved : setPayload ⟨world.objects.size⟩ (.iterator (.sequence ref (position + 1)))
        (midway world ref position) = .ok () (midway world ref (position + 1)) := by
      change EStateM.Result.ok () _ = _
      simp only [midway, EStateM.Result.ok.injEq, true_and, World.mk.injEq, and_true]
      exact modify_pushed _ _ _
    exact bind_of_ok moved

/-- From a position on, the iterator gives the rest of the elements. -/
theorem obtains_midway (machine : Machine) {position : Nat} (before : position ≤ elements.size) :
    Obtains machine ⟨world.objects.size⟩ (midway world ref position)
      (elements.toList.drop position) (midway world ref elements.size) := by
  induction remaining : elements.size - position generalizing position with
  | zero =>
    obtain rfl : position = elements.size := by omega
    rw [List.drop_of_length_le (Array.length_toList.le)]
    exact .nothing
  | succ count inductionHypothesis =>
    have inside : position < elements.size := by omega
    have step := next?_midway held machine position
    rw [Array.getElem?_eq_getElem inside] at step
    rw [List.drop_eq_getElem_cons (by simpa using inside)]
    exact .further step (inductionHypothesis inside (by omega))

/-- A loop over an object that iterates as lists and tuples do obtains its elements. -/
theorem traverses_sequence (fuel : Nat) (present : ref ≠ vacantRef)
    (answers : world.Answers ref "__iter__" .seqIter) :
    Traverses (.ofFuel (fuel + 1)) ref world elements.toList
      (.ok () (midway world ref elements.size)) := by
  have started : iter (.ofFuel (fuel + 1)) ref world =
      .ok ⟨world.objects.size⟩ (midway world ref 0) := by
    have runs (native : Native) : runMethod (.ofFuel fuel) native .seqIter ref [] world =
        newIterator (.sequence ref 0) world := rfl
    rw [iter, invoke?_bind fuel answers (by simpa using present) runs]
    rfl
  have ended := next?_midway held (.ofFuel (fuel + 1)) elements.size
  rw [Array.getElem?_eq_none (Nat.le_refl _)] at ended
  exact .ended started (obtains_midway held _ (Nat.zero_le _)) ended

end Sequences

/-- Collecting agrees with a loop. For what is neither a list nor a tuple it gives the elements that
a loop obtains, in the same order, or fails as a loop does, and changes the world in the same way; a
loop always obtains something that it can be compared with, unless it lasts for more rounds than
there may be. Of a list or tuple it gives the elements and changes nothing, whatever the object's
class is; a loop obtains the same if the object iterates as lists and tuples were made to, and then
makes an iterator and nothing else. -/
theorem collect_agrees_or_takes_elements (world : World) {ref : Ref} (present : ref ≠ vacantRef) :
    (world.elements? ref = none → ∀ machine : Machine,
      (∀ elements result, Traverses machine ref world elements result →
        elements.length < machine.budget →
        collect machine ref world = collected elements result) ∧
      ((∃ elements result, Traverses machine ref world elements result ∧
          collect machine ref world = collected elements result) ∨
        ∃ iterator started elements after, iter machine ref world = .ok iterator started ∧
          Obtains machine iterator started elements after ∧ elements.length = machine.budget ∧
          collect machine ref world = .error .exhausted after)) ∧
    ∀ elements, world.elements? ref = some elements →
      (∀ machine : Machine, collect machine ref world = .ok elements world) ∧
      (world.Answers ref "__iter__" .seqIter → ∀ fuel,
        Traverses (.ofFuel (fuel + 1)) ref world elements.toList
          (.ok () (midway world ref elements.size))) := by
  refine ⟨fun other machine => ?_, fun elements held => ⟨fun machine => ?_, fun answers fuel => ?_⟩⟩
  · have drained : collect machine ref world = (iter machine ref >>= drain machine) world := by
      rw [collect, read_bind, other]
    rw [drained]
    refine ⟨fun elements result traverses enough => traverses.drain_eq enough, ?_⟩
    cases started : iter machine ref world with
    | error failure after => exact .inl ⟨[], _, .refused started, bind_of_error started⟩
    | ok iterator middle =>
      obtain ⟨elements, last, short, obtains, ⟨after, ended⟩ | ⟨failure, after, failed⟩⟩ |
        ⟨elements, last, long, obtains⟩ := obtains_or_lasts machine iterator machine.budget middle
      · have traverses : Traverses machine ref world elements (.ok () after) :=
          .ended started obtains ended
        exact .inl ⟨elements, _, traverses, traverses.drain_eq short⟩
      · have traverses : Traverses machine ref world elements (.error failure after) :=
          .failed started obtains failed
        exact .inl ⟨elements, _, traverses, traverses.drain_eq short⟩
      · refine .inr ⟨iterator, middle, elements, last, rfl, obtains, long, ?_⟩
        have all : repeatUntil (drainRound machine iterator) (elements.length + 0) #[] middle =
            repeatUntil (drainRound machine iterator) 0 (#[] ++ elements) last :=
          obtains.repeatUntil_drainRound
        rw [Nat.add_zero, long] at all
        rw [bind_of_ok started, drain_eq, all]
        rfl
  · rw [collect, read_bind, held]
    rfl
  · exact traverses_sequence held fuel present answers

/-! ### A class of the program -/

/-- The world with a new class that extends a built-in one and says nothing itself, and an object of
it. -/
def withDescendant (world : World) (builtin : BuiltinClass) (payload : Payload) : World :=
  { world with
    spaces := world.spaces.push (Namespace.empty.set "__base__" builtin.ref)
    objects := (world.objects.push
      ⟨BuiltinClass.klass.ref, some ⟨world.spaces.size⟩, .empty, none⟩).push
        ⟨⟨world.objects.size⟩, none, payload, none⟩ }

section Descendants

open World

variable (world : World) (builtin : BuiltinClass) (payload : Payload)

theorem extends_withDescendant : world.Extends [] (withDescendant world builtin payload) :=
  (Extends.pushSpace world _).trans ((Extends.push _ _).trans (Extends.push _ _))

theorem object_withDescendant : (withDescendant world builtin payload).object
    ⟨world.objects.size + 1⟩ = ⟨⟨world.objects.size⟩, none, payload, none⟩ := by
  simp [withDescendant, World.object, Array.getElem_push]

theorem ownAttribute?_withDescendant (name : String) :
    (withDescendant world builtin payload).ownAttribute? ⟨world.objects.size⟩ name =
      if name = "__base__" then some builtin.ref else none := by
  have object : (withDescendant world builtin payload).object ⟨world.objects.size⟩ =
      ⟨BuiltinClass.klass.ref, some ⟨world.spaces.size⟩, .empty, none⟩ := by
    simp [withDescendant, World.object, Array.getElem_push]
  have table : (withDescendant world builtin payload).namespaceAt ⟨world.spaces.size⟩ =
      (Namespace.empty.set "__base__" builtin.ref) := by
    simp [withDescendant, namespaceAt]
  have own : (withDescendant world builtin payload).ownAttribute? ⟨world.objects.size⟩ name =
      List.lookup name [("__base__", builtin.ref)] := by
    rw [ownAttribute?, attributes, object]
    exact congrArg (·.get? name) table
  rw [own, List.lookup_cons, List.lookup_nil]
  by_cases same : name = "__base__"
  · rw [beq_iff_eq.mpr same, if_pos same]
  · rw [beq_eq_false_iff_ne.mpr same, if_neg same]

variable {world builtin payload}

/-- Such an object finds the methods of the built-in class. -/
theorem answers_withDescendant (unmodified : world.Unmodified) (root : builtin.base? = none)
    {name : String} {method : Method} (listed : (name, method) ∈ builtin.methods)
    (ordinary : isClassMarker name = false) :
    (withDescendant world builtin payload).Answers ⟨world.objects.size + 1⟩ name method := by
  have extends_ := extends_withDescendant world builtin payload
  have object := object_withDescendant world builtin payload
  have own := ownAttribute?_withDescendant world builtin payload
  have intact := unmodified.toIntact.extend extends_
  have marked : name ≠ "__base__" := by
    rintro rfl
    cases ordinary
  have base : (withDescendant world builtin payload).base? ⟨world.objects.size⟩ =
      some builtin.ref := by
    have isClass_ : (withDescendant world builtin payload).isClass builtin.ref = true := by
      rw [isClass, intact.class_, beq_self_eq_true]
    rw [base?, own, if_pos rfl]
    exact if_pos isClass_
  have last : (withDescendant world builtin payload).base? builtin.ref = none := by
    obtain ⟨function, found, -⟩ := unmodified.method builtin name method listed
    rw [base?, intact.ownAttribute?, extends_.space _ (bound_of_get? found) List.not_mem_nil,
      unmodified.get?_base, root]
    rfl
  have chain : (withDescendant world builtin payload).chain
      ((withDescendant world builtin payload).object ⟨world.objects.size + 1⟩).class_ =
        [⟨world.objects.size⟩] ++ builtin.ref :: [] := by
    rw [object]
    exact (BaseChain.extend base (.last last)).chain_eq
  refine answers_of_chain intact ?_ ?_ chain ?_ listed ordinary
  · have bound := unmodified.bound_class .klass
    rw [isClass, object, beq_eq_false_iff_ne]
    intro same
    rw [← same] at bound
    exact Nat.lt_irrefl _ bound
  · rw [ownAttribute?, attributes, object]
    rfl
  · exact List.forall_mem_singleton.mpr ((own name).trans (if_neg marked))

end Descendants

open World in
/-- An object of a class that extends that of tuples, and an iterator over it. -/
theorem extended_tuple_collected :
    let start := beginning { files := ⟨"/", []⟩, input := "", output := "" } []
    let world := withDescendant start .tuple (.tuple #[trueRef, falseRef])
    let ref : Ref := ⟨start.objects.size + 1⟩
    let iterator : Ref := ⟨world.objects.size⟩
    (ref ≠ vacantRef ∧ world.elements? ref = some #[trueRef, falseRef] ∧
      world.Answers ref "__iter__" .seqIter) ∧
    collect (.ofFuel 3) ref world = .ok #[trueRef, falseRef] world ∧
    Traverses (.ofFuel 3) ref world [trueRef, falseRef] (.ok () (midway world ref 2)) ∧
    (iterator ≠ vacantRef ∧ (midway world ref 0).elements? iterator = none ∧
      Traverses (.ofFuel 3) iterator (midway world ref 0) [trueRef, falseRef]
        (.ok () (midway world ref 2))) ∧
    collect (.ofFuel 3) iterator (midway world ref 0) =
      .ok #[trueRef, falseRef] (midway world ref 2) := by
  have unmodified := beginning_unmodified { files := ⟨"/", []⟩, input := "", output := "" } []
  intro start world ref iterator
  have extends_ : start.Extends [] world := extends_withDescendant start _ _
  have intact : world.Intact := unmodified.toIntact.extend extends_
  have past {place : Nat} (new : start.objects.size ≤ place) : (⟨place⟩ : Ref) ≠ vacantRef := by
    rintro same
    have bound := unmodified.bound_vacant
    rw [← same] at bound
    exact Nat.not_lt.mpr new bound
  have present : ref ≠ vacantRef := past (Nat.le_succ _)
  have presentToo : iterator ≠ vacantRef := past extends_.objects
  have held : world.elements? ref = some #[trueRef, falseRef] := by
    rw [elements?, World.payload, object_withDescendant]
  have answers : world.Answers ref "__iter__" .seqIter :=
    answers_withDescendant unmodified rfl (by decide) (by decide)
  have plain : (midway world ref 0).Plain iterator .iterator (.iterator (.sequence ref 0)) :=
    plain_push world .iterator (.iterator (.sequence ref 0))
  have other : (midway world ref 0).elements? iterator = none := by
    rw [elements?, plain.payload]
  have answersToo : (midway world ref 0).Answers iterator "__iter__" .iteratorIter :=
    (intact.extend (.push world _)).answers plain (by decide) (by decide) (by decide)
  have started : iter (.ofFuel 3) iterator (midway world ref 0) =
      .ok iterator (midway world ref 0) := by
    have runs (native : Native) : runMethod (.ofFuel 2) native .iteratorIter iterator []
        (midway world ref 0) = .ok iterator (midway world ref 0) := rfl
    rw [iter, invoke?_bind 2 answersToo (by simpa using presentToo) runs]
    rfl
  have ended := next?_midway held (.ofFuel 3) 2
  have traverses : Traverses (.ofFuel 3) iterator (midway world ref 0) [trueRef, falseRef]
      (.ok () (midway world ref 2)) :=
    .ended started (obtains_midway held _ (Nat.zero_le _)) ended
  obtain ⟨-, taken⟩ := collect_agrees_or_takes_elements world present
  obtain ⟨collects, loops⟩ := taken _ held
  obtain ⟨agrees, -⟩ := (collect_agrees_or_takes_elements _ presentToo).1 other (.ofFuel 3)
  exact ⟨⟨present, held, answers⟩, collects _, loops answers 2, ⟨presentToo, other, traverses⟩,
    agrees _ _ traverses (by decide)⟩

end Exec

end Offside
