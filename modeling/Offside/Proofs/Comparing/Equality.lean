/-
This file shows that the operator of equality decides equality of values. It asks the
special method of its left operand, and there are six such methods, each with its own
way: numbers are compared as numbers, texts as texts, sequences position by position,
where an object equals itself without being asked, dicts by going through the entries of
the left one, and sets by going through its keys. The absent value has no such method and
is compared by identity. For objects that stand for values all of them come to the same.

So what is known of values is known of programs: equality never raises, is reflexive,
symmetric and transitive, does not see the order of insertion, and agrees with hashes.
-/

import Offside.Proofs.Comparing.Classes
import Offside.Proofs.Comparing.Objects
import Offside.Proofs.Items.Lists

namespace Offside

open Exec Library World

namespace Exec

/-! ### Answers -/

/-- The step answers a question with yes or no; it raises nothing and changes nothing. -/
def Judges (step : Exec Bool) (world : World) (question : Prop) : Prop :=
  ∃ answer, step world = .ok answer world ∧ (answer = true ↔ question)

/-- The step answers a question with a truth value of the language. -/
def Tells (step : Exec Ref) (world : World) (question : Prop) : Prop :=
  ∃ answer, step world = .ok (truthRef answer) world ∧ (answer = true ↔ question)

variable {world : World} {question other : Prop}

theorem Judges.of_same {step alike : Exec Bool} (same : step world = alike world)
    (judges : Judges alike world question) : Judges step world question := by
  obtain ⟨answer, given, right⟩ := judges
  exact ⟨answer, same.trans given, right⟩

theorem Judges.congr {step : Exec Bool} (judges : Judges step world question)
    (same : question ↔ other) : Judges step world other := by
  obtain ⟨answer, given, right⟩ := judges
  exact ⟨answer, given, right.trans same⟩

/-- What decides a question tells the answer. -/
theorem Judges.tells {step : Exec Bool} (judges : Judges step world question) :
    Tells (do return truthRef (← step)) world question := by
  obtain ⟨answer, given, right⟩ := judges
  exact ⟨answer, bind_of_ok given, right⟩

/-- One step after another: the second one is taken if the answer of the first one is yes. -/
theorem Judges.and {step next : Exec Bool} (judges : Judges step world question)
    (nextJudges : Judges next world other) :
    Judges (do if ← step then next else return false) world (question ∧ other) := by
  obtain ⟨answer, given, right⟩ := judges
  cases answer with
  | false => exact ⟨false, bind_of_ok given, by simp [← right]⟩
  | true =>
    obtain ⟨last, lastGiven, lastRight⟩ := nextJudges
    exact ⟨last, (bind_of_ok given).trans lastGiven, by simp [← right, lastRight]⟩

end Exec

namespace World

variable {allowed : Ref → Prop} {world : World}

/-- The operator takes the answer that the method of the left value tells. -/
theorem equal_judges_of_tells (fuel : Nat) (unmodified : world.Unmodified)
    {literal other : Literal} {first second : Ref}
    (represented : world.RepresentsIn allowed literal first)
    (otherRepresented : world.RepresentsIn allowed other second) {owner : BuiltinClass}
    {method : Method} (found : literal.builtin.method? "__eq__" = some (owner, method))
    {step : Exec Ref} (runs : ∀ native,
      runMethod (.ofFuel fuel) native method first [second] world = step world)
    {question : Prop} (tells : Tells step world question) :
    Judges (equal (.ofFuel (fuel + 1)) first second) world question := by
  obtain ⟨answer, told, right⟩ := tells
  obtain ⟨_, plain, -⟩ := represented.holding
  have answers := unmodified.answers_method? plain literal.builtin_ne_klass (by decide) found
  have present : ∀ argument ∈ [first, second], argument ≠ vacantRef := by
    simp [represented.present unmodified.toIntact, otherRepresented.present unmodified.toIntact]
  refine ⟨answer, ?_, right⟩
  rw [equal, invoke?_bind fuel answers present runs, bind_of_ok told]
  exact unmodified.truthy_truthRef _ answer

/-! ### Numbers, texts and the absent value -/

/-- Only numbers are numbers. -/
theorem Holding.numeric {literal : Literal} {payload : Payload}
    (holding : world.Holding allowed literal payload) :
    Numeric.ofPayload? payload = literal.number?.map .int := by
  cases holding with
  | bool value => cases value <;> rfl
  | _ => rfl

theorem RepresentsIn.numeric {literal : Literal} {ref : Ref}
    (represented : world.RepresentsIn allowed literal ref) :
    Numeric.ofPayload? (world.payload ref) = literal.number?.map .int := by
  obtain ⟨_, plain, holding⟩ := represented.holding
  rw [plain.payload]
  exact holding.numeric

theorem numberEq_tells {literal other : Literal} {first second : Ref} {number : Int64}
    (counts : literal.number? = some number)
    (represented : world.RepresentsIn allowed literal first)
    (otherRepresented : world.RepresentsIn allowed other second) :
    Tells (numberEq first second) world (literal.Same other) := by
  rw [Literal.same_of_number? counts]
  have mine := represented.numeric
  rw [counts, Option.map_some] at mine
  have others := otherRepresented.numeric
  cases otherCounts : other.number? with
  | none =>
    rw [otherCounts, Option.map_none] at others
    refine ⟨false, ?_, by simp⟩
    rw [numberEq, numericOf?, read_bind, numericOf?, read_bind, mine, others]
    rfl
  | some otherNumber =>
    rw [otherCounts, Option.map_some] at others
    refine ⟨number == otherNumber, ?_, ?_⟩
    · rw [numberEq, numericOf?, read_bind, numericOf?, read_bind, mine, others]
      rfl
    · rw [beq_iff_eq, Option.some_inj, eq_comm]

theorem stringEq_tells {text : String} {other : Literal} {first second : Ref}
    (represented : world.RepresentsIn allowed (.str text) first)
    (otherRepresented : world.RepresentsIn allowed other second) :
    Tells (stringEq first second) world ((Literal.str text).Same other) := by
  have mine : textOrEmpty first world = .ok text world := by
    rw [textOrEmpty, textOf?, read_bind, represented.2.payload]
    rfl
  obtain ⟨_, plain, holding⟩ := otherRepresented.holding
  rw [Literal.Same]
  cases holding with
  | str value =>
    refine ⟨text == value, ?_, ?_⟩
    · rw [stringEq, textOf?, read_bind, plain.payload]
      exact bind_of_ok mine
    · rw [beq_iff_eq, Literal.str.injEq, eq_comm]
  | _ =>
    refine ⟨false, ?_, by simp⟩
    rw [stringEq, textOf?, read_bind, plain.payload]
    rfl

/-- What has no method for it is equal to what is identical. -/
theorem equal_none_judges (machine : Machine) (unmodified : world.Unmodified) {other : Literal}
    {first second : Ref} (represented : world.RepresentsIn allowed .none first)
    (otherRepresented : world.RepresentsIn allowed other second) :
    Judges (equal machine first second) world (Literal.none.Same other) := by
  have plain := represented.2.2
  have notFound : world.lookupOperator first "__eq__" = none :=
    unmodified.lookupOperator_eq_none plain (by decide) (by decide) rfl
  refine ⟨world.isSame first second, ?_, ?_⟩
  · rw [equal, invoke?, bind_assoc,
      bind_of_ok (checkPresent_of_ne (represented.present unmodified.toIntact) world),
      bind_assoc, read_bind, notFound]
    rfl
  · rw [Literal.Same, isSame, plain.payload]
    by_cases same : first = second
    · subst same
      simp [otherRepresented.unique represented]
    · obtain ⟨_, otherPlain, holding⟩ := otherRepresented.holding
      rw [beq_false_of_ne same, Bool.false_or, otherPlain.payload]
      cases holding <;> simp

/-! ### Sequences -/

/-- What a sequence shows element by element stands for these values. -/
structure Presents (allowed : Ref → Prop) (world : World) (span : Span) (elements : List Literal) :
    Prop where
  size : span.size = elements.length
  element : ∀ place literal, elements[place]? = some literal →
    world.RepresentsIn allowed literal (world.spanElement span place)

theorem presents_of_forall₂ {ref : Ref} {span : Span} {cells : Array Ref} {elements : List Literal}
    (found : world.span? ref = some span) (held : world.elements ref = cells)
    (size : span.size = cells.size)
    (parts : List.Forall₂ (world.RepresentsIn allowed) elements cells.toList) :
    world.Presents allowed span elements where
  size := by rw [size, parts.length_eq, Array.length_toList]
  element place literal known := by
    rw [spanElement_of_span? found, held]
    obtain ⟨inside, rfl⟩ := List.getElem?_eq_some_iff.mp known
    have within : place < cells.size := by
      rwa [parts.length_eq, Array.length_toList] at inside
    rw [Array.getD_eq_getD_getElem?, Array.getElem?_eq_getElem within, Option.getD_some]
    have together := parts.get inside (by rwa [Array.length_toList])
    rwa [List.get_eq_getElem, List.get_eq_getElem, Array.getElem_toList] at together

/-- What there is to go through in an object are the elements of its value. -/
theorem RepresentsIn.presents {literal : Literal} {elements : List Literal} {ref : Ref}
    (represented : world.RepresentsIn allowed literal ref)
    (sequence : literal.elements? = some elements) :
    ∃ span, world.span? ref = some span ∧ world.Presents allowed span elements := by
  obtain ⟨payload, plain, holding⟩ := represented.holding
  cases holding with
  | list parts =>
    cases sequence
    have found := show world.span? ref = _ by rw [span?, plain.payload]
    exact ⟨_, found, presents_of_forall₂ found
      (by rw [World.elements, elements?, plain.payload]; rfl) rfl parts⟩
  | tuple parts =>
    cases sequence
    have found := show world.span? ref = _ by rw [span?, plain.payload]
    exact ⟨_, found, presents_of_forall₂ found
      (by rw [World.elements, elements?, plain.payload]; rfl) rfl parts⟩
  | _ => cases sequence

/-- Sequences of one class are peers. -/
theorem isPeer_iff {literal other : Literal} {first second : Ref}
    (represented : world.RepresentsIn allowed literal first)
    (otherRepresented : world.RepresentsIn allowed other second) :
    isPeer world first second = true ↔ literal.builtin = other.builtin := by
  obtain ⟨_, plain, -⟩ := represented.holding
  obtain ⟨_, otherPlain, -⟩ := otherRepresented.holding
  rw [isPeer, plain.class_, otherPlain.class_, beq_iff_eq, BuiltinClass.ref_injective.eq_iff]

variable {left right : Span} {elements others : List Literal} {machine : Machine}

/-- Comparing position by position decides equality of all elements that are still to come. -/
theorem allEqual_judges (presents : world.Presents allowed left elements)
    (otherPresents : world.Presents allowed right others)
    (lengths : elements.length = others.length)
    (each : ∀ element ∈ elements, ∀ other ∈ others, ∀ {first second : Ref},
      world.RepresentsIn allowed element first → world.RepresentsIn allowed other second →
      Judges (equal machine first second) world (element.Same other)) :
    ∀ {count position : Nat}, position + count = elements.length →
      Judges (allEqual machine left right count position) world
        (List.Forall₂ Literal.Same (elements.drop position) (others.drop position)) := by
  intro count
  induction count with
  | zero =>
    intro position all
    refine ⟨true, rfl, ?_⟩
    rw [List.drop_of_length_le (by omega), List.drop_of_length_le (by omega)]
    simp
  | succ count inductionHypothesis =>
    intro position all
    have inside : position < elements.length := by omega
    have otherInside : position < others.length := by omega
    have represented := presents.element position _ (List.getElem?_eq_getElem inside)
    have otherRepresented := otherPresents.element position _ (List.getElem?_eq_getElem otherInside)
    have rest := @inductionHypothesis (position + 1) (by omega)
    rw [List.drop_eq_getElem_cons inside, List.drop_eq_getElem_cons otherInside,
      List.forall₂_cons]
    by_cases identical : world.spanElement left position = world.spanElement right position
    · refine .of_same ?_ (rest.congr ?_)
      · rw [allEqual, elementOf, read_bind, elementOf, read_bind, identical, beq_self_eq_true,
          if_pos rfl]
      · rw [identical] at represented
        rw [represented.unique otherRepresented]
        simp [Literal.Same.refl]
    · refine .of_same ?_ ((each _ (List.getElem_mem inside) _ (List.getElem_mem otherInside)
        represented otherRepresented).and rest)
      rw [allEqual, elementOf, read_bind, elementOf, read_bind, beq_false_of_ne identical,
        if_neg Bool.false_ne_true]

theorem sequenceEq_tells {literal other : Literal} {elements : List Literal} {first second : Ref}
    (represented : world.RepresentsIn allowed literal first)
    (otherRepresented : world.RepresentsIn allowed other second)
    (sequence : literal.elements? = some elements)
    (each : ∀ others, other.elements? = some others → ∀ element ∈ elements, ∀ other ∈ others,
      ∀ {first second : Ref}, world.RepresentsIn allowed element first →
        world.RepresentsIn allowed other second →
        Judges (equal machine first second) world (element.Same other)) :
    Tells (sequenceEq machine first second) world (literal.Same other) := by
  obtain ⟨span, found, presents⟩ := represented.presents sequence
  have peers := isPeer_iff represented otherRepresented
  rw [Literal.same_of_elements? sequence]
  by_cases alike : literal.builtin = other.builtin
  · obtain ⟨others, otherSequence⟩ := Literal.exists_elements? alike sequence
    obtain ⟨otherSpan, otherFound, otherPresents⟩ := otherRepresented.presents otherSequence
    have enter : sequenceEq machine first second world =
        (if span.size == otherSpan.size then
          do return truthRef (← allEqual machine span otherSpan span.size 0)
        else return falseRef : Exec Ref) world := by
      rw [sequenceEq, spanOf, read_bind, found, peerSpan?, read_bind, peers.mpr alike, if_pos rfl,
        otherFound]
      rfl
    by_cases lengths : elements.length = others.length
    · obtain ⟨answer, given, right⟩ := (allEqual_judges presents otherPresents lengths
        (each others otherSequence) (Nat.zero_add elements.length)).tells
      refine ⟨answer, ?_, right.trans ?_⟩
      · rw [enter, presents.size, otherPresents.size, lengths, beq_self_eq_true, if_pos rfl,
          ← lengths]
        exact given
      · simp [alike, otherSequence]
    · refine ⟨false, ?_, ?_⟩
      · rw [enter, presents.size, otherPresents.size, beq_false_of_ne lengths,
          if_neg Bool.false_ne_true]
        rfl
      · simp only [alike, otherSequence, Option.some.injEq, exists_eq_left', true_and,
          Bool.false_eq_true, false_iff]
        exact fun same => lengths same.length_eq
  · refine ⟨false, ?_, by simp [alike]⟩
    rw [sequenceEq, spanOf, read_bind, peerSpan?, read_bind, if_neg (alike ∘ peers.mp)]
    rfl

/-! ### Dicts -/

/-- A key finds the place of its value in a dict. -/
theorem slotOf?_eq {key : Literal} {second ref : Ref} {others : List (Literal × Literal)}
    {table : Table SlotId} (held : world.payload second = .dict table)
    (stored : List.Forall₂ (world.Stored allowed) others table.entries.toList)
    (othersHashable : ∀ other ∈ others, other.1.Hashable) (hashable : key.Hashable)
    (represented : world.RepresentsIn allowed key ref) :
    (∃ value slot, (key, value) ∈ others ∧ world.RepresentsIn allowed value (world.slot slot) ∧
      slotOf? second ref world = .ok (some slot) world) ∨
    (∀ other ∈ others, other.1 ≠ key) ∧ slotOf? second ref world = .ok none world := by
  have asked : slotOf? second ref world = .ok (world.tableGet? table ref) world := by
    dsimp only [slotOf?, Exec.read]
    rw [held]
  rw [asked, tableGet?, Table.get?, Table.find?_eq]
  obtain ⟨⟨_, value⟩, inside, cell, rfl, fits, found⟩ | ⟨absent, nothing⟩ :=
    find?_of_keyed Prod.fst Stored.toKeyed hashable represented stored othersHashable
  · exact .inl ⟨value, cell.value, inside, fits.value, by rw [found]; rfl⟩
  · exact .inr ⟨absent, by rw [nothing]; rfl⟩

/-- Going through the entries of one dict decides whether they have partners in the other. -/
theorem entriesAgree_judges {second : Ref} {others : List (Literal × Literal)}
    {table : Table SlotId} (held : world.payload second = .dict table)
    (otherStored : List.Forall₂ (world.Stored allowed) others table.entries.toList)
    (othersHashable : ∀ other ∈ others, other.1.Hashable)
    (distinct : (others.map Prod.fst).Nodup) {entries : List (Literal × Literal)}
    {cells : List (Table.Entry SlotId)}
    (stored : List.Forall₂ (world.Stored allowed) entries cells)
    (each : ∀ entry ∈ entries, entry.1.Hashable ∧ ∀ other ∈ others, ∀ {first second : Ref},
      world.RepresentsIn allowed entry.2 first → world.RepresentsIn allowed other.2 second →
      Judges (equal machine first second) world (entry.2.Same other.2)) :
    Judges (entriesAgree machine second cells) world
      (∀ entry ∈ entries, ∃ other, (entry.1, other) ∈ others ∧ entry.2.Same other) := by
  induction stored with
  | nil => exact ⟨true, rfl, by simp⟩
  | @cons entry cell entries cells head tail inductionHypothesis =>
    rw [List.forall_mem_cons] at each
    obtain ⟨⟨hashable, answers⟩, rest⟩ := each
    obtain ⟨value, slot, inside, represented, found⟩ | ⟨absent, nothing⟩ :=
      slotOf?_eq held otherStored othersHashable hashable head.represented
    · have onlyOne : (∃ other, (entry.1, other) ∈ others ∧ entry.2.Same other) ↔
          entry.2.Same value := by
        refine ⟨fun ⟨other, otherInside, same⟩ => ?_, fun same => ⟨value, inside, same⟩⟩
        have together := List.inj_on_of_nodup_map distinct otherInside inside rfl
        cases together
        exact same
      have judges := (answers _ inside head.value represented).and (inductionHypothesis rest)
      rw [List.forall_mem_cons, onlyOne]
      refine .of_same ?_ judges
      rw [entriesAgree, bind_of_ok found]
      rfl
    · refine ⟨false, ?_, ?_⟩
      · rw [entriesAgree, bind_of_ok nothing]
        rfl
      · rw [List.forall_mem_cons]
        simp only [Bool.false_eq_true, false_iff]
        rintro ⟨⟨other, inside, -⟩, -⟩
        exact absent _ inside rfl

theorem dictEq_tells {entries : List (Literal × Literal)} {other : Literal} {first second : Ref}
    (consistent : (Literal.dict entries).Consistent) (otherConsistent : other.Consistent)
    (represented : world.RepresentsIn allowed (.dict entries) first)
    (otherRepresented : world.RepresentsIn allowed other second)
    (each : ∀ entry ∈ entries, ∀ {other : Literal}, other.Consistent → ∀ {first second : Ref},
      world.RepresentsIn allowed entry.2 first → world.RepresentsIn allowed other second →
      Judges (equal machine first second) world (entry.2.Same other)) :
    Tells (dictEq machine first second) world ((Literal.dict entries).Same other) := by
  obtain ⟨payload, plain, holding⟩ := represented.holding
  obtain ⟨otherPayload, otherPlain, otherHolding⟩ := otherRepresented.holding
  cases holding with
  | @dict _ table parts => cases otherHolding with
    | @dict others otherTable otherParts =>
      rw [Literal.Consistent, Literal.consistentEntries_iff] at consistent otherConsistent
      rw [Literal.same_dict_iff]
      have sizes : table.size = entries.length ∧ otherTable.size = others.length := by
        simp [Table.size_eq, parts.length_eq, otherParts.length_eq]
      have enter : dictEq machine first second world =
          (if table.size == otherTable.size then
            do return truthRef (← entriesAgree machine second table.entries.toList)
          else return falseRef : Exec Ref) world := by
        rw [dictEq, read_bind, read_bind, plain.payload, otherPlain.payload]
      rw [sizes.1, sizes.2] at enter
      by_cases lengths : entries.length = others.length
      · obtain ⟨answer, given, right⟩ := (entriesAgree_judges otherPlain.payload otherParts
          (fun other inside => (otherConsistent.1 other inside).1) otherConsistent.2 parts
          fun entry inside => ⟨(consistent.1 entry inside).1, fun other otherInside =>
            each entry inside (otherConsistent.1 other otherInside).2⟩).tells
        refine ⟨answer, ?_, right.trans (by simp [lengths])⟩
        rw [enter, lengths, beq_self_eq_true, if_pos rfl]
        exact given
      · refine ⟨false, ?_, by simp [lengths]⟩
        rw [enter, beq_false_of_ne lengths, if_neg Bool.false_ne_true]
        rfl
    | _ =>
      refine ⟨false, ?_, by simp [Literal.Same]⟩
      rw [dictEq, read_bind, read_bind, plain.payload, otherPlain.payload]
      rfl

/-! ### Sets -/

/-- A key is in a set exactly if its value is. -/
theorem tableContains_iff {key : Literal} {ref : Ref} {others : List Literal}
    {table : Table Unit} (keyed : List.Forall₂ (world.Keyed allowed) others table.entries.toList)
    (othersHashable : ∀ other ∈ others, other.Hashable) (hashable : key.Hashable)
    (represented : world.RepresentsIn allowed key ref) :
    world.tableContains table ref = true ↔ key ∈ others := by
  rw [tableContains, Table.contains, Table.find?_eq]
  obtain ⟨_, inside, cell, rfl, -, found⟩ | ⟨absent, nothing⟩ :=
    find?_of_keyed id id hashable represented keyed othersHashable
  · simp [found, inside]
  · simp only [nothing, Option.isSome_none, Bool.false_eq_true, false_iff]
    exact fun inside => absent _ inside rfl

/-- All keys of one set are in the other one exactly if all elements are. -/
theorem all_tableContains_iff {elements others : List Literal} {cells : List (Table.Entry Unit)}
    {table : Table Unit} (keyed : List.Forall₂ (world.Keyed allowed) elements cells)
    (hashable : ∀ element ∈ elements, element.Hashable)
    (otherKeyed : List.Forall₂ (world.Keyed allowed) others table.entries.toList)
    (othersHashable : ∀ other ∈ others, other.Hashable) :
    (∀ cell ∈ cells, world.tableContains table cell.key = true) ↔ elements ⊆ others := by
  induction keyed with
  | nil => simp
  | cons head _ inductionHypothesis =>
    rw [List.forall_mem_cons] at hashable
    rw [List.forall_mem_cons, inductionHypothesis hashable.2, List.cons_subset,
      tableContains_iff otherKeyed othersHashable hashable.1 head.represented]

theorem setEq_tells {elements : List Literal} {other : Literal} {first second : Ref}
    (consistent : (Literal.set elements).Consistent) (otherConsistent : other.Consistent)
    (represented : world.RepresentsIn allowed (.set elements) first)
    (otherRepresented : world.RepresentsIn allowed other second) :
    Tells (setEq first second) world ((Literal.set elements).Same other) := by
  obtain ⟨payload, plain, holding⟩ := represented.holding
  obtain ⟨otherPayload, otherPlain, otherHolding⟩ := otherRepresented.holding
  cases holding with
  | @set _ table parts => cases otherHolding with
    | @set others otherTable otherParts =>
      rw [Literal.Consistent, Literal.hashableAll_iff] at consistent otherConsistent
      refine ⟨table.size == otherTable.size && table.keys.all (world.tableContains otherTable),
        ?_, ?_⟩
      · dsimp only [setEq, Exec.read]
        rw [plain.payload, otherPlain.payload]
      · have all : table.keys.all (world.tableContains otherTable) = true ↔ elements ⊆ others := by
          rw [Table.keys, Array.all_eq_true', ← all_tableContains_iff parts consistent.1 otherParts
            otherConsistent.1]
          simp
        rw [Literal.same_set_iff, Bool.and_eq_true, beq_iff_eq, all, Table.size_eq, Table.size_eq,
          ← Array.length_toList, ← Array.length_toList, parts.length_eq, otherParts.length_eq]
    | _ =>
      refine ⟨false, ?_, by simp [Literal.Same]⟩
      dsimp only [setEq, Exec.read]
      rw [plain.payload, otherPlain.payload]
      rfl

/-! ### All values -/

/-- The operator decides equality of values. -/
theorem equal_judges (unmodified : world.Unmodified) {literal : Literal} :
    ∀ {other : Literal} {first second : Ref} {fuel : Nat}, literal.Consistent →
      other.Consistent → literal.depth < fuel → world.RepresentsIn allowed literal first →
      world.RepresentsIn allowed other second →
      Judges (equal (.ofFuel fuel) first second) world (literal.Same other) := by
  induction literal using Literal.induct with
  | none =>
    intro other first second fuel _ _ _ represented otherRepresented
    exact equal_none_judges _ unmodified represented otherRepresented
  | bool value | int value =>
    intro other first second fuel _ _ enough represented otherRepresented
    obtain ⟨fuel, rfl⟩ := Nat.exists_eq_add_of_lt enough
    exact equal_judges_of_tells _ unmodified represented otherRepresented rfl (fun _ => rfl)
      (numberEq_tells rfl represented otherRepresented)
  | str value =>
    intro other first second fuel _ _ enough represented otherRepresented
    obtain ⟨fuel, rfl⟩ := Nat.exists_eq_add_of_lt enough
    exact equal_judges_of_tells _ unmodified represented otherRepresented rfl (fun _ => rfl)
      (stringEq_tells represented otherRepresented)
  | list elements inductionHypothesis | tuple elements inductionHypothesis =>
    intro other first second fuel consistent otherConsistent enough represented otherRepresented
    obtain ⟨fuel, rfl⟩ := Nat.exists_eq_add_of_lt enough
    refine equal_judges_of_tells _ unmodified represented otherRepresented rfl (fun _ => rfl)
      (sequenceEq_tells represented otherRepresented rfl ?_)
    intro others otherSequence element inside other otherInside first second
    exact inductionHypothesis element inside (consistent.elements? rfl element inside)
      (otherConsistent.elements? otherSequence other otherInside)
      (by have := Literal.depth_le_depthAll element inside; rw [Literal.depth]; omega)
  | dict entries inductionHypothesis =>
    intro other first second fuel consistent otherConsistent enough represented otherRepresented
    obtain ⟨fuel, rfl⟩ := Nat.exists_eq_add_of_lt enough
    refine equal_judges_of_tells _ unmodified represented otherRepresented rfl (fun _ => rfl)
      (dictEq_tells consistent otherConsistent represented otherRepresented ?_)
    intro entry inside other otherConsistent first second
    rw [Literal.Consistent, Literal.consistentEntries_iff] at consistent
    exact (inductionHypothesis entry inside).2 (consistent.1 entry inside).2 otherConsistent
      (by have := Literal.depth_le_depthEntries entry inside; rw [Literal.depth]; omega)
  | set elements =>
    intro other first second fuel consistent otherConsistent enough represented otherRepresented
    obtain ⟨fuel, rfl⟩ := Nat.exists_eq_add_of_lt enough
    exact equal_judges_of_tells _ unmodified represented otherRepresented rfl (fun _ => rfl)
      (setEq_tells consistent otherConsistent represented otherRepresented)

/-! ### Hashes -/

/-- The operator takes the integer that the method of the value makes. -/
theorem hash_of_method (fuel : Nat) (unmodified : world.Unmodified) {literal : Literal} {ref : Ref}
    (hashable : literal.Hashable) (represented : world.RepresentsIn allowed literal ref)
    {owner : BuiltinClass} {method : Method}
    (found : literal.builtin.method? "__hash__" = some (owner, method)) {code : Int64}
    (makes : ∀ native, runMethod (.ofFuel fuel) native method ref [] world = newInt code world) :
    ∃ after, Exec.hash (.ofFuel (fuel + 1)) ref world = .ok code after := by
  obtain ⟨_, plain, -⟩ := represented.holding
  have answers := unmodified.answers_method? plain literal.builtin_ne_klass (by decide) found
  have present : ∀ argument ∈ [ref], argument ≠ vacantRef := by
    simp [represented.present unmodified.toIntact]
  obtain ⟨made, after, given, held⟩ : ∃ made after, newInt code world = .ok made after ∧
      after.payload made = .int code :=
    ⟨_, _, rfl, (plain_push world .int (.int code)).payload⟩
  refine ⟨after, ?_⟩
  rw [Exec.hash, bind_of_ok (checkHashable_literal hashable represented unmodified.toIntact),
    invoke?_bind fuel answers present makes, bind_of_ok given]
  dsimp only
  rw [read_bind, held]
  rfl

theorem numberHash_eq {literal : Literal} {ref : Ref} {number : Int64}
    (counts : literal.number? = some number)
    (represented : world.RepresentsIn allowed literal ref) :
    numberHash ref world = newInt (world.keyHash ref).toInt64 world := by
  have numeric := represented.numeric
  rw [counts, Option.map_some] at numeric
  rw [numberHash, numericUnary, numericOf?, read_bind, numeric]
  rfl

/-- The hash of a tuple is taken once its elements have been found to be hashable. -/
theorem tupleHash_eq (intact : world.Intact) {elements : List Literal} {ref : Ref}
    (hashable : (Literal.tuple elements).Hashable)
    (represented : world.RepresentsIn allowed (.tuple elements) ref) :
    tupleHash ref world = newInt (world.keyHash ref).toInt64 world := by
  obtain ⟨-, cells, plain, parts⟩ := represented
  have held : world.elements ref = cells := by
    rw [World.elements, elements?, plain.payload]
    rfl
  have checked : ∀ {elements : List Literal} {refs : List Ref}, Literal.HashableAll elements →
      List.Forall₂ (world.RepresentsIn allowed) elements refs →
      refs.forM checkHashable world = .ok () world := by
    intro elements refs hashable parts
    induction parts with
    | nil => rfl
    | cons head _ inductionHypothesis =>
      exact (bind_of_ok (checkHashable_literal hashable.1 head intact)).trans
        (inductionHypothesis hashable.2)
  have asList := List.forM_toArray cells.toList checkHashable
  rw [Array.toArray_toList] at asList
  rw [tupleHash, elementsOf, read_bind, held, Array.forM_eq_forM, asList]
  exact bind_of_ok (checked hashable (representsAll_iff.mp parts))

/-- A program sees the hash of the value. -/
theorem hash_gives (unmodified : world.Unmodified) {literal : Literal} {ref : Ref} {fuel : Nat}
    (hashable : literal.Hashable) (enough : literal.depth < fuel)
    (represented : world.RepresentsIn allowed literal ref) :
    ∃ after, Exec.hash (.ofFuel fuel) ref world = .ok literal.hash.toInt64 after := by
  obtain ⟨fuel, rfl⟩ := Nat.exists_eq_add_of_lt enough
  rw [← keyHash_eq_hash hashable represented]
  cases literal with
  | none =>
    have notFound : world.lookupOperator ref "__hash__" = none :=
      unmodified.lookupOperator_eq_none represented.2.2 (by decide) (by decide) rfl
    refine ⟨world, ?_⟩
    rw [Exec.hash, bind_of_ok (checkHashable_literal hashable represented unmodified.toIntact),
      invoke?, bind_assoc,
      bind_of_ok (checkPresent_of_ne (represented.present unmodified.toIntact) world),
      bind_assoc, read_bind, notFound]
    rfl
  | bool value =>
    exact hash_of_method _ unmodified hashable represented rfl fun _ =>
      numberHash_eq rfl represented
  | int value =>
    exact hash_of_method _ unmodified hashable represented rfl fun _ =>
      numberHash_eq rfl represented
  | str value =>
    exact hash_of_method _ unmodified hashable represented rfl fun _ => rfl
  | tuple elements =>
    exact hash_of_method _ unmodified hashable represented rfl fun _ =>
      tupleHash_eq unmodified.toIntact hashable represented
  | list => exact hashable.elim
  | dict => exact hashable.elim
  | set => exact hashable.elim

/-! ### Equality of values -/

/-- The object stands for a value that can exist, and the interpreter has the fuel to go all the way
down into it. -/
structure StandsFor (world : World) (fuel : Nat) (ref : Ref) (literal : Literal) : Prop where
  represents : world.Represents ref literal
  consistent : literal.Consistent
  enough : literal.depth < fuel

section Values

variable {fuel : Nat} {literal other last : Literal} {first second third : Ref}

theorem equal_iff (unmodified : world.Unmodified) (stands : world.StandsFor fuel first literal)
    (otherStands : world.StandsFor fuel second other) :
    equal (.ofFuel fuel) first second world = .ok true world ↔ literal.Same other := by
  obtain ⟨answer, given, right⟩ := equal_judges unmodified stands.consistent
    otherStands.consistent stands.enough stands.represents otherStands.represents
  rw [← right, given, EStateM.Result.ok.injEq, and_iff_left rfl]

/-- What is known of the values decides between answers. -/
theorem equal_eq_equal (unmodified : world.Unmodified) {fourth : Ref} {further : Literal}
    (stands : world.StandsFor fuel first literal) (otherStands : world.StandsFor fuel second other)
    (lastStands : world.StandsFor fuel third last)
    (furtherStands : world.StandsFor fuel fourth further)
    (alike : literal.Same other ↔ last.Same further) :
    equal (.ofFuel fuel) first second world = equal (.ofFuel fuel) third fourth world := by
  obtain ⟨answer, given, right⟩ := equal_judges unmodified stands.consistent
    otherStands.consistent stands.enough stands.represents otherStands.represents
  obtain ⟨otherAnswer, otherGiven, otherRight⟩ := equal_judges unmodified lastStands.consistent
    furtherStands.consistent lastStands.enough lastStands.represents furtherStands.represents
  rw [given, otherGiven, Bool.eq_iff_iff.mpr ((right.trans alike).trans otherRight.symm)]

/-- Equality of values. It never raises and is an equivalence, in which dicts and sets that differ
in the order of insertion only are the same; and values that are equal and can be hashed have one
hash. -/
theorem equality_of_values (unmodified : world.Unmodified)
    (stands : world.StandsFor fuel first literal) (otherStands : world.StandsFor fuel second other)
    (lastStands : world.StandsFor fuel third last) :
    (∃ answer, equal (.ofFuel fuel) first second world = .ok answer world ∧
      (answer = true ↔ literal.Same other)) ∧
    equal (.ofFuel fuel) first first world = .ok true world ∧
    equal (.ofFuel fuel) first second world = equal (.ofFuel fuel) second first world ∧
    (equal (.ofFuel fuel) first second world = .ok true world →
      equal (.ofFuel fuel) second third world = .ok true world →
      equal (.ofFuel fuel) first third world = .ok true world) ∧
    (literal.Reordered other → equal (.ofFuel fuel) first second world = .ok true world ∧
      equal (.ofFuel fuel) first third world = equal (.ofFuel fuel) second third world) ∧
    (literal.Hashable → other.Hashable →
      equal (.ofFuel fuel) first second world = .ok true world →
      ∃ code, (∃ after, Exec.hash (.ofFuel fuel) first world = .ok code after) ∧
        ∃ after, Exec.hash (.ofFuel fuel) second world = .ok code after) := by
  rw [equal_iff unmodified stands otherStands, equal_iff unmodified otherStands lastStands,
    equal_iff unmodified stands lastStands, equal_iff unmodified stands stands]
  refine ⟨?never, Literal.Same.refl literal, ?symmetric, Literal.Same.trans, ?order, ?hash⟩
  case never =>
    exact equal_judges unmodified stands.consistent otherStands.consistent stands.enough
      stands.represents otherStands.represents
  case symmetric =>
    exact equal_eq_equal unmodified stands otherStands otherStands stands
      ⟨Literal.Same.symm stands.consistent otherStands.consistent,
        Literal.Same.symm otherStands.consistent stands.consistent⟩
  case order =>
    intro reordered
    exact ⟨reordered.same, equal_eq_equal unmodified stands lastStands otherStands lastStands
      ⟨reordered.symm.same.trans, reordered.same.trans⟩⟩
  case hash =>
    intro hashable otherHashable same
    refine ⟨literal.hash.toInt64,
      hash_gives unmodified hashable stands.enough stands.represents, ?_⟩
    rw [same.hash_eq hashable]
    exact hash_gives unmodified otherHashable otherStands.enough otherStands.represents

end Values

/-- The tuples `(True,)` and `(1,)` are equal and have one hash, and so are the sets that were made
by adding one and two in either order. -/
theorem equality_of_small_values :
    let start := beginning { files := ⟨"/", []⟩, input := "", output := "" } []
    let place (offset : Nat) : Ref := ⟨start.objects.size + offset⟩
    let upward : Table Unit := (Table.empty.push 1 (place 0) ()).push 2 (place 1) ()
    let downward : Table Unit := (Table.empty.push 2 (place 1) ()).push 1 (place 0) ()
    let new : Array Object :=
      #[⟨BuiltinClass.int.ref, none, .int 1, none⟩, ⟨BuiltinClass.int.ref, none, .int 2, none⟩,
        ⟨BuiltinClass.tuple.ref, none, .tuple #[place 0], none⟩,
        ⟨BuiltinClass.tuple.ref, none, .tuple #[trueRef], none⟩,
        ⟨BuiltinClass.set.ref, none, .set upward, none⟩,
        ⟨BuiltinClass.set.ref, none, .set downward, none⟩]
    let world : World := { start with objects := start.objects ++ new }
    (world.StandsFor 2 (place 2) (.tuple [.int 1]) ∧
      world.StandsFor 2 (place 3) (.tuple [.bool true]) ∧
      world.StandsFor 2 (place 4) (.set [.int 1, .int 2]) ∧
      world.StandsFor 2 (place 5) (.set [.int 2, .int 1])) ∧
    equal (.ofFuel 2) (place 4) (place 5) world = .ok true world ∧
    ∃ code, (∃ after, Exec.hash (.ofFuel 2) (place 2) world = .ok code after) ∧
      ∃ after, Exec.hash (.ofFuel 2) (place 3) world = .ok code after := by
  intro start place upward downward new world
  have grows : start.Grows world := .append start new
  have unmodified : world.Unmodified := (beginning_unmodified _ []).grow grows
  have placed {offset : Nat} {object : Object} (known : new[offset]? = some object) :
      world.object (place offset) = object :=
    object_append start new known
  have truth : world.Represents trueRef (.bool true) :=
    ⟨rfl, trivial, (beginning_keeps _ [] [.truth true] (.truth true) List.mem_cons_self).grow
      (Single.truth true).payload_ne_empty grows id⟩
  have one : world.Represents (place 0) (.int 1) := ⟨trivial, .of_object (placed rfl)⟩
  have two : world.Represents (place 1) (.int 2) := ⟨trivial, .of_object (placed rfl)⟩
  have tuple : world.StandsFor 2 (place 2) (.tuple [.int 1]) :=
    ⟨⟨trivial, #[place 0], .of_object (placed rfl), one, trivial⟩,
      by simp [Literal.Consistent, Literal.ConsistentAll], by decide⟩
  have otherTuple : world.StandsFor 2 (place 3) (.tuple [.bool true]) :=
    ⟨⟨trivial, #[trueRef], .of_object (placed rfl), truth, trivial⟩,
      by simp [Literal.Consistent, Literal.ConsistentAll], by decide⟩
  have set : world.StandsFor 2 (place 4) (.set [.int 1, .int 2]) := by
    refine ⟨⟨trivial, upward, .of_object (placed rfl), ?_⟩, ?_, by decide⟩
    · rw [Table.toList_entries_push, Table.toList_entries_push]
      exact ⟨⟨rfl, one⟩, ⟨rfl, two⟩, trivial⟩
    · simp [Literal.Consistent, Literal.HashableAll, Literal.Hashable]
  have otherSet : world.StandsFor 2 (place 5) (.set [.int 2, .int 1]) := by
    refine ⟨⟨trivial, downward, .of_object (placed rfl), ?_⟩, ?_, by decide⟩
    · rw [Table.toList_entries_push, Table.toList_entries_push]
      exact ⟨⟨rfl, two⟩, ⟨rfl, one⟩, trivial⟩
    · simp [Literal.Consistent, Literal.HashableAll, Literal.Hashable]
  obtain ⟨-, -, -, -, order, -⟩ := equality_of_values unmodified set otherSet set
  obtain ⟨⟨answer, given, right⟩, -, -, -, -, hash⟩ :=
    equality_of_values unmodified tuple otherTuple tuple
  have alike : (Literal.tuple [.int 1]).Same (.tuple [.bool true]) := by
    simp [Literal.Same, Literal.SameAll, Literal.number?]
  rw [right.mpr alike] at given
  exact ⟨⟨tuple, otherTuple, set, otherSet⟩, (order (.set (.swap _ _ _))).1,
    hash ⟨trivial, trivial⟩ ⟨trivial, trivial⟩ given⟩

end World

end Offside
