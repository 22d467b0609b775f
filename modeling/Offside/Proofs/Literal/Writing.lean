/-
This file shows that an object which stands for a value is written as the literal of the
value. Writing an object calls a method of its class; in an intact world that is the
method that the class was made with, and one unit of fuel goes into the call. Containers
write their parts in turn, so the fuel has to exceed the depth of the value and nothing
else about it matters.

All that writing leaves behind are new texts. The parts that are still to be written are
therefore what they were when the writing began.
-/

import Offside.Proofs.Literal.Heap

namespace Offside

/-! ### Texts -/

namespace Literal

open World

theorem commaJoined_ofList (parts : List (List Char)) :
    commaJoined (parts.map String.ofList) = String.ofList (separated [',', ' '] parts) := by
  induction parts with
  | nil => rfl
  | cons first rest inductionHypothesis =>
    cases rest with
    | nil => rw [List.map_cons, List.map_nil, commaJoined, String.intercalate_singleton, separated]
    | cons second rest =>
      rw [List.map_cons, commaJoined, List.map_cons, String.intercalate_cons_cons, separated,
        String.ofList_append, String.ofList_append, ← inductionHypothesis]
      rfl

theorem bracketed_ofList (bracket : Bracket) (inner : List Char) :
    bracket.opener.spelling ++ String.ofList inner ++ bracket.closer.spelling =
      String.ofList (grouped bracket inner) := by
  rw [grouped, String.ofList_append, String.ofList_append, String.ofList_toList,
    String.ofList_toList]

theorem listText_charsOf (elements : List Literal) :
    listText ((charsOf elements).map String.ofList) = (Literal.list elements).text := by
  rw [listText, commaJoined_ofList]
  exact bracketed_ofList .square _

theorem bracedText_charsOf (elements : List Literal) :
    Library.bracedText ((charsOf elements).map String.ofList) = (Literal.set elements).text := by
  rw [Library.bracedText, commaJoined_ofList]
  exact bracketed_ofList .brace _

theorem bracedText_charsOfEntries (entries : List (Literal × Literal)) :
    Library.bracedText ((charsOfEntries entries).map String.ofList) =
      (Literal.dict entries).text := by
  rw [Library.bracedText, commaJoined_ofList]
  exact bracketed_ofList .brace _

theorem tupleText_charsOf (elements : List Literal) :
    tupleText ((charsOf elements).map String.ofList) = (Literal.tuple elements).text := by
  match elements with
  | [] => rfl
  | [single] =>
    have closed : ",)" = "," ++ ")" := rfl
    refine Eq.trans ?_ (bracketed_ofList .paren _)
    rw [String.ofList_append, ← String.append_assoc, String.append_assoc]
    exact congrArg (_ ++ ·) closed
  | first :: second :: rest =>
    have several : trailing ',' (first :: second :: rest) = [] := if_neg (by simp)
    rw [Literal.text, chars, several, List.append_nil, ← bracketed_ofList, ← commaJoined_ofList]
    rfl

end Literal

namespace Exec

/-! ### Steps -/

theorem checkPresent_of_ne {ref : Ref} (present : ref ≠ vacantRef) (world : World) :
    checkPresent ref world = .ok () world := by
  rw [checkPresent, if_neg (by simpa using present)]
  rfl

end Exec

/-! ### Methods of built-in classes -/

namespace World

variable {world : World} {ref : Ref} {builtin : BuiltinClass} {payload : Payload} {name : String}
  {method : Method}

theorem ref_ne_klass (other : builtin ≠ .klass) :
    (builtin.ref == BuiltinClass.klass.ref) = false := by
  cases builtin with
  | klass => exact absurd rfl other
  | _ => rfl

/-- A method that is found along the classes of an object becomes a method of the object, unless the
object has an attribute of that name itself. -/
theorem lookupOperator_of_firstIn {function : Ref} {owner : BuiltinClass}
    (class_ : (world.object ref).class_ = builtin.ref)
    (notOwn : world.ownAttribute? ref name = none) (other : builtin ≠ .klass)
    (ordinary : isClassMarker name = false)
    (runs : world.RunsMethod function owner name method)
    (first : world.firstIn (world.chain builtin.ref) name = some function) :
    world.lookupOperator ref name = some (.method function ref) := by
  have noClass : world.isClass ref = false := by
    rw [isClass, class_, ref_ne_klass other]
  have bound : world.bindTo function ref = .method function ref := by
    rw [bindTo, isClass, runs.class_, runs.code]
    rfl
  rw [lookupOperator, noClass, if_neg Bool.false_ne_true, lookup, notOwn, noClass]
  simp only [Bool.false_eq_true, if_false, ordinary]
  rw [lookupInClass, class_, first, Option.map_some, bound]

theorem Plain.ownAttribute? (plain : world.Plain ref builtin payload) (name : String) :
    world.ownAttribute? ref name = none := by
  rw [World.ownAttribute?, Namespace.get?, plain.attributes]
  rfl

end World

namespace World.Intact

variable {world : World} {ref : Ref} {builtin : BuiltinClass} {payload : Payload} {name : String}
  {method : Method} (intact : world.Intact)

include intact

theorem present_of_plain (plain : world.Plain ref builtin payload) (present : payload ≠ .empty) :
    ref ≠ vacantRef := by
  intro same
  refine present ?_
  rw [← plain.payload, same, World.payload, intact.vacant]

theorem present_of_runs {function : Ref} (runs : world.RunsMethod function builtin name method) :
    function ≠ vacantRef := by
  intro same
  have code := runs.code
  rw [same, intact.vacant] at code
  cases code

/-- What a built-in class says is said in its table. -/
theorem ownAttribute? (builtin : BuiltinClass) (name : String) :
    world.ownAttribute? builtin.ref name = (world.namespaceAt builtin.space).get? name := by
  rw [World.ownAttribute?, attributes, intact.class_]

/-- A method of a class is found in the class, before its bases. -/
theorem firstIn_method (listed : (name, method) ∈ builtin.methods) :
    ∃ function : Ref, world.firstIn (world.chain builtin.ref) name = some function ∧
      world.RunsMethod function builtin name method := by
  obtain ⟨function, found, runs⟩ := intact.method builtin name method listed
  refine ⟨function, ?_, runs⟩
  have inClass := (intact.ownAttribute? builtin name).trans found
  rw [firstIn, chain, chainFrom]
  split
  · rw [List.findSome?_cons, inClass]
  · rw [List.findSome?_cons, inClass]

/-- A method of a class is looked up in the class of an object and nowhere before. -/
theorem lookupOperator_method (plain : world.Plain ref builtin payload) (other : builtin ≠ .klass)
    (listed : (name, method) ∈ builtin.methods) (ordinary : isClassMarker name = false) :
    ∃ function : Ref, world.lookupOperator ref name = some (.method function ref) ∧
      world.RunsMethod function builtin name method := by
  obtain ⟨function, first, runs⟩ := intact.firstIn_method listed
  exact ⟨function, lookupOperator_of_firstIn plain.class_ (plain.ownAttribute? name) other ordinary
    runs first, runs⟩

end World.Intact

/-! ### Calls -/

namespace Exec

open Library World

/-- The object is written as this text, and only new objects are left behind. -/
def Writes (machine : Machine) (world : World) (ref : Ref) (text : String) : Prop :=
  ∃ after, repr machine ref world = .ok text after ∧ world.Grows after

section Calls

variable {fuel : Nat} {world after : World} {ref answer : Ref} {builtin : BuiltinClass}
  {payload : Payload} {name : String} {method : Method}

theorem checkPresent_all {refs : List Ref} (present : ∀ ref ∈ refs, ref ≠ vacantRef)
    (world : World) : refs.forM checkPresent world = .ok () world := by
  induction refs with
  | nil => rfl
  | cons first rest inductionHypothesis =>
    rw [List.forall_mem_cons] at present
    rw [List.forM_eq_forM, List.forM_cons, bind_of_ok (checkPresent_of_ne present.1 world)]
    exact inductionHypothesis present.2

/-- Calling a method that is not written in the language runs it. -/
theorem callAt_native {function : Ref} {arguments : List Ref}
    (runs : world.RunsMethod function builtin name method) (known : function ≠ vacantRef)
    (present : ∀ argument ∈ ref :: arguments, argument ≠ vacantRef) :
    callAt (fuel + 1) function (ref :: arguments) [] world =
      runMethod (.ofFuel fuel) (.method builtin name method) method ref arguments world := by
  have noClass : world.isClass function = false := by
    rw [isClass, runs.class_]
    rfl
  have called : callFunction (.ofFuel fuel) ⟨name, .native (.method builtin name method), []⟩
      (ref :: arguments) [] world =
      runMethod (.ofFuel fuel) (.method builtin name method) method ref arguments world :=
    bind_of_ok (checkPresent_all present world)
  rw [callAt, callStep, bind_of_ok (checkPresent_of_ne known world), read_bind, noClass,
    if_neg Bool.false_ne_true, read_bind, runs.code]
  exact called

theorem callAt_method {function : Ref} (runs : world.RunsMethod function builtin name method)
    (known : function ≠ vacantRef) (present : ref ≠ vacantRef)
    (done : ∀ otherwise, runAlone (.ofFuel fuel) ref otherwise method world = .ok answer after) :
    callAt (fuel + 1) function [ref] [] world = .ok answer after :=
  (callAt_native runs known (List.forall_mem_singleton.mpr present)).trans (done _)

variable (intact : world.Intact) (plain : world.Plain ref builtin payload)
  (present : payload ≠ .empty) (other : builtin ≠ .klass)

include intact plain present other

/-- A special method of a value is the one that its class was made with. -/
theorem invoke_method (listed : (name, method) ∈ builtin.methods)
    (ordinary : isClassMarker name = false)
    (done : ∀ otherwise, runAlone (.ofFuel fuel) ref otherwise method world = .ok answer after) :
    invoke? (.ofFuel (fuel + 1)) ref name [] world = .ok (some answer) after := by
  obtain ⟨function, found, runs⟩ := intact.lookupOperator_method plain other listed ordinary
  have valid : ref ≠ vacantRef := intact.present_of_plain plain present
  have called := callAt_method runs (intact.present_of_runs runs) valid done
  rw [invoke?, bind_of_ok (checkPresent_of_ne valid world), read_bind, found]
  exact bind_of_ok called

/-- A method that ends with a new text has written the object. -/
theorem writes_of_method (method : Method) {middle : World} {text : String}
    (listed : ("__repr__", method) ∈ builtin.methods)
    (done : ∀ otherwise, runAlone (.ofFuel fuel) ref otherwise method world = newStr text middle)
    (grows : world.Grows middle) : Writes (.ofFuel (fuel + 1)) world ref text := by
  refine ⟨_, ?_, grows.trans (.push middle ⟨BuiltinClass.str.ref, none, .str text, none⟩)⟩
  have invoked := invoke_method intact plain present other listed (by decide) done
  rw [repr, bind_of_ok invoked]
  dsimp only
  have written : World.payload { middle with
      objects := middle.objects.push ⟨BuiltinClass.str.ref, none, .str text, none⟩ }
      ⟨middle.objects.size⟩ = .str text := by
    simp [World.payload, World.object]
  rw [read_bind, written]
  rfl

end Calls

/-! ### Values without parts -/

section Leaves

variable {world : World} {ref : Ref}

theorem numberRepr_of_int {value : Int64} (held : world.payload ref = .int value) :
    numberRepr ref world = newStr (Number.integerText value) world := by
  rw [numberRepr, numericUnary, numericOf?, read_bind, held]
  rfl

theorem stringRepr_of_str {value : String} (held : world.payload ref = .str value) :
    stringRepr ref world = newStr (Text.quote value) world := by
  have found : textOf ref world = .ok value world := by
    rw [textOf, textOf?, read_bind, held]
    rfl
  rw [stringRepr, bind_of_ok found]

theorem boolRepr_of_bool {value : Bool} (held : world.payload ref = .bool value) :
    boolRepr ref world = newStr (truthText value) world := by
  rw [boolRepr, read_bind, display, displayWithin, held]

end Leaves

/-! ### Spans -/

end Exec

namespace World

/-- What a span goes through. -/
def spanRefs (world : World) : Span → List Ref
  | .fixed elements => elements.toList
  | .cells buffer _ => (world.buffer buffer).cells.toList

/-- The buffer of a span is there. -/
def HasSpan (world : World) : Span → Prop
  | .fixed _ => True
  | .cells buffer _ => buffer.index < world.buffers.size

theorem HasSpan.grow {before after : World} (grows : before.Grows after) :
    ∀ {span : Span}, before.HasSpan span → after.HasSpan span
  | .fixed _, _ => trivial
  | .cells _ _, bound => Nat.lt_of_lt_of_le bound grows.buffers

theorem spanRefs_grow {before after : World} (grows : before.Grows after) :
    ∀ {span : Span}, before.HasSpan span → after.spanRefs span = before.spanRefs span
  | .fixed _, _ => rfl
  | .cells buffer _, bound => by rw [spanRefs, spanRefs, grows.buffer buffer bound]

theorem spanElement_eq (world : World) (span : Span) (position : Nat) :
    world.spanElement span position = (world.spanRefs span)[position]?.getD vacantRef := by
  cases span with
  | fixed elements =>
    rw [spanElement, spanRefs, Array.getD_eq_getD_getElem?, Array.getElem?_toList]
  | cells buffer =>
    rw [spanElement, spanRefs, Buffer.cell, Array.getD_eq_getD_getElem?, Array.getElem?_toList]

theorem spanElement_of_drop {world : World} {span : Span} {position : Nat} {ref : Ref}
    {refs : List Ref} (left : (world.spanRefs span).drop position = ref :: refs) :
    world.spanElement span position = ref := by
  have first := congrArg List.head? left
  rw [List.head?_drop] at first
  rw [spanElement_eq, first]
  rfl

end World

namespace Exec

open Library World

/-! ### Values -/

section Parts

variable {machine : Machine} {world middle after last : World} {ref : Ref} {span : Span}
  {text : String} {found texts : List String}

/-- The method of lists and the listings of a scope lay lists out alike. -/
theorem listLayout_eq (texts : List String) : listLayout texts = listText texts :=
  rfl

/-- So do the method of tuples and the listings, each of which treats a single element in a way of
its own. -/
theorem tupleLayout_eq (texts : List String) : tupleLayout texts = tupleText texts := by
  match texts with
  | [] => rfl
  | [single] =>
    have closed : ",)" = "," ++ ")" := rfl
    rw [tupleLayout, if_pos List.length_singleton, String.intercalate_singleton, tupleText, closed,
      String.append_assoc, String.append_assoc, String.append_assoc]
  | first :: second :: rest =>
    rw [tupleLayout, if_neg (by simp)]
    rfl

theorem listRepr_of_span (held : world.span? ref = some span)
    (written : reprSpan machine span world = .ok texts middle) :
    listRepr machine ref world = newStr (listText texts) middle := by
  rw [listRepr, spanOf, read_bind, held, Option.getD_some, bind_of_ok written, listLayout_eq]

theorem tupleRepr_of_span (held : world.span? ref = some span)
    (written : reprSpan machine span world = .ok texts middle) :
    tupleRepr machine ref world = newStr (tupleText texts) middle := by
  rw [tupleRepr, spanOf, read_bind, held, Option.getD_some, bind_of_ok written, tupleLayout_eq]

theorem dictRepr_of_table {table : Table SlotId} (held : world.payload ref = .dict table)
    (written : entryTexts machine [] table.entries.toList world = .ok texts middle) :
    dictRepr machine ref world = newStr (bracedText texts) middle := by
  have known : dictTable ref world = .ok table world := by
    rw [dictTable, read_bind, held]
    rfl
  rw [dictRepr, bind_of_ok known, bind_of_ok written]

theorem setRepr_of_table {table : Table Unit} (held : world.payload ref = .set table)
    (filled : table.entries.toList ≠ [])
    (written : reprOnto machine [] (table.entries.toList.map Table.Entry.key) world =
      .ok texts middle) :
    setRepr machine ref world = newStr (bracedText texts) middle := by
  have known : setTable ref world = .ok table world := by
    rw [setTable, read_bind, held]
    rfl
  have size : ¬ (table.size == 0) = true := by
    intro none
    refine filled ?_
    rw [Array.toList_eq_nil_iff]
    exact Array.size_eq_zero_iff.mp (by simpa [Table.size_eq] using none)
  have keys : table.keys.toList = table.entries.toList.map Table.Entry.key := by
    rw [Table.keys, Array.toList_map]
  rw [setRepr, bind_of_ok known, if_neg size, reprAll, keys, bind_of_ok written]

end Parts

mutual

/-- An object that stands for a value is written as the literal of the value. -/
theorem writes_literal : ∀ (literal : Literal) (fuel : Nat) {world : World} {ref : Ref},
    literal.WellFormed → literal.depth < fuel → world.Intact → world.Represents ref literal →
    Writes (.ofFuel fuel) world ref literal.text
  | _, 0, _, _, _, enough, _, _ => absurd enough (Nat.not_lt_zero _)
  | .none, fuel + 1, world, ref, _, _, intact, represented => by
    obtain ⟨-, -, plain⟩ := represented
    exact writes_of_method intact plain (by simp) (by simp) .noneRepr (by decide)
      (fun otherwise => rfl) (.refl world)
  | .bool value, fuel + 1, world, ref, _, _, intact, represented => by
    obtain ⟨-, -, plain⟩ := represented
    rw [Literal.text, Literal.chars, String.ofList_toList]
    exact writes_of_method intact plain (by simp) (by simp) .boolRepr (by decide)
      (fun otherwise => boolRepr_of_bool plain.payload) (.refl world)
  | .int value, fuel + 1, world, ref, _, _, intact, represented => by
    obtain ⟨-, plain⟩ := represented
    rw [Literal.text, Literal.chars, String.ofList_toList]
    exact writes_of_method intact plain (by simp) (by simp) .numberRepr (by decide)
      (fun otherwise => numberRepr_of_int plain.payload) (.refl world)
  | .str value, fuel + 1, world, ref, _, _, intact, represented => by
    obtain ⟨-, plain⟩ := represented
    exact writes_of_method intact plain (by simp) (by simp) .strRepr (by decide)
      (fun otherwise => stringRepr_of_str plain.payload) (.refl world)
  | .list elements, fuel + 1, world, ref, wellFormed, enough, intact, represented => by
    obtain ⟨-, id, plain, bound, parts⟩ := represented
    have span : world.span? ref = some (.cells id (world.buffer id).cells.size) := by
      rw [span?, plain.payload]
    have within : world.HasSpan (.cells id (world.buffer id).cells.size) := bound
    obtain ⟨middle, written, grows⟩ := reprSpan_elements elements fuel [] 0 wellFormed
      (Nat.lt_of_succ_lt_succ enough) intact within parts
    have size : (world.buffer id).cells.size = elements.length := by
      rw [← Array.length_toList, RepresentsAll.length elements parts]
    rw [← Literal.listText_charsOf]
    refine writes_of_method intact plain (by simp) (by simp) .listRepr (by decide)
      (fun otherwise => listRepr_of_span span ?_) grows
    rw [← size] at written
    exact written
  | .tuple elements, fuel + 1, world, ref, wellFormed, enough, intact, represented => by
    obtain ⟨-, cells, plain, parts⟩ := represented
    have span : world.span? ref = some (.fixed cells) := by
      rw [span?, plain.payload]
    have within : world.HasSpan (.fixed cells) := trivial
    obtain ⟨middle, written, grows⟩ := reprSpan_elements elements fuel [] 0 wellFormed
      (Nat.lt_of_succ_lt_succ enough) intact within parts
    have size : cells.size = elements.length := by
      rw [← Array.length_toList, RepresentsAll.length elements parts]
    rw [← Literal.tupleText_charsOf]
    refine writes_of_method intact plain (by simp) (by simp) .tupleRepr (by decide)
      (fun otherwise => tupleRepr_of_span span ?_) grows
    rw [← size] at written
    exact written
  | .dict entries, fuel + 1, world, ref, wellFormed, enough, intact, represented => by
    obtain ⟨-, table, plain, parts⟩ := represented
    obtain ⟨middle, written, grows⟩ := entryTexts_entries entries fuel [] wellFormed.1
      (Nat.lt_of_succ_lt_succ enough) intact parts
    rw [← Literal.bracedText_charsOfEntries]
    exact writes_of_method intact plain (by simp) (by simp) .dictRepr (by decide)
      (fun otherwise => dictRepr_of_table plain.payload written) grows
  | .set elements, fuel + 1, world, ref, wellFormed, enough, intact, represented => by
    obtain ⟨-, table, plain, parts⟩ := represented
    obtain ⟨filled, wellFormed, -⟩ := wellFormed
    obtain ⟨middle, written, grows⟩ := reprOnto_keys elements fuel [] wellFormed
      (Nat.lt_of_succ_lt_succ enough) intact parts
    have filled : table.entries.toList ≠ [] := by
      intro none
      rw [none] at parts
      cases elements with
      | nil => exact filled rfl
      | cons => exact parts
    rw [← Literal.bracedText_charsOf]
    exact writes_of_method intact plain (by simp) (by simp) .setRepr (by decide)
      (fun otherwise => setRepr_of_table plain.payload filled written) grows

theorem reprSpan_elements : ∀ (elements : List Literal) (fuel : Nat) (found : List String)
    (position : Nat) {world : World} {span : Span},
    Literal.WellFormedAll elements → Literal.depthAll elements < fuel → world.Intact →
    world.HasSpan span →
    world.RepresentsAll (fun _ => True) elements ((world.spanRefs span).drop position) →
    ∃ after, reprSpanOnto (.ofFuel fuel) span found elements.length position world =
      .ok (found.reverse ++ (Literal.charsOf elements).map String.ofList) after ∧
        world.Grows after
  | [], _, found, _, world, _, _, _, _, _, _ =>
    ⟨world, congrArg (EStateM.Result.ok · world) (List.append_nil _).symm, .refl world⟩
  | first :: rest, fuel, found, position, world, span, wellFormed, enough, intact, within,
      parts => by
    cases left : (world.spanRefs span).drop position with
    | nil =>
      rw [left] at parts
      exact parts.elim
    | cons ref refs =>
      rw [left] at parts
      obtain ⟨middle, written, grows⟩ := writes_literal first fuel wellFormed.1
        (Nat.lt_of_le_of_lt (Nat.le_max_left _ _) enough) intact parts.1
      have next : (middle.spanRefs span).drop (position + 1) = refs := by
        rw [spanRefs_grow grows within, ← List.tail_drop, left, List.tail_cons]
      obtain ⟨after, others, growsAfter⟩ := reprSpan_elements rest fuel (first.text :: found)
        (position + 1) wellFormed.2 (Nat.lt_of_le_of_lt (Nat.le_max_right _ _) enough)
        (intact.grow grows fun _ impossible => impossible.elim) (within.grow grows)
        (by rw [next]; exact RepresentsAll.grow grows (fun _ _ => ⟨trivial, id⟩) rest parts.2)
      refine ⟨after, ?_, grows.trans growsAfter⟩
      rw [List.length_cons, reprSpanOnto, elementOf, read_bind, spanElement_of_drop left,
        bind_of_ok written, others, Literal.charsOf, List.map_cons, List.reverse_cons,
        List.append_assoc]
      rfl

theorem reprOnto_keys : ∀ (elements : List Literal) (fuel : Nat) (found : List String)
    {world : World} {cells : List (Table.Entry Unit)},
    Literal.WellFormedAll elements → Literal.depthAll elements < fuel → world.Intact →
    world.RepresentsKeys (fun _ => True) elements cells →
    ∃ after, reprOnto (.ofFuel fuel) found (cells.map Table.Entry.key) world =
      .ok (found.reverse ++ (Literal.charsOf elements).map String.ofList) after ∧
        world.Grows after
  | [], _, found, world, [], _, _, _, _ =>
    ⟨world, congrArg (EStateM.Result.ok · world) (List.append_nil _).symm, .refl world⟩
  | first :: rest, fuel, found, world, cell :: cells, wellFormed, enough, intact, parts => by
    obtain ⟨⟨-, key⟩, keys⟩ := parts
    obtain ⟨middle, written, grows⟩ := writes_literal first fuel wellFormed.1
      (Nat.lt_of_le_of_lt (Nat.le_max_left _ _) enough) intact key
    obtain ⟨after, others, growsAfter⟩ := reprOnto_keys rest fuel (first.text :: found)
      wellFormed.2 (Nat.lt_of_le_of_lt (Nat.le_max_right _ _) enough)
      (intact.grow grows fun _ impossible => impossible.elim)
      (RepresentsKeys.grow grows (fun _ _ => ⟨trivial, id⟩) rest keys)
    refine ⟨after, ?_, grows.trans growsAfter⟩
    rw [List.map_cons, reprOnto, bind_of_ok written, others, Literal.charsOf, List.map_cons,
      List.reverse_cons, List.append_assoc]
    rfl

theorem entryTexts_entries : ∀ (entries : List (Literal × Literal)) (fuel : Nat)
    (found : List String) {world : World} {cells : List (Table.Entry SlotId)},
    Literal.WellFormedEntries entries → Literal.depthEntries entries < fuel → world.Intact →
    world.RepresentsEntries (fun _ => True) entries cells →
    ∃ after, entryTexts (.ofFuel fuel) found cells world =
      .ok (found.reverse ++ (Literal.charsOfEntries entries).map String.ofList) after ∧
        world.Grows after
  | [], _, found, world, [], _, _, _, _ =>
    ⟨world, congrArg (EStateM.Result.ok · world) (List.append_nil _).symm, .refl world⟩
  | (key, value) :: rest, fuel, found, world, cell :: cells, wellFormed, enough, intact, parts => by
    obtain ⟨keyFormed, -, valueFormed, restFormed⟩ := wellFormed
    obtain ⟨⟨-, keyHeld⟩, ⟨bound, valueHeld⟩, others⟩ := parts
    have enoughHere := Nat.lt_of_le_of_lt (Nat.le_max_left _ _) enough
    obtain ⟨middle, keyWritten, growsKey⟩ := writes_literal key fuel keyFormed
      (Nat.lt_of_le_of_lt (Nat.le_max_left _ _) enoughHere) intact keyHeld
    have intactMiddle := intact.grow growsKey fun _ impossible => impossible.elim
    have slot : middle.slot cell.value = world.slot cell.value := growsKey.slot _ bound
    obtain ⟨late, valueWritten, growsValue⟩ := writes_literal value fuel valueFormed
      (Nat.lt_of_le_of_lt (Nat.le_max_right _ _) enoughHere) intactMiddle
      (Represents.grow valueHeld growsKey)
    have grows := growsKey.trans growsValue
    obtain ⟨after, othersWritten, growsRest⟩ := entryTexts_entries rest fuel
      ((key.text ++ ": " ++ value.text) :: found) restFormed
      (Nat.lt_of_le_of_lt (Nat.le_max_right _ _) enough)
      (intact.grow grows fun _ impossible => impossible.elim)
      (RepresentsEntries.grow grows (fun _ _ => ⟨trivial, id⟩) rest others)
    have text : key.text ++ ": " ++ value.text =
        String.ofList (key.chars ++ ':' :: ' ' :: value.chars) := by
      have colon : ':' :: ' ' :: value.chars = ": ".toList ++ value.chars := rfl
      rw [colon, String.ofList_append, String.ofList_append, String.ofList_toList,
        ← String.append_assoc]
      rfl
    refine ⟨after, ?_, grows.trans growsRest⟩
    rw [entryTexts, bind_of_ok keyWritten, valueOf, read_bind, slot, bind_of_ok valueWritten,
      othersWritten, Literal.charsOfEntries, List.map_cons, List.reverse_cons, List.append_assoc,
      text]
    rfl

end

end Exec

end Offside
