/-
This file shows that the operations on texts agree about where a piece stands. Searching goes
through the characters one by one, and so does asking whether the piece is in the text at all;
slicing steps over positions and takes the characters there; and the length counts them. The
search finds the first index whose slice of the piece's length is equal to the piece, and it
finds nothing exactly if the piece is not in the text.

The method is called as a program calls it, by an attribute of the text, and the slice is
compared as the operator for equality compares it.
-/

import Offside.Proofs.Items.Lists
import Offside.Proofs.Ranges.Operations
import Offside.Proofs.Searching.Places

namespace Offside

open Exec Library Number

/-! ### Slices without a step -/

namespace Library

section Intervals

variable {world : World} {bounds : Bounds} {length start count : Nat} {first last : Int64}

variable (bounds length) in
/-- Without a step, all positions from the first bound up to the second are selected, as far as
there are any. -/
theorem select_interval (fits : length < 2 ^ 63)
    (startGiven : boundValue? (world.payload bounds.start) = some (some first))
    (stopGiven : boundValue? (world.payload bounds.stop) = some (some last))
    (stepGiven : boundValue? (world.payload bounds.step) = some none)
    (begins : first.toInt = start) (ends : last.toInt = start + count) :
    ∃ selection, select bounds length world = .ok selection world ∧
      selection.positions.map Int64.toInt = (List.range' (min length start)
        (min length (start + count) - min length start)).map Int.ofNat := by
  obtain ⟨low, high, lowMeant, highMeant, selected⟩ :=
    select_eq fits startGiven stopGiven stepGiven (by decide)
  refine ⟨_, selected, ?_⟩
  dsimp only [Option.getD_none] at lowMeant highMeant ⊢
  have lowAt : low.toInt = (min length start : Nat) := by
    rw [lowMeant]
    simp [firstPosition, resolved, lowest, highest, begins]
    omega
  have highAt : high.toInt = (min length (start + count) : Nat) := by
    rw [highMeant]
    simp [lastPosition, resolved, lowest, highest, ends]
    omega
  have progression : IsProgression (firstPosition length (1 : Int64).toInt (some first))
      (lastPosition length (1 : Int64).toInt (some last)) (1 : Int64).toInt
      ((List.range' (min length start)
        (min length (start + count) - min length start)).map Int.ofNat) := by
    rw [← lowMeant, ← highMeant, lowAt, highAt, Int64.toInt_one]
    refine ⟨fun place inside => by simp, fun place => ?_⟩
    simp only [List.length_map, List.length_range', Before]
    omega
  refine (walk_exact lowMeant highMeant progression ?_).1
  have bound := high.toInt_lt
  have natural := low.le_toInt
  simp only [InRange, least, greatest, List.length_map, List.length_range', Int64.toInt_one]
  omega

/-- At such positions stand the elements of a part of the sequence. -/
theorem map_elementAt?_interval {α : Type} {positions : List Int64} (elements : List α)
    (listed : positions.map Int64.toInt = (List.range' (min elements.length start)
      (min elements.length (start + count) - min elements.length start)).map Int.ofNat) :
    positions.map (elementAt? elements.toArray) =
      ((elements.drop start).take count).map some := by
  have size := congrArg List.length listed
  simp only [List.length_map, List.length_range'] at size
  refine List.ext_getElem (by simp; omega) fun place inside insideToo => ?_
  have there : place < positions.length := by simpa using inside
  have position : positions[place].toInt = (min elements.length start + place : Nat) := by
    have item := List.getElem_of_eq listed (by simpa using there)
    simpa using item
  have index : positions[place].toNatClampNeg = min elements.length start + place := by
    rw [Int64.toNatClampNeg, position, Int.toNat_natCast]
  have within : min elements.length start + place < elements.length := by omega
  rw [List.getElem_map, elementAt?_of_natural (by omega), index, List.getElem?_toArray,
    List.getElem?_eq_getElem within, List.getElem_map, List.getElem_take, List.getElem_drop]
  congr 2
  omega

end Intervals

end Library

/-! ### Calls and comparisons -/

namespace Exec

/-- Calls a method of an object by its name. -/
def callMethod (machine : Machine) (ref : Ref) (name : String) (arguments : List Ref) :
    Exec Ref := do
  machine.call (← getAttribute ref name) arguments []

/-- Compares what an index selects with another object. -/
def compareItem (machine : Machine) (ref index other : Ref) : Exec Ref := do
  binaryOperation machine .equal (← getItem machine ref index) other

end Exec

namespace World

/-- The object is a slice from one number up to another, without a step. -/
structure IsInterval (world : World) (index : Ref) (first last : Int64) : Prop where
  present : index ≠ vacantRef
  bounds : ∃ start stop step, world.payload index = .slice start stop step ∧
    world.CountsAs start first ∧ world.CountsAs stop last ∧ world.payload step = .none

/-- What counts as an integer is one as a bound. -/
theorem CountsAs.boundValue? {world : World} {bound : Ref} {value : Int64}
    (counts : world.CountsAs bound value) :
    Library.boundValue? (world.payload bound) = some (some value) := by
  have payload := counts.payload
  cases held : world.payload bound <;> rw [held] at payload <;> cases payload <;> rfl

namespace Intact

variable {world : World} {ref : Ref} {builtin : BuiltinClass} {payload : Payload} {name : String}
  {method : Method} {arguments : List Ref} (intact : world.Intact)
  (plain : world.Plain ref builtin payload) (present : payload ≠ .empty) (other : builtin ≠ .klass)

include intact plain present other

/-- Calling a method of a value by its name runs the method that its class was made with. The
attribute is a new function, and nothing else is new before the method runs. -/
theorem callMethod_eq (fuel : Nat) (listed : (name, method) ∈ builtin.methods)
    (ordinary : isClassMarker name = false)
    (presents : ∀ argument ∈ arguments, argument ≠ vacantRef) :
    ∃ native middle, world.Grows middle ∧
      callMethod (.ofFuel (fuel + 1)) ref name arguments world =
        runMethod (.ofFuel fuel) native method ref arguments middle := by
  obtain ⟨function, found, runs⟩ := intact.lookupOperator_method plain other listed ordinary
  have noClass : world.isClass ref = false := by
    rw [isClass, plain.class_, ref_ne_klass other]
  rw [lookupOperator, noClass, if_neg Bool.false_ne_true] at found
  have valid : ref ≠ vacantRef := intact.present_of_plain plain present
  -- The attribute is the function of the class, with the object as its first argument.
  let bound : Object := { world.object function with
    payload := .empty
    function := some ⟨name, .native (.method builtin name method), [ref]⟩ }
  let middle : World := { world with objects := world.objects.push bound }
  have got : getAttribute ref name world = .ok ⟨world.objects.size⟩ middle := by
    rw [getAttribute, bind_of_ok (checkPresent_of_ne valid world), read_bind, found]
    dsimp only
    rw [Found.toRef, read_bind, runs.code]
    rfl
  have made : middle.object ⟨world.objects.size⟩ = bound := by
    simp [middle, World.object]
  have known : (⟨world.objects.size⟩ : Ref) ≠ vacantRef := fun same =>
    absurd intact.bound_vacant (by rw [← same]; exact Nat.lt_irrefl _)
  have notClass : middle.isClass ⟨world.objects.size⟩ = false := by
    rw [isClass, made, runs.class_]
    rfl
  refine ⟨.method builtin name method, middle, .push world bound, ?_⟩
  rw [callMethod, bind_of_ok got]
  change callAt (fuel + 1) _ _ _ _ = _
  rw [callAt, callStep, bind_of_ok (checkPresent_of_ne known middle), read_bind, notClass,
    if_neg Bool.false_ne_true, read_bind, made]
  exact bind_of_ok (checkPresent_all (List.forall_mem_cons.mpr ⟨valid, presents⟩) middle)

end Intact

end World

/-! ### What a search means -/

namespace Text

variable {piece text : List Char}

/-- The index that a search gives: the first place of the piece, or the number before all places if
there is none. -/
def searched (piece text : List Char) : Int :=
  match find? piece text with
  | some place => place
  | none => -1

theorem searched_cases (piece text : List Char) :
    (∃ place : Nat, IsFirst piece text place ∧ find? piece text = some place ∧
      searched piece text = place) ∨
    (∀ place, ¬ StandsAt piece text place) ∧ find? piece text = none ∧
      searched piece text = -1 := by
  obtain ⟨place, first, found⟩ | ⟨nowhere, missed⟩ := find?_cases piece text
  · exact .inl ⟨place, first, found, by rw [searched, found]⟩
  · exact .inr ⟨nowhere, missed, by rw [searched, missed]⟩

/-- Up to the index that a search gives, and everywhere if it gives none, the piece stands exactly
there. -/
theorem standsAt_iff_searched {place : Nat}
    (upTo : searched piece text = -1 ∨ place ≤ searched piece text) :
    StandsAt piece text place ↔ (place : Int) = searched piece text := by
  obtain ⟨reached, first, -, same⟩ | ⟨nowhere, -, same⟩ := searched_cases piece text
  · rw [same] at upTo ⊢
    refine ⟨fun stands => ?_, fun here => ?_⟩
    · have later : reached ≤ place := Nat.not_lt.mp fun early => first.2 place early stands
      omega
    · rw [Int.natCast_inj.mp here]
      exact first.1
  · rw [same]
    exact iff_of_false (nowhere place) (by omega)

theorem isSome_find?_iff : (find? piece text).isSome = true ↔ searched piece text ≠ -1 := by
  obtain ⟨place, -, found, same⟩ | ⟨-, missed, same⟩ := searched_cases piece text
  · rw [found, same]
    exact iff_of_true rfl (by omega)
  · rw [missed, same]
    simp

theorem startsWith_iff_searched : startsWith piece text = true ↔ searched piece text = 0 := by
  rw [startsWith_iff, standsAt_iff_searched]
  · exact eq_comm
  · obtain ⟨place, -, -, same⟩ | ⟨-, -, same⟩ := searched_cases piece text
    · exact .inr (by omega)
    · exact .inl same

end Text

/-! ### Operations on texts -/

namespace Exec

section Operations

variable (fuel : Nat) {world : World} {self piece : Ref} {text sought : String}
  (intact : world.Intact) (holdsText : world.Plain self .str (.str text))

theorem textOf?_eq (holds : world.payload self = .str text) :
    textOf? self world = .ok (some text) world := by
  rw [textOf?, Exec.read, holds]

theorem textOf_eq (holds : world.payload self = .str text) :
    textOf self world = .ok text world := by
  rw [textOf, bind_of_ok (textOf?_eq holds)]
  rfl

theorem textOrEmpty_eq (holds : world.payload self = .str text) :
    textOrEmpty self world = .ok text world := by
  rw [textOrEmpty, bind_of_ok (textOf?_eq holds)]
  rfl

include intact holdsText

/-- The length of a text is the number of its characters. -/
theorem length_text (fits : text.length < 2 ^ 63) :
    Gives (Library.length (.ofFuel (fuel + 1)) self) world text.length := by
  have present : self ≠ vacantRef := intact.present_of_plain holdsText (by simp)
  have runs (native : Native) : runMethod (.ofFuel fuel) native .strLen self [] world =
      newInt (Int64.ofNat text.length) world := bind_of_ok (textOf_eq holdsText.payload)
  have answers : world.Answers self "__len__" .strLen :=
    intact.answers holdsText (by decide) (by decide) (by decide)
  have counted : Library.length (.ofFuel (fuel + 1)) self world =
      newInt (Int64.ofNat text.length) world := by
    rw [Library.length, invoke?_bind fuel answers (by simp [present]) runs]
    rfl
  rw [Gives, counted, ← toInt_size fits]
  exact gives_newInt _ _

/-- A slice without a step is the text of a part of the characters. -/
theorem getItem_interval (fits : text.length < 2 ^ 63) {index : Ref} {first last : Int64}
    {start count : Nat} (interval : world.IsInterval index first last)
    (begins : first.toInt = start) (ends : last.toInt = start + count) :
    getItem (.ofFuel (fuel + 1)) self index world =
      newStr (String.ofList ((text.toList.drop start).take count)) world := by
  have present : self ≠ vacantRef := intact.present_of_plain holdsText (by simp)
  obtain ⟨low, high, step, slice, lowCounts, highCounts, without⟩ := interval.bounds
  have size : text.toList.toArray.size = text.length := by
    rw [List.size_toArray, String.length_toList]
  obtain ⟨selection, selected, positions⟩ := select_interval ⟨low, high, step⟩
    text.toList.toArray.size (size ▸ fits) lowCounts.boundValue? highCounts.boundValue?
    (by rw [without]; rfl) begins ends
  rw [List.size_toArray] at positions
  have picked := pick_eq (map_elementAt?_interval text.toList positions) world
  have isSlice : world.IsSlice index ⟨low, high, step⟩ := ⟨interval.present, slice⟩
  have shown : world.display self = text := by
    rw [World.display, World.displayWithin, holdsText.payload]
  have runs (native : Native) : runMethod (.ofFuel fuel) native .strGetItem self [index] world =
      newStr (String.ofList ((text.toList.drop start).take count)) world := by
    change stringGetItem self index world = _
    rw [stringGetItem, read_bind, shown, bind_of_ok (boundsOf?_eq isSlice)]
    dsimp only
    rw [bind_of_ok selected, bind_of_ok picked]
    rfl
  have answers : world.Answers self "__getitem__" .strGetItem :=
    intact.answers holdsText (by decide) (by decide) (by decide)
  rw [getItem, invoke?_bind fuel answers (by simp [present, interval.present]) runs]
  rfl

variable (holdsSought : world.Plain piece .str (.str sought))

include holdsSought

/-- Whether a piece is in a text. -/
theorem member_text (truths : world.Keeps [.truth true, .truth false]) :
    binaryOperation (.ofFuel (fuel + 1)) .member piece self world =
      .ok (truthRef (Text.find? sought.toList text.toList).isSome) world := by
  have present : self ≠ vacantRef := intact.present_of_plain holdsText (by simp)
  have presentToo : piece ≠ vacantRef := intact.present_of_plain holdsSought (by simp)
  have runs (native : Native) : runMethod (.ofFuel fuel) native .strContains self [piece] world =
      (pure (truthRef (Text.find? sought.toList text.toList).isSome) : Exec Ref) world := by
    change stringContains self piece world = _
    rw [stringContains, bind_of_ok (textOf?_eq holdsSought.payload)]
    dsimp only
    rw [bind_of_ok (textOrEmpty_eq holdsText.payload), Text.occurs_eq_isSome_find?]
  have answers : world.Answers self "__contains__" .strContains :=
    intact.answers holdsText (by decide) (by decide) (by decide)
  have contained : contains (.ofFuel (fuel + 1)) piece self world =
      .ok (Text.find? sought.toList text.toList).isSome world := by
    rw [contains, invoke?_bind fuel answers (by simp [present, presentToo]) runs, pure_bind]
    exact truthy_truthRef _ truths
  exact bind_of_ok contained

/-- Texts are equal if their characters are. -/
theorem equal_text (truths : world.Keeps [.truth true, .truth false]) :
    binaryOperation (.ofFuel (fuel + 1)) .equal self piece world =
      .ok (truthRef (text == sought)) world := by
  have present : self ≠ vacantRef := intact.present_of_plain holdsText (by simp)
  have presentToo : piece ≠ vacantRef := intact.present_of_plain holdsSought (by simp)
  have runs (native : Native) : runMethod (.ofFuel fuel) native .strEq self [piece] world =
      (pure (truthRef (text == sought)) : Exec Ref) world := by
    change stringEq self piece world = _
    rw [stringEq, bind_of_ok (textOf?_eq holdsSought.payload)]
    dsimp only
    rw [bind_of_ok (textOrEmpty_eq holdsText.payload)]
  have answers : world.Answers self "__eq__" .strEq :=
    intact.answers holdsText (by decide) (by decide) (by decide)
  have compared : equal (.ofFuel (fuel + 1)) self piece world = .ok (text == sought) world := by
    rw [equal, invoke?_bind fuel answers (by simp [present, presentToo]) runs, pure_bind]
    exact truthy_truthRef _ truths
  exact bind_of_ok compared

/-- A slice of the length of a piece is equal to the piece exactly if the piece stands at its
start. -/
theorem compareItem_interval (truths : world.Keeps [.truth true, .truth false])
    (fits : text.length < 2 ^ 63) {index : Ref} {first last : Int64} {start : Nat}
    (interval : world.IsInterval index first last) (begins : first.toInt = start)
    (ends : last.toInt = start + sought.length) :
    ∃ same after, compareItem (.ofFuel (fuel + 1)) self index piece world =
        .ok (truthRef same) after ∧
      (same = true ↔ Text.StandsAt sought.toList text.toList start) := by
  have got := getItem_interval fuel intact holdsText fits interval begins ends
  let part := String.ofList ((text.toList.drop start).take sought.length)
  let after : World := { world with
    objects := world.objects.push ⟨BuiltinClass.str.ref, none, .str part, none⟩ }
  have grows : world.Grows after := .push world _
  refine ⟨part == sought, after, ?_, ?_⟩
  · rw [compareItem, bind_of_ok (got.trans rfl)]
    exact equal_text fuel (intact.grow grows fun _ impossible => impossible.elim)
      (World.plain_push world .str (.str part)) (holdsSought.grow (by simp) grows id)
      (truths.grow grows fun _ => id)
  · rw [beq_iff_eq, Text.standsAt_iff_take, String.length_toList, ← String.toList_inj,
      String.toList_ofList]

/-- The method that searches gives what a search means. -/
theorem callMethod_find (fits : text.length < 2 ^ 63) :
    Gives (callMethod (.ofFuel (fuel + 1)) self "find" [piece]) world
      (Text.searched sought.toList text.toList) := by
  have presentToo : piece ≠ vacantRef := intact.present_of_plain holdsSought (by simp)
  have listed : ("find", .strFind) ∈ BuiltinClass.str.methods := by decide
  obtain ⟨native, middle, grows, called⟩ := intact.callMethod_eq holdsText (by simp) (by decide)
    fuel listed (by decide) (List.forall_mem_singleton.mpr presentToo)
  have searches : stringFind self piece middle =
      (match Text.find? sought.toList text.toList with
        | some position => newCount position
        | none => newInt (-1)) middle := by
    rw [stringFind, withPiece, bind_of_ok (textOf_eq (holdsText.grow (by simp) grows id).payload)]
    exact (bind_of_ok (textOf_eq (holdsSought.grow (by simp) grows id).payload)).trans rfl
  have found : ∃ word : Int64, word.toInt = Text.searched sought.toList text.toList ∧
      callMethod (.ofFuel (fuel + 1)) self "find" [piece] world = newInt word middle := by
    obtain ⟨place, first, found, same⟩ | ⟨-, missed, same⟩ :=
      Text.searched_cases sought.toList text.toList
    · have inside := first.add_length_le
      rw [String.length_toList, String.length_toList] at inside
      refine ⟨Int64.ofNat place, ?_, called.trans (searches.trans ?_)⟩
      · rw [same, toInt_size (by omega)]
      · rw [found]
        rfl
    · exact ⟨-1, same.symm, called.trans (searches.trans (by rw [missed]))⟩
  obtain ⟨word, same, found⟩ := found
  exact ⟨_, _, word, found, World.plain_push middle .int (.int word), same⟩

/-- The method that asks for the beginning of a text. -/
theorem callMethod_startsWith : ∃ middle,
    callMethod (.ofFuel (fuel + 1)) self "startswith" [piece] world =
      .ok (truthRef (Text.startsWith sought.toList text.toList)) middle := by
  have presentToo : piece ≠ vacantRef := intact.present_of_plain holdsSought (by simp)
  have listed : ("startswith", .strStartsWith) ∈ BuiltinClass.str.methods := by decide
  obtain ⟨native, middle, grows, called⟩ := intact.callMethod_eq holdsText (by simp) (by decide)
    fuel listed (by decide) (List.forall_mem_singleton.mpr presentToo)
  refine ⟨middle, called.trans ?_⟩
  change stringStartsWith self piece middle = _
  rw [stringStartsWith, withPiece,
    bind_of_ok (textOf_eq (holdsText.grow (by simp) grows id).payload),
    bind_of_ok (textOf_eq (holdsSought.grow (by simp) grows id).payload)]
  rfl

/-- Searching, slicing, counting and asking for a piece agree about texts. The search gives -1
exactly if the piece is not in the text. Otherwise the piece has room in the text from the index
that the search gives, the slice of the piece's length from there on is equal to the piece, and no
slice from an earlier index is. The text starts with the piece exactly if the index is zero. A
search through the bytes finds the same place, behind the bytes of as many characters as the
index says. -/
theorem find_agrees_with_slices (truths : world.Keeps [.truth true, .truth false])
    (fits : text.length < 2 ^ 63) (fitsToo : sought.length < 2 ^ 63) :
    let machine : Machine := .ofFuel (fuel + 1)
    let found := Text.searched sought.toList text.toList
    (Gives (callMethod machine self "find" [piece]) world found ∧
      Gives (Library.length machine self) world text.length ∧
      Gives (Library.length machine piece) world sought.length) ∧
    binaryOperation machine .member piece self world =
      .ok (truthRef (decide (found ≠ -1))) world ∧
    (∃ after, callMethod machine self "startswith" [piece] world =
      .ok (truthRef (decide (found = 0))) after) ∧
    (found ≠ -1 → 0 ≤ found ∧ found ≤ text.length - sought.length) ∧
    (∀ index first last, world.IsInterval index first last → 0 ≤ first.toInt →
      last.toInt = first.toInt + sought.length → found = -1 ∨ first.toInt ≤ found →
      ∃ after, compareItem machine self index piece world =
        .ok (truthRef (decide (first.toInt = found))) after) ∧
    (found = -1 → ∀ offset,
      ¬ Text.StandsAt (Text.bytes sought.toList) (Text.bytes text.toList) offset) ∧
    ∀ place : Nat, found = place →
      Text.IsFirst (Text.bytes sought.toList) (Text.bytes text.toList)
        (Text.bytes (text.toList.take place)).length := by
  intro machine found
  refine ⟨⟨callMethod_find fuel intact holdsText holdsSought fits,
    length_text fuel intact holdsText fits, length_text fuel intact holdsSought fitsToo⟩,
    ?_, ?_, ?_, ?_, ?_, ?_⟩
  · rw [member_text fuel intact holdsText holdsSought truths,
      Bool.eq_iff_iff.mpr (Text.isSome_find?_iff.trans decide_eq_true_iff.symm)]
  · obtain ⟨middle, called⟩ := callMethod_startsWith fuel intact holdsText holdsSought
    rw [Bool.eq_iff_iff.mpr (Text.startsWith_iff_searched.trans decide_eq_true_iff.symm)] at called
    exact ⟨middle, called⟩
  · intro there
    obtain ⟨place, first, -, same⟩ | ⟨-, -, same⟩ :=
      Text.searched_cases sought.toList text.toList
    · have room := first.add_length_le
      rw [String.length_toList, String.length_toList] at room
      omega
    · exact absurd same there
  · intro index first last interval natural ends upTo
    obtain ⟨start, begins⟩ := Int.eq_ofNat_of_zero_le natural
    rw [begins] at ends upTo ⊢
    obtain ⟨same, after, compared, stands⟩ := compareItem_interval fuel intact holdsText holdsSought
      truths fits interval begins ends
    rw [Text.standsAt_iff_searched upTo] at stands
    rw [Bool.eq_iff_iff.mpr (stands.trans decide_eq_true_iff.symm)] at compared
    exact ⟨after, compared⟩
  · intro nowhere
    obtain ⟨place, -, -, same⟩ | ⟨none, -, -⟩ := Text.searched_cases sought.toList text.toList
    · omega
    · exact Text.not_standsAt_bytes none
  · intro place here
    obtain ⟨reached, first, -, same⟩ | ⟨-, -, same⟩ :=
      Text.searched_cases sought.toList text.toList
    · rw [Int.natCast_inj.mp (here.symm.trans same)]
      exact first.bytes
    · omega

end Operations

open World in
/-- Characters of two, three and four bytes. The piece stands at the third character, and no
earlier, though its first character is that of the text. -/
theorem wide_characters_found :
    let start := beginning { files := ⟨"/", []⟩, input := "", output := "" } []
    let place (offset : Nat) : Ref := ⟨start.objects.size + offset⟩
    let new : Array Object := #[
      ⟨BuiltinClass.str.ref, none, .str "é€é😀", none⟩,
      ⟨BuiltinClass.str.ref, none, .str "é😀", none⟩,
      ⟨BuiltinClass.int.ref, none, .int 2, none⟩,
      ⟨BuiltinClass.int.ref, none, .int 4, none⟩,
      ⟨BuiltinClass.slice.ref, none, .slice falseRef (place 2) noneRef, none⟩,
      ⟨BuiltinClass.slice.ref, none, .slice (place 2) (place 3) noneRef, none⟩]
    let world : World := { start with objects := start.objects ++ new }
    (world.Intact ∧ world.Plain (place 0) .str (.str "é€é😀") ∧
      world.Plain (place 1) .str (.str "é😀") ∧ world.Keeps [.truth true, .truth false] ∧
      world.IsInterval (place 4) 0 2 ∧ world.IsInterval (place 5) 2 4) ∧
    Gives (callMethod (.ofFuel 1) (place 0) "find" [place 1]) world 2 ∧
    binaryOperation (.ofFuel 1) .member (place 1) (place 0) world = .ok trueRef world ∧
    (∃ after, callMethod (.ofFuel 1) (place 0) "startswith" [place 1] world =
      .ok falseRef after) ∧
    (∃ after, compareItem (.ofFuel 1) (place 0) (place 4) (place 1) world = .ok falseRef after) ∧
    (∃ after, compareItem (.ofFuel 1) (place 0) (place 5) (place 1) world = .ok trueRef after) ∧
    Text.IsFirst (Text.bytes ['é', '😀']) (Text.bytes ['é', '€', 'é', '😀']) 5 := by
  intro start place new world
  have begun : start.Intact := beginning_intact _ []
  have beganWith : start.Keeps [.none, .truth true, .truth false] := beginning_keeps _ [] _
  -- What the first world holds otherwise must not be computed.
  clear_value start
  have grows : start.Grows world := .append start _
  have intact : world.Intact := begun.grow grows fun _ impossible => impossible.elim
  have singles : world.Keeps [.none, .truth true, .truth false] := beganWith.grow grows fun _ => id
  have truths : world.Keeps [.truth true, .truth false] := fun single listed =>
    singles single (List.mem_cons_of_mem _ listed)
  have made (offset : Nat) {object : Object} (found : new[offset]? = some object) :
      world.object (place offset) = object :=
    object_append start new found
  have holdsText : world.Plain (place 0) .str (.str "é€é😀") := .of_object (made 0 rfl)
  have holdsSought : world.Plain (place 1) .str (.str "é😀") := .of_object (made 1 rfl)
  have counts {offset : Nat} {value : Int64}
      (plain : world.Plain (place offset) .int (.int value)) : world.CountsAs (place offset) value :=
    (intact.calculates_int plain).toCountsAs
  have two : world.CountsAs (place 2) 2 := counts (.of_object (made 2 rfl))
  have four : world.CountsAs (place 3) 4 := counts (.of_object (made 3 rfl))
  have zero : world.CountsAs falseRef 0 := by
    have plain : world.Plain falseRef .bool (.bool false) := singles (.truth false) (by simp)
    exact ⟨by decide, by rw [plain.payload]; rfl⟩
  have without : world.payload noneRef = .none := (singles .none (by simp)).payload
  have interval {offset : Nat} {first last : Ref} {low high : Int64}
      (plain : world.Plain (place offset) .slice (.slice first last noneRef))
      (begins : world.CountsAs first low) (ends : world.CountsAs last high) :
      world.IsInterval (place offset) low high :=
    ⟨intact.present_of_plain plain (by simp), first, last, noneRef, plain.payload, begins, ends,
      without⟩
  have early : world.IsInterval (place 4) 0 2 := interval (.of_object (made 4 rfl)) zero two
  have later : world.IsInterval (place 5) 2 4 := interval (.of_object (made 5 rfl)) two four
  obtain ⟨⟨found, -, -⟩, inside, starts, -, slices, -, bytes⟩ :=
    find_agrees_with_slices 0 intact holdsText holdsSought truths (by decide) (by decide)
  have searched : Text.searched "é😀".toList "é€é😀".toList = 2 := by decide
  rw [searched] at found inside starts slices bytes
  exact ⟨⟨intact, holdsText, holdsSought, truths, early, later⟩, found, inside, starts,
    slices _ _ _ early (by decide) (by decide) (.inr (by decide)),
    slices _ _ _ later (by decide) (by decide) (.inr (by decide)), bytes 2 rfl⟩

end Exec

end Offside
