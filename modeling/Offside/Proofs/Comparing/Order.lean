/-
This file shows that comparing values of one type by size is a total order, and that the
five operators agree on it. The types are those of integers and texts, and of lists and
tuples of one such type, however deeply nested. The values of a type are ordered as
numbers, as texts, and as sequences by the first position at which they differ.

One method serves all four operators on sequences. It goes through both sequences as long
as their elements are equal; the first unequal elements decide, compared in one direction
or the other, and if there are none, the lengths do. That the elements are known to be
unequal is what makes strict and lax comparisons agree there.
-/

import Mathlib.Data.List.Lex
import Mathlib.Data.String.Basic
import Offside.Proofs.Comparing.Equality

namespace Offside

open Exec Library World

/-! ### Types and their values -/

/-- The types of values that can be compared by size. -/
inductive ValueType where
  | int
  | str
  | list (element : ValueType)
  | tuple (element : ValueType)

namespace ValueType

/-- The values of a type. -/
def Carrier : ValueType → Type
  | .int => Int64
  | .str => String
  | .list element => List element.Carrier
  | .tuple element => List element.Carrier

/-- Integers are ordered as numbers, texts character by character, and sequences element by
element. -/
instance order : (type : ValueType) → LinearOrder type.Carrier
  | .int => LinearOrder.lift' Int64.toInt fun _ _ => Int64.toInt_inj.mp
  | .str => inferInstanceAs (LinearOrder String)
  | .list element =>
    have := order element
    inferInstanceAs (LinearOrder (List element.Carrier))
  | .tuple element =>
    have := order element
    inferInstanceAs (LinearOrder (List element.Carrier))

/-- A value of a type is a value. -/
def literal : (type : ValueType) → type.Carrier → Literal
  | .int, value => .int value
  | .str, value => .str value
  | .list element, values => .list (List.map element.literal values)
  | .tuple element, values => .tuple (List.map element.literal values)

theorem literal_consistent : (type : ValueType) → (value : type.Carrier) →
    (type.literal value).Consistent
  | .int, _ => trivial
  | .str, _ => trivial
  | .list element, values => by
    rw [literal, Literal.Consistent, Literal.consistentAll_iff]
    exact List.forall_mem_map.mpr fun value _ => literal_consistent element value
  | .tuple element, values => by
    rw [literal, Literal.Consistent, Literal.consistentAll_iff]
    exact List.forall_mem_map.mpr fun value _ => literal_consistent element value

theorem forall₂_same_iff {α : Type} {literal : α → Literal}
    (each : ∀ value other, (literal value).Same (literal other) ↔ value = other)
    {values others : List α} :
    List.Forall₂ Literal.Same (values.map literal) (others.map literal) ↔ values = others := by
  rw [List.forall₂_map_left_iff, List.forall₂_map_right_iff]
  simp only [each, List.forall₂_eq_eq_eq]

theorem same_str_iff (text other : String) :
    (Literal.str text).Same (.str other) ↔ text = other := by
  simp [Literal.Same, eq_comm]

/-- Values of one type are equal only if they are identical. -/
theorem same_iff : (type : ValueType) → (value other : type.Carrier) →
    ((type.literal value).Same (type.literal other) ↔ value = other)
  | .int, _, _ => (Literal.same_of_number? rfl _).trans
      ⟨fun same => (Option.some.inj same).symm, fun same => congrArg some same.symm⟩
  | .str, text, other => same_str_iff text other
  | .list element, _, _ => by
    refine (Literal.same_of_elements? rfl _).trans ⟨fun ⟨_, _, sequence, parts⟩ => ?_, fun same =>
      ⟨rfl, _, rfl, (forall₂_same_iff (same_iff element)).mpr same⟩⟩
    cases sequence
    exact (forall₂_same_iff (same_iff element)).mp parts
  | .tuple element, _, _ => by
    refine (Literal.same_of_elements? rfl _).trans ⟨fun ⟨_, _, sequence, parts⟩ => ?_, fun same =>
      ⟨rfl, _, rfl, (forall₂_same_iff (same_iff element)).mpr same⟩⟩
    cases sequence
    exact (forall₂_same_iff (same_iff element)).mp parts

/-- The elements of a sequence are less deep than the sequence. -/
theorem depth_lt_of_mem (element : ValueType) {values : List element.Carrier} {fuel : Nat}
    (enough : Literal.depthAll (values.map element.literal) < fuel) :
    ∀ value ∈ values, (element.literal value).depth < fuel := fun _ inside =>
  Nat.lt_of_le_of_lt (Literal.depth_le_depthAll _ (List.mem_map_of_mem inside)) enough

end ValueType

/-! ### The four comparisons -/

namespace Comparison

/-- What a comparison says in an order. -/
def Holds {α : Type} [LT α] : Comparison → α → α → Prop
  | .less, left, right => left < right
  | .atMost, left, right => ¬ right < left
  | .greater, left, right => right < left
  | .atLeast, left, right => ¬ left < right

/-- The operator of a comparison. -/
def binary : Comparison → BinaryOperator
  | .less => .less
  | .atMost => .atMost
  | .greater => .greater
  | .atLeast => .atLeast

/-- The special method of a comparison. -/
def methodName : Comparison → String
  | .less => "__lt__"
  | .atMost => "__le__"
  | .greater => "__gt__"
  | .atLeast => "__ge__"

theorem operatorMethod?_binary (comparison : Comparison) :
    operatorMethod? comparison.binary = some comparison.methodName := by
  cases comparison <;> rfl

theorem methodName_ordinary (comparison : Comparison) :
    isClassMarker comparison.methodName = false := by
  cases comparison <;> decide

section Sequences

variable {α : Type} [LinearOrder α] (comparison : Comparison) {first second : α}
  {rest others : List α}

/-- Equal elements at the front say nothing. -/
theorem holds_cons_self : comparison.Holds (first :: rest) (first :: others) ↔
    comparison.Holds rest others := by
  cases comparison <;> simp [Holds]

/-- Unequal elements at the front say everything, and they are not equal. -/
theorem holds_cons_of_ne (different : first ≠ second) :
    comparison.Holds (first :: rest) (second :: others) ↔
      match comparison with
      | .less | .atMost => first < second
      | .greater | .atLeast => second < first := by
  cases comparison with
  | less => simp [Holds, List.cons_lt_cons_iff, different]
  | greater => simp [Holds, List.cons_lt_cons_iff, different.symm]
  | atMost =>
    simp only [Holds, List.cons_lt_cons_iff, different.symm, false_and, or_false, not_lt]
    exact different.le_iff_lt
  | atLeast =>
    simp only [Holds, List.cons_lt_cons_iff, different, false_and, or_false, not_lt]
    exact different.symm.le_iff_lt

/-- Where one sequence ends, the lengths decide. -/
theorem holds_of_nil (ended : rest = [] ∨ others = []) :
    comparison.Holds rest others ↔
      orderOfLengths comparison rest.length others.length = true := by
  obtain rfl | rfl := ended
  · cases others <;> cases comparison <;> simp [Holds, orderOfLengths]
  · cases rest <;> cases comparison <;> simp [Holds, orderOfLengths]

end Sequences

theorem orderOfLengths_add (comparison : Comparison) (common left right : Nat) :
    orderOfLengths comparison (common + left) (common + right) =
      orderOfLengths comparison left right := by
  cases comparison <;> simp [orderOfLengths]

end Comparison

namespace ValueType

/-- The method that compares values of a type. -/
def method : ValueType → Comparison → Method
  | .int, comparison => .numberCompare comparison
  | .str, comparison => .strCompare comparison
  | .list _, comparison => .seqCompare comparison
  | .tuple _, comparison => .seqCompare comparison

/-- The class of a value lists the method. -/
theorem method?_methodName (type : ValueType) (value : type.Carrier) (comparison : Comparison) :
    (type.literal value).builtin.method? comparison.methodName =
      some ((type.literal value).builtin, type.method comparison) := by
  cases type <;> cases comparison <;> rfl

end ValueType

namespace World

variable {allowed : Ref → Prop} {world : World} {machine : Machine}

/-- What the comparison of two objects tells decides which one is less. -/
theorem lessThan_judges (unmodified : world.Unmodified) {first second : Ref} {question : Prop}
    (tells : Tells (binaryOperation machine .less first second) world question) :
    Judges (lessThan machine first second) world question := by
  obtain ⟨answer, given, right⟩ := tells
  exact ⟨answer, (bind_of_ok given).trans (unmodified.truthy_truthRef machine answer), right⟩

section Lexicographic

variable {α : Type} [LinearOrder α] {literal : α → Literal} {fuel : Nat} {left right : Span}
  {values others : List α}

/-- Going through two sequences decides how what is still to come of them compares. -/
theorem lexicographic_judges (unmodified : world.Unmodified) (comparison : Comparison)
    (presents : world.Presents allowed left (values.map literal))
    (otherPresents : world.Presents allowed right (others.map literal))
    (enough : ∀ value ∈ values, (literal value).depth < fuel)
    (otherEnough : ∀ other ∈ others, (literal other).depth < fuel)
    (equals : ∀ {value other : α} {first second : Ref}, (literal value).depth < fuel →
      (literal other).depth < fuel → world.RepresentsIn allowed (literal value) first →
      world.RepresentsIn allowed (literal other) second →
      Judges (equal (.ofFuel fuel) first second) world (value = other))
    (less : ∀ {value other : α} {first second : Ref}, (literal value).depth < fuel →
      (literal other).depth < fuel → world.RepresentsIn allowed (literal value) first →
      world.RepresentsIn allowed (literal other) second →
      Tells (binaryOperation (.ofFuel fuel) .less first second) world (value < other)) :
    ∀ {count position : Nat}, position + count = min values.length others.length →
      Judges (lexicographic (.ofFuel fuel) comparison left right count position) world
        (comparison.Holds (values.drop position) (others.drop position)) := by
  intro count
  induction count with
  | zero =>
    intro position all
    refine ⟨orderOfLengths comparison left.size right.size, rfl, ?_⟩
    have ended : values.drop position = [] ∨ others.drop position = [] := by
      rw [List.drop_eq_nil_iff, List.drop_eq_nil_iff]
      omega
    have passed : left.size = position + (values.drop position).length ∧
        right.size = position + (others.drop position).length := by
      rw [presents.size, otherPresents.size, List.length_map, List.length_map, List.length_drop,
        List.length_drop]
      omega
    rw [comparison.holds_of_nil ended, passed.1, passed.2, comparison.orderOfLengths_add]
  | succ count inductionHypothesis =>
    intro position all
    have inside : position < values.length := by omega
    have otherInside : position < others.length := by omega
    have shallow := enough _ (List.getElem_mem inside)
    have otherShallow := otherEnough _ (List.getElem_mem otherInside)
    have represented := presents.element position (literal values[position]) (by simp [inside])
    have otherRepresented :=
      otherPresents.element position (literal others[position]) (by simp [otherInside])
    obtain ⟨answer, given, right⟩ := equals shallow otherShallow represented otherRepresented
    rw [List.drop_eq_getElem_cons inside, List.drop_eq_getElem_cons otherInside]
    cases answer with
    | true =>
      rw [← right.mp rfl, comparison.holds_cons_self]
      refine .of_same ?_ (@inductionHypothesis (position + 1) (by omega))
      rw [lexicographic, elementOf, read_bind, elementOf, read_bind, bind_of_ok given, if_pos rfl]
    | false =>
      have different : values[position] ≠ others[position] := by simpa using right
      rw [comparison.holds_cons_of_ne different]
      have upward := lessThan_judges unmodified
        (less shallow otherShallow represented otherRepresented)
      have downward := lessThan_judges unmodified
        (less otherShallow shallow otherRepresented represented)
      rw [Judges, lexicographic, elementOf, read_bind, elementOf, read_bind, bind_of_ok given,
        if_neg Bool.false_ne_true, read_bind, read_bind]
      cases comparison with
      | less | atMost => exact upward
      | greater | atLeast => exact downward

end Lexicographic

/-! ### One method for each type -/

/-- The operator tells what the method of the left value tells. -/
theorem compare_tells_of_method {type : ValueType} (fuel : Nat) (unmodified : world.Unmodified)
    (comparison : Comparison) {value other : type.Carrier} {first second : Ref}
    (represented : world.RepresentsIn allowed (type.literal value) first)
    (otherRepresented : world.RepresentsIn allowed (type.literal other) second)
    {question : Prop} (tells : ∀ native, Tells (runMethod (.ofFuel fuel) native
      (type.method comparison) first [second]) world question) :
    Tells (binaryOperation (.ofFuel (fuel + 1)) comparison.binary first second) world
      question := by
  obtain ⟨_, plain, -⟩ := represented.holding
  have answers := unmodified.answers_method? plain (Literal.builtin_ne_klass _)
    comparison.methodName_ordinary (type.method?_methodName value comparison)
  obtain ⟨native, applied⟩ := binaryOperation_eq fuel comparison.binary
    comparison.operatorMethod?_binary (by cases comparison <;> decide) answers
    (represented.present unmodified.toIntact) (otherRepresented.present unmodified.toIntact)
  obtain ⟨answer, given, right⟩ := tells native
  exact ⟨answer, applied.trans given, right⟩

theorem holdsInt_iff (comparison : Comparison) (value other : Int64) :
    holdsInt comparison value other = true ↔
      @Comparison.Holds ValueType.int.Carrier _ comparison value other := by
  cases comparison with
  | less | greater => exact decide_eq_true_iff.trans Int64.lt_iff_toInt_lt
  | atMost | atLeast =>
    exact decide_eq_true_iff.trans (Int64.le_iff_toInt_le.trans Int.not_lt.symm)

theorem numberCompare_tells (comparison : Comparison) {value other : Int64}
    {first second : Ref} (represented : world.RepresentsIn allowed (.int value) first)
    (otherRepresented : world.RepresentsIn allowed (.int other) second) :
    Tells (numberCompare comparison first second) world
      (@Comparison.Holds ValueType.int.Carrier _ comparison value other) := by
  have mine := represented.numeric
  have others := otherRepresented.numeric
  refine ⟨holdsInt comparison value other, ?_, ?_⟩
  · rw [numberCompare, numericOperator, numericOf?, read_bind, numericOf?, read_bind, mine, others]
    rfl
  · exact holdsInt_iff comparison value other

theorem stringCompare_tells (comparison : Comparison) {text other : String} {first second : Ref}
    (represented : world.RepresentsIn allowed (.str text) first)
    (otherRepresented : world.RepresentsIn allowed (.str other) second) :
    Tells (stringCompare comparison first second) world (comparison.Holds text other) := by
  have mine : textOrEmpty first world = .ok text world := by
    rw [textOrEmpty, textOf?, read_bind, represented.2.payload]
    rfl
  refine ⟨holdsText comparison text other, ?_, ?_⟩
  · rw [stringCompare, textOf?, read_bind, otherRepresented.2.payload]
    exact bind_of_ok mine
  · cases comparison <;> simp [holdsText, Comparison.Holds]

theorem sequenceCompare_tells {α : Type} [LinearOrder α] {literal : α → Literal} {fuel : Nat}
    {values others : List α} {sequence other : Literal} {first second : Ref}
    (unmodified : world.Unmodified) (comparison : Comparison)
    (represented : world.RepresentsIn allowed sequence first)
    (otherRepresented : world.RepresentsIn allowed other second)
    (alike : sequence.builtin = other.builtin)
    (elements : sequence.elements? = some (values.map literal))
    (otherElements : other.elements? = some (others.map literal))
    (enough : ∀ value ∈ values, (literal value).depth < fuel)
    (otherEnough : ∀ other ∈ others, (literal other).depth < fuel)
    (equals : ∀ {value other : α} {first second : Ref}, (literal value).depth < fuel →
      (literal other).depth < fuel → world.RepresentsIn allowed (literal value) first →
      world.RepresentsIn allowed (literal other) second →
      Judges (equal (.ofFuel fuel) first second) world (value = other))
    (less : ∀ {value other : α} {first second : Ref}, (literal value).depth < fuel →
      (literal other).depth < fuel → world.RepresentsIn allowed (literal value) first →
      world.RepresentsIn allowed (literal other) second →
      Tells (binaryOperation (.ofFuel fuel) .less first second) world (value < other)) :
    Tells (sequenceCompare (.ofFuel fuel) comparison first second) world
      (comparison.Holds values others) := by
  obtain ⟨span, found, presents⟩ := represented.presents elements
  obtain ⟨otherSpan, otherFound, otherPresents⟩ := otherRepresented.presents otherElements
  have peer := (isPeer_iff represented otherRepresented).mpr alike
  have common : min span.size otherSpan.size = min values.length others.length := by
    rw [presents.size, otherPresents.size, List.length_map, List.length_map]
  obtain ⟨answer, given, right⟩ := (lexicographic_judges unmodified comparison presents
    otherPresents enough otherEnough equals less (Nat.zero_add _)).tells
  refine ⟨answer, ?_, right⟩
  rw [sequenceCompare, spanOf, read_bind, found, peerSpan?, read_bind, peer, if_pos rfl, otherFound,
    Option.getD_some]
  rw [← common] at given
  exact given

/-! ### A total order -/

/-- Values of one type are equal only if they are identical. -/
theorem equal_judges_eq (unmodified : world.Unmodified) (type : ValueType) {fuel : Nat}
    {value other : type.Carrier} {first second : Ref} (enough : (type.literal value).depth < fuel)
    (represented : world.RepresentsIn allowed (type.literal value) first)
    (otherRepresented : world.RepresentsIn allowed (type.literal other) second) :
    Judges (equal (.ofFuel fuel) first second) world (value = other) :=
  (equal_judges unmodified (type.literal_consistent value) (type.literal_consistent other) enough
    represented otherRepresented).congr (type.same_iff value other)

/-- The operator of a comparison tells how values of one type compare. -/
theorem compare_tells (unmodified : world.Unmodified) : (type : ValueType) →
    ∀ {value other : type.Carrier} {first second : Ref} {fuel : Nat} (comparison : Comparison),
      (type.literal value).depth < fuel → (type.literal other).depth < fuel →
      world.RepresentsIn allowed (type.literal value) first →
      world.RepresentsIn allowed (type.literal other) second →
      Tells (binaryOperation (.ofFuel fuel) comparison.binary first second) world
        (comparison.Holds value other)
  | .int, value, other, first, second, fuel, comparison, enough, _, represented,
      otherRepresented => by
    obtain ⟨fuel, rfl⟩ := Nat.exists_eq_add_of_lt enough
    exact compare_tells_of_method _ unmodified comparison represented otherRepresented
      fun _ => numberCompare_tells comparison represented otherRepresented
  | .str, value, other, first, second, fuel, comparison, enough, _, represented,
      otherRepresented => by
    obtain ⟨fuel, rfl⟩ := Nat.exists_eq_add_of_lt enough
    exact compare_tells_of_method _ unmodified comparison represented otherRepresented
      fun _ => stringCompare_tells comparison represented otherRepresented
  | .list element, values, others, first, second, fuel, comparison, enough, otherEnough,
      represented, otherRepresented => by
    obtain ⟨fuel, rfl⟩ := Nat.exists_eq_add_of_lt (Nat.zero_lt_of_lt enough)
    rw [Nat.zero_add] at enough otherEnough ⊢
    exact compare_tells_of_method _ unmodified comparison represented otherRepresented fun _ =>
      sequenceCompare_tells unmodified comparison represented otherRepresented rfl rfl rfl
        (element.depth_lt_of_mem (Nat.lt_of_succ_lt_succ enough))
        (element.depth_lt_of_mem (Nat.lt_of_succ_lt_succ otherEnough))
        (fun shallow _ => equal_judges_eq unmodified element shallow)
        (compare_tells unmodified element .less)
  | .tuple element, values, others, first, second, fuel, comparison, enough, otherEnough,
      represented, otherRepresented => by
    obtain ⟨fuel, rfl⟩ := Nat.exists_eq_add_of_lt (Nat.zero_lt_of_lt enough)
    rw [Nat.zero_add] at enough otherEnough ⊢
    exact compare_tells_of_method _ unmodified comparison represented otherRepresented fun _ =>
      sequenceCompare_tells unmodified comparison represented otherRepresented rfl rfl rfl
        (element.depth_lt_of_mem (Nat.lt_of_succ_lt_succ enough))
        (element.depth_lt_of_mem (Nat.lt_of_succ_lt_succ otherEnough))
        (fun shallow _ => equal_judges_eq unmodified element shallow)
        (compare_tells unmodified element .less)

/-- The operator says yes of two objects, and nothing changes. -/
def Affirms (world : World) (fuel : Nat) (operator : BinaryOperator) (left right : Ref) : Prop :=
  binaryOperation (.ofFuel fuel) operator left right world = .ok trueRef world

theorem truthRef_eq_trueRef_iff (answer : Bool) : truthRef answer = trueRef ↔ answer = true := by
  cases answer <;> decide

theorem affirms_iff {fuel : Nat} {operator : BinaryOperator} {left right : Ref} {question : Prop}
    (tells : Tells (binaryOperation (.ofFuel fuel) operator left right) world question) :
    world.Affirms fuel operator left right ↔ question := by
  obtain ⟨answer, given, correct⟩ := tells
  rw [Affirms, given, EStateM.Result.ok.injEq, and_iff_left rfl, truthRef_eq_trueRef_iff, correct]

section Values

variable {type : ValueType} {fuel : Nat} {value other last : type.Carrier}
  {first second third : Ref}

theorem affirms_comparison (unmodified : world.Unmodified) (comparison : Comparison)
    (stands : world.StandsFor fuel first (type.literal value))
    (otherStands : world.StandsFor fuel second (type.literal other)) :
    world.Affirms fuel comparison.binary first second ↔ comparison.Holds value other :=
  affirms_iff (compare_tells unmodified type comparison stands.enough otherStands.enough
    stands.represents otherStands.represents)

theorem affirms_equal (unmodified : world.Unmodified)
    (stands : world.StandsFor fuel first (type.literal value))
    (otherStands : world.StandsFor fuel second (type.literal other)) :
    world.Affirms fuel .equal first second ↔ value = other :=
  affirms_iff (equal_judges_eq unmodified type stands.enough stands.represents
    otherStands.represents).tells

/-- Comparing values of one type is a total order. No comparison raises; exactly one of less, equal
and greater holds; the lax comparisons are the strict ones or equality, greater is less the other
way round, and less is transitive. -/
theorem comparisons_total_order (unmodified : world.Unmodified)
    (stands : world.StandsFor fuel first (type.literal value))
    (otherStands : world.StandsFor fuel second (type.literal other))
    (lastStands : world.StandsFor fuel third (type.literal last)) :
    (∀ operator ∈ [.equal, .less, .atMost, .greater, .atLeast], ∃ answer,
      binaryOperation (.ofFuel fuel) operator first second world = .ok (truthRef answer) world) ∧
    (world.Affirms fuel .less first second ∧ ¬ world.Affirms fuel .equal first second ∧
        ¬ world.Affirms fuel .greater first second ∨
      ¬ world.Affirms fuel .less first second ∧ world.Affirms fuel .equal first second ∧
        ¬ world.Affirms fuel .greater first second ∨
      ¬ world.Affirms fuel .less first second ∧ ¬ world.Affirms fuel .equal first second ∧
        world.Affirms fuel .greater first second) ∧
    (world.Affirms fuel .atMost first second ↔
      world.Affirms fuel .less first second ∨ world.Affirms fuel .equal first second) ∧
    (world.Affirms fuel .atLeast first second ↔
      world.Affirms fuel .greater first second ∨ world.Affirms fuel .equal first second) ∧
    (world.Affirms fuel .greater first second ↔ world.Affirms fuel .less second first) ∧
    (world.Affirms fuel .less first second → world.Affirms fuel .less second third →
      world.Affirms fuel .less first third) := by
  rw [affirms_equal unmodified stands otherStands,
    show world.Affirms fuel .less first second ↔ value < other from
      affirms_comparison unmodified .less stands otherStands,
    show world.Affirms fuel .greater first second ↔ other < value from
      affirms_comparison unmodified .greater stands otherStands,
    show world.Affirms fuel .atMost first second ↔ ¬ other < value from
      affirms_comparison unmodified .atMost stands otherStands,
    show world.Affirms fuel .atLeast first second ↔ ¬ value < other from
      affirms_comparison unmodified .atLeast stands otherStands,
    show world.Affirms fuel .less second first ↔ other < value from
      affirms_comparison unmodified .less otherStands stands,
    show world.Affirms fuel .less second third ↔ other < last from
      affirms_comparison unmodified .less otherStands lastStands,
    show world.Affirms fuel .less first third ↔ value < last from
      affirms_comparison unmodified .less stands lastStands]
  refine ⟨?never, ?one, ?atMost, ?atLeast, Iff.rfl, lt_trans⟩
  case never =>
    have compared (comparison : Comparison) : ∃ answer, binaryOperation (.ofFuel fuel)
        comparison.binary first second world = .ok (truthRef answer) world :=
      (compare_tells unmodified type comparison stands.enough otherStands.enough
        stands.represents otherStands.represents).imp fun _ => And.left
    have equated : ∃ answer, binaryOperation (.ofFuel fuel) .equal first second world =
        .ok (truthRef answer) world :=
      (equal_judges_eq unmodified type stands.enough stands.represents
        otherStands.represents).tells.imp fun _ => And.left
    simp only [List.forall_mem_cons, List.not_mem_nil, false_imp_iff, implies_true, and_true]
    exact ⟨equated, compared .less, compared .atMost, compared .greater, compared .atLeast⟩
  case one =>
    obtain less | same | greater := lt_trichotomy value other
    · exact .inl ⟨less, less.ne, less.asymm⟩
    · exact .inr (.inl ⟨same.not_lt, same, same.not_gt⟩)
    · exact .inr (.inr ⟨greater.asymm, greater.ne', greater⟩)
  case atMost => rw [not_lt, le_iff_lt_or_eq]
  case atLeast => rw [not_lt, le_iff_lt_or_eq, eq_comm]

end Values

/-- The tuples `(1,)`, `(1, 2)` and `(2,)` stand in this order, so the first one is less than the
last one. -/
theorem small_tuples_in_order :
    let start := beginning { files := ⟨"/", []⟩, input := "", output := "" } []
    let place (offset : Nat) : Ref := ⟨start.objects.size + offset⟩
    let new : Array Object :=
      #[⟨BuiltinClass.int.ref, none, .int 1, none⟩, ⟨BuiltinClass.int.ref, none, .int 2, none⟩,
        ⟨BuiltinClass.tuple.ref, none, .tuple #[place 0], none⟩,
        ⟨BuiltinClass.tuple.ref, none, .tuple #[place 0, place 1], none⟩,
        ⟨BuiltinClass.tuple.ref, none, .tuple #[place 1], none⟩]
    let world : World := { start with objects := start.objects ++ new }
    (world.StandsFor 2 (place 2) (.tuple [.int 1]) ∧
      world.StandsFor 2 (place 3) (.tuple [.int 1, .int 2]) ∧
      world.StandsFor 2 (place 4) (.tuple [.int 2])) ∧
    world.Affirms 2 .less (place 2) (place 4) := by
  intro start place new world
  have grows : start.Grows world := .append start new
  have unmodified : world.Unmodified := (beginning_unmodified _ []).grow grows
  have placed {offset : Nat} {object : Object} (known : new[offset]? = some object) :
      world.object (place offset) = object :=
    object_append start new known
  have one : world.Represents (place 0) (.int 1) := ⟨trivial, .of_object (placed rfl)⟩
  have two : world.Represents (place 1) (.int 2) := ⟨trivial, .of_object (placed rfl)⟩
  let type : ValueType := .tuple .int
  have first : world.StandsFor 2 (place 2) (type.literal [(1 : Int64)]) :=
    ⟨⟨trivial, #[place 0], .of_object (placed rfl), one, trivial⟩,
      type.literal_consistent _, by decide⟩
  have second : world.StandsFor 2 (place 3) (type.literal [(1 : Int64), (2 : Int64)]) :=
    ⟨⟨trivial, #[place 0, place 1], .of_object (placed rfl), one, two, trivial⟩,
      type.literal_consistent _, by decide⟩
  have third : world.StandsFor 2 (place 4) (type.literal [(2 : Int64)]) :=
    ⟨⟨trivial, #[place 1], .of_object (placed rfl), two, trivial⟩,
      type.literal_consistent _, by decide⟩
  obtain ⟨-, -, -, -, -, transitive⟩ := comparisons_total_order unmodified first second third
  refine ⟨⟨first, second, third⟩, transitive ?_ ?_⟩
  · exact (affirms_comparison unmodified .less first second).mpr (List.Lex.cons .nil)
  · exact (affirms_comparison unmodified .less second third).mpr
      (List.Lex.rel (show (1 : Int) < 2 by decide))

end World

end Offside
