/-
This file says what subtraction of integers comes to. It has no special method of its own:
the right operand is negated and the opposite is added to the left one, and each of the
two steps refuses what does not fit in 64 bits.

One integer has no opposite. Every other one can be subtracted, and then the difference is
exact or refused. Subtracting the least integer is refused before anything is added, also
from a negative one, where the difference would fit.

A sum that is refused passes the handler by which subtraction takes over the complaints of
the addition. That is only for a TypeError, and a ValueError is none, as long as these
classes extend what they were made to extend.
-/

import Offside.Proofs.Arithmetic
import Offside.Proofs.Inheritance
import Offside.Proofs.Modules.Housing

namespace Offside

open Exec Library Number

/-! ### Integers -/

namespace World

/-- The object is an integer, and has no special methods of its own. -/
structure Numeral (world : World) (ref : Ref) (value : Int64) : Prop where
  class_ : (world.object ref).class_ = BuiltinClass.int.ref
  payload : world.payload ref = .int value
  unnamed : ∀ name method, (name, method) ∈ arithmeticMethods →
    world.ownAttribute? ref name = none

section Numerals

variable {world after : World} {ref : Ref} {value : Int64}

theorem Plain.numeral (plain : world.Plain ref .int (.int value)) : world.Numeral ref value :=
  ⟨plain.class_, plain.payload, fun name _ _ => plain.ownAttribute? name⟩

theorem Numeral.calculates (intact : world.Intact) (numeral : world.Numeral ref value) :
    world.Calculates ref value where
  present same := by
    have class_ := numeral.class_
    rw [same, intact.vacant] at class_
    exact absurd class_ (by decide)
  payload := by rw [numeral.payload, Numeric.ofPayload?]
  answers name method listed := by
    obtain ⟨ofInt, ordinary⟩ := arithmeticMethods_ordinary listed
    obtain ⟨function, first, runs⟩ := intact.firstIn_method ofInt
    exact ⟨function, .int, intact.present_of_runs runs,
      lookupOperator_of_firstIn numeral.class_ (numeral.unnamed name method listed) (by decide)
        ordinary runs first, runs⟩

theorem Numeral.grow (numeral : world.Numeral ref value) (grows : world.Grows after) :
    after.Numeral ref value := by
  have bound : ref.index < world.objects.size := by
    refine bound_of_object fun same => ?_
    have class_ := numeral.class_
    rw [same] at class_
    exact absurd class_ (by decide)
  have same := grows.object ref bound id
  refine ⟨by rw [same, numeral.class_], by rw [World.payload, same]; exact numeral.payload,
    fun name method listed => ?_⟩
  rw [← numeral.unnamed name method listed]
  simp only [ownAttribute?, attributes, namespaceAt, grows.spaces, same]

end Numerals

/-! ### Classes of exceptions -/

/-- The class of refused values extends the class of all exceptions, which extends nothing. -/
structure ErrorsInherit (world : World) : Prop where
  base : world.ownAttribute? BuiltinClass.valueError.ref "__base__" =
    some BuiltinClass.exception.ref
  root : world.ownAttribute? BuiltinClass.exception.ref "__base__" = none

section Errors

variable {before after : World}

/-- A world that grows keeps all tables of names. -/
theorem GrowsBut.extends (grows : before.Grows after) : before.Extends [] after :=
  ⟨grows.objects, fun ref bound => grows.object ref bound id, Nat.le_of_eq (by rw [grows.spaces]),
    fun space _ _ => by rw [namespaceAt, namespaceAt, grows.spaces]⟩

theorem Intact.extend (intact : before.Intact) (extends_ : before.Extends [] after) :
    after.Intact where
  class_ builtin := (extends_.object _ (intact.bound_class builtin)).trans (intact.class_ builtin)
  method builtin name method listed := by
    obtain ⟨function, found, runs⟩ := intact.method builtin name method listed
    refine ⟨function, ?_, runs.extend extends_⟩
    rw [extends_.space _ (bound_of_get? found) List.not_mem_nil, found]
  vacant := (extends_.object _ intact.bound_vacant).trans intact.vacant

theorem ErrorsInherit.extend (inherit : before.ErrorsInherit) (intact : before.Intact)
    (extends_ : before.Extends [] after) : after.ErrorsInherit := by
  have kept {builtin : BuiltinClass} {known : String} {value : Ref}
      (found : before.ownAttribute? builtin.ref known = some value) (name : String) :
      after.ownAttribute? builtin.ref name = before.ownAttribute? builtin.ref name := by
    rw [intact.ownAttribute?] at found
    rw [(intact.extend extends_).ownAttribute?, intact.ownAttribute?]
    exact congrArg (·.get? name) (extends_.space _ (bound_of_get? found) List.not_mem_nil)
  -- The class of all exceptions has a method, so its table is there.
  obtain ⟨initializer, found, -⟩ := intact.method .exception "__init__" .exceptionInit (by decide)
  rw [← intact.ownAttribute?] at found
  exact ⟨(kept inherit.base _).trans inherit.base, (kept found _).trans inherit.root⟩

/-- A ValueError is no TypeError. -/
theorem ErrorsInherit.not_typeError (inherit : before.ErrorsInherit) (intact : before.Intact) :
    before.isSubclass BuiltinClass.valueError.ref BuiltinClass.typeError.ref = false := by
  have isClass : before.isClass BuiltinClass.exception.ref = true := by
    rw [World.isClass, intact.class_, beq_self_eq_true]
  have extendsOther :
      before.base? BuiltinClass.valueError.ref = some BuiltinClass.exception.ref := by
    rw [base?, inherit.base]
    simp only [isClass, if_true]
  have extendsNothing : before.base? BuiltinClass.exception.ref = none := by
    rw [base?, inherit.root]
  rw [isSubclass, (BaseChain.extend extendsOther (.last extendsNothing)).chain_eq]
  decide

/-- From the beginning on, the classes of exceptions extend each other. -/
theorem beginning_errorsInherit (host : Host) (searchPath : List String) :
    (beginning host searchPath).ErrorsInherit := by
  have own (builtin : BuiltinClass) := (beginning_intact host searchPath).ownAttribute? builtin
  have filled (builtin : BuiltinClass) := (beginning_extends host searchPath).2 builtin
  refine ⟨?_, ?_⟩
  · rw [own, (filled .valueError).others "__base__" (by decide) (by decide)]
    rfl
  · rw [own, (filled .exception).others "__base__" (by decide) (by decide)]
    rfl

end Errors

end World

namespace Exec

/-! ### The two steps -/

section Steps

variable (fuel : Nat) {world : World} {left right : Ref} {a b : Int64}

theorem invoke?_neg (calculates : world.Calculates right b) :
    invoke? (.ofFuel (fuel + 1)) right "__neg__" [] world =
      (some <$> integerResult "-" (fit? (-b.toInt))) world := by
  have present : ∀ argument ∈ [right], argument ≠ vacantRef := by
    simp [calculates.present]
  obtain ⟨native, invoked⟩ :=
    invoke?_of_answers fuel (calculates.answers "__neg__" .numberNeg (by decide)) present
  have runs : runMethod (.ofFuel fuel) native .numberNeg right [] world =
      integerResult "-" (neg? b) world := numberNeg_eq calculates.toCountsAs
  rw [invoked, ← neg?_eq, map_eq_pure_bind, map_eq_pure_bind, bind_same _ runs]

theorem invoke?_add (calculates : world.Calculates left a) (counts : world.CountsAs right b) :
    invoke? (.ofFuel (fuel + 1)) left "__add__" [right] world =
      (some <$> integerResult "+" (fit? (a.toInt + b.toInt))) world := by
  have present : ∀ argument ∈ [left, right], argument ≠ vacantRef := by
    simp [calculates.present, counts.present]
  obtain ⟨native, invoked⟩ :=
    invoke?_of_answers fuel (calculates.answers "__add__" .numberAdd (by decide)) present
  have runs : runMethod (.ofFuel fuel) native .numberAdd left [right] world =
      integerResult "+" (add? a b) world :=
    numericOperator_eq "+" _ calculates.toCountsAs counts
  rw [invoked, ← add?_eq, map_eq_pure_bind, map_eq_pure_bind, bind_same _ runs]

end Steps

/-! ### Differences -/

section Differences

variable (fuel : Nat) {world : World} {left right : Ref} {a b : Int64} (intact : world.Intact)
  (inherit : world.ErrorsInherit) (leftNumeral : world.Numeral left a)
  (rightNumeral : world.Numeral right b)

include intact rightNumeral

/-- The least integer cannot be subtracted. -/
theorem subtract_least (lowest : b.toInt = least) :
    Raises (subtract (.ofFuel (fuel + 1)) left right) world .valueError
      "integer overflow in '-'" := by
  have outside : ¬ InRange (-b.toInt) := by
    rw [lowest]
    decide
  obtain ⟨id, after, raised, exception⟩ : Raises (integerResult "-" (fit? (-b.toInt)))
      world .valueError "integer overflow in '-'" :=
    (integerResult_exact "-" _ world).refused outside
  have invoked := invoke?_neg fuel (rightNumeral.calculates intact)
  rw [map_eq_pure_bind, bind_of_error raised] at invoked
  refine ⟨id, after, ?_, exception⟩
  rw [subtract, bind_of_error invoked]

/-- Every other integer has an opposite, which is a new object. -/
theorem exists_opposite (other : b.toInt ≠ least) :
    ∃ (negated : Ref) (middle : World) (opposite : Int64),
      invoke? (.ofFuel (fuel + 1)) right "__neg__" [] world = .ok (some negated) middle ∧
      middle.Plain negated .int (.int opposite) ∧ opposite.toInt = -b.toInt ∧
      world.Grows middle := by
  have inside : InRange (-b.toInt) := by
    have bounds := inRange_toInt b
    simp only [InRange, least, greatest] at bounds other ⊢
    omega
  obtain ⟨opposite, fits, same⟩ := exists_fit? inside
  have invoked := invoke?_neg fuel (rightNumeral.calculates intact)
  rw [fits] at invoked
  exact ⟨_, _, opposite, invoked, World.plain_push world .int (.int opposite), same, .push world _⟩

include inherit leftNumeral

/-- Subtracting it is exact or refused. -/
theorem subtract_exact (other : b.toInt ≠ least) :
    ExactOrRaises (subtract (.ofFuel (fuel + 1)) left right) world "+" (a.toInt - b.toInt) := by
  obtain ⟨negated, middle, opposite, negates, plain, same, grows⟩ :=
    exists_opposite fuel intact rightNumeral other
  have intactMiddle : middle.Intact := intact.extend grows.extends
  have adds := invoke?_add fuel ((leftNumeral.grow grows).calculates intactMiddle)
    (plain.numeral.calculates intactMiddle).toCountsAs
  rw [same, ← sub_eq_add_neg] at adds
  refine ⟨fun inside => ?_, fun outside => ?_⟩
  · obtain ⟨word, fits, exact_⟩ := exists_fit? inside
    rw [fits] at adds
    refine ⟨_, _, word, ?_, World.plain_push middle .int (.int word), exact_⟩
    rw [subtract, bind_of_ok negates]
    exact bind_of_ok (tryCatch_ok adds)
  · rw [fit?_of_not outside, map_eq_pure_bind] at adds
    obtain ⟨id, after, raised, exception, extends_, -⟩ :=
      complain_extends (α := Ref) (show (Complaint.overflow "+").message = some _ from rfl) middle
    rw [integerResult, bind_of_error raised] at adds
    have later : world.Extends [] after := grows.extends.trans extends_
    have ordinary :
        after.isInstance (after.raisedAt id).value BuiltinClass.typeError.ref = false := by
      rw [World.isInstance, exception.class_]
      exact (inherit.extend intact later).not_typeError (intact.extend later)
    refine ⟨id, after, ?_, exception⟩
    rw [subtract, bind_of_ok negates]
    refine bind_of_error ((tryCatch_error adds).trans ?_)
    rw [isRaised, read_bind, ordinary]
    rfl

/-- The difference of two integers is exact or refused, and it is refused if it does not fit in 64
bits. The least integer is the one that cannot be subtracted at all: that is refused because it has
no opposite, although the difference fits if it is subtracted from a negative integer. -/
theorem difference_exact_or_no_opposite :
    (b.toInt ≠ least → ExactOrRaises (binaryOperation (.ofFuel (fuel + 1)) .minus left right) world
      "+" (a.toInt - b.toInt)) ∧
    (b.toInt = least →
      Raises (binaryOperation (.ofFuel (fuel + 1)) .minus left right) world .valueError
        "integer overflow in '-'" ∧ (InRange (a.toInt - b.toInt) ↔ a.toInt < 0)) := by
  have defined : binaryOperation (.ofFuel (fuel + 1)) .minus left right =
      subtract (.ofFuel (fuel + 1)) left right := rfl
  rw [defined]
  refine ⟨subtract_exact fuel intact inherit leftNumeral rightNumeral, fun lowest =>
    ⟨subtract_least fuel intact rightNumeral lowest, ?_⟩⟩
  have bounds := inRange_toInt a
  simp only [InRange, least, greatest, lowest] at bounds ⊢
  omega

end Differences

open World in
/-- The least integer is the difference of -1 and the greatest; subtracting it from -1 is refused,
although the greatest would be the difference. -/
theorem least_integer_not_subtracted :
    let host : Host := { files := ⟨"/", []⟩, input := "", output := "" }
    let start := beginning host []
    let early : World := { start with
      objects := start.objects.push ⟨BuiltinClass.int.ref, none, .int (-1), none⟩ }
    let middle : World := { early with
      objects := early.objects.push ⟨BuiltinClass.int.ref, none, .int .maxValue, none⟩ }
    let world : World := { middle with
      objects := middle.objects.push ⟨BuiltinClass.int.ref, none, .int .minValue, none⟩ }
    let minusOne : Ref := ⟨start.objects.size⟩
    let highest : Ref := ⟨early.objects.size⟩
    let lowest : Ref := ⟨middle.objects.size⟩
    (world.Intact ∧ world.ErrorsInherit ∧ world.Numeral minusOne (-1) ∧
      world.Numeral highest .maxValue ∧ world.Numeral lowest .minValue) ∧
    Gives (binaryOperation (.ofFuel 1) .minus minusOne highest) world (-9223372036854775808) ∧
    Raises (binaryOperation (.ofFuel 1) .minus lowest highest) world .valueError
      "integer overflow in '+'" ∧
    Raises (binaryOperation (.ofFuel 1) .minus minusOne lowest) world .valueError
      "integer overflow in '-'" ∧
    InRange (-1 - least) := by
  intro host start early middle world minusOne highest lowest
  have first : start.Grows early := .push start _
  have second : early.Grows middle := .push early _
  have third : middle.Grows world := .push middle _
  have grows : start.Grows world := first.trans (second.trans third)
  have intact : world.Intact := (beginning_intact host []).extend grows.extends
  have inherit : world.ErrorsInherit :=
    (beginning_errorsInherit host []).extend (beginning_intact host []) grows.extends
  have one : world.Numeral minusOne (-1) :=
    (plain_push start .int (.int (-1))).numeral.grow (second.trans third)
  have high : world.Numeral highest .maxValue :=
    (plain_push early .int (.int .maxValue)).numeral.grow third
  have low : world.Numeral lowest .minValue := (plain_push middle .int (.int .minValue)).numeral
  obtain ⟨difference, -⟩ := difference_exact_or_no_opposite 0 intact inherit one high
  obtain ⟨refused, -⟩ := difference_exact_or_no_opposite 0 intact inherit low high
  obtain ⟨-, none_⟩ := difference_exact_or_no_opposite 0 intact inherit one low
  exact ⟨⟨intact, inherit, one, high, low⟩, (difference (by decide)).exact_ (by decide),
    (refused (by decide)).refused (by decide), (none_ (by decide)).1, by decide⟩

end Exec

end Offside
