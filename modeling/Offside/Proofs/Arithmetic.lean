/-
This file shows that the arithmetic of programs is exact or refused. An operator finds
the special method of its left operand; as long as that is the method numbers were made
with, the result is a new integer with the exact value, or an exception if the value does
not fit in 64 bits. A remainder always fits, and only a divisor of zero is refused.

Truth values have no arithmetic of their own. They count as one and zero, and they find
the methods of integers because their class extends that of integers.
-/

import Offside.Proofs.Literal.Beginning
import Offside.Proofs.Raising

namespace Offside

open Exec Library Number

/-! ### Operands -/

/-- The special methods behind the arithmetic of integers. -/
def arithmeticMethods : List (String × Method) :=
  [("__add__", .numberAdd), ("__mul__", .numberMul), ("__pow__", .numberPow),
    ("__mod__", .numberMod), ("__neg__", .numberNeg)]

namespace World

/-- An operator finds this method, which is not written in the language, in the class of the
object. -/
def Answers (world : World) (ref : Ref) (name : String) (method : Method) : Prop :=
  ∃ function builtin, function ≠ vacantRef ∧
    world.lookupOperator ref name = some (.method function ref) ∧
    world.RunsMethod function builtin name method

/-- The object is an integer, or a truth value, which counts as one or zero. -/
structure CountsAs (world : World) (ref : Ref) (value : Int64) : Prop where
  present : ref ≠ vacantRef
  payload : Numeric.ofPayload? (world.payload ref) = some (.int value)

/-- The object counts as an integer, and its arithmetic is the one that numbers were made with. -/
structure Calculates (world : World) (ref : Ref) (value : Int64) : Prop extends
    world.CountsAs ref value where
  answers : ∀ name method, (name, method) ∈ arithmeticMethods → world.Answers ref name method

/-- Truth values have no arithmetic of their own; they find that of integers. -/
structure TruthsInherit (world : World) : Prop where
  base : world.ownAttribute? BuiltinClass.bool.ref "__base__" = some BuiltinClass.int.ref
  unnamed : ∀ name method, (name, method) ∈ arithmeticMethods →
    world.ownAttribute? BuiltinClass.bool.ref name = none

theorem arithmeticMethods_ordinary {name : String} {method : Method}
    (listed : (name, method) ∈ arithmeticMethods) :
    (name, method) ∈ BuiltinClass.int.methods ∧ isClassMarker name = false := by
  simp only [arithmeticMethods, List.mem_cons, List.not_mem_nil, or_false, Prod.mk.injEq] at listed
  obtain ⟨rfl, rfl⟩ | ⟨rfl, rfl⟩ | ⟨rfl, rfl⟩ | ⟨rfl, rfl⟩ | ⟨rfl, rfl⟩ := listed <;> decide

namespace Intact

variable {world : World} {ref : Ref} (intact : world.Intact)

include intact

/-- A value answers an operator with the method that its class was made with. -/
theorem answers {builtin : BuiltinClass} {payload : Payload} {name : String} {method : Method}
    (plain : world.Plain ref builtin payload) (other : builtin ≠ .klass)
    (listed : (name, method) ∈ builtin.methods) (ordinary : isClassMarker name = false) :
    world.Answers ref name method := by
  obtain ⟨function, found, runs⟩ := intact.lookupOperator_method plain other listed ordinary
  exact ⟨function, builtin, intact.present_of_runs runs, found, runs⟩

/-- Integers calculate as they were made to. -/
theorem calculates_int {value : Int64} (plain : world.Plain ref .int (.int value)) :
    world.Calculates ref value where
  present := intact.present_of_plain plain (by simp)
  payload := by rw [plain.payload, Numeric.ofPayload?]
  answers name method listed := by
    obtain ⟨ofInt, ordinary⟩ := arithmeticMethods_ordinary listed
    exact intact.answers plain (by decide) ofInt ordinary

/-- Truth values calculate like integers. -/
theorem calculates_bool {value : Bool} (inherit : world.TruthsInherit)
    (plain : world.Plain ref .bool (.bool value)) :
    world.Calculates ref (if value then 1 else 0) where
  present := intact.present_of_plain plain (by simp)
  payload := by rw [plain.payload, Numeric.ofPayload?]
  answers name method listed := by
    obtain ⟨ofInt, ordinary⟩ := arithmeticMethods_ordinary listed
    obtain ⟨function, found, runs⟩ := intact.method .int name method ofInt
    refine ⟨function, .int, intact.present_of_runs runs,
      lookupOperator_of_firstIn plain.class_ (plain.ownAttribute? name) (by decide) ordinary runs ?_,
      runs⟩
    have base : world.base? BuiltinClass.bool.ref = some BuiltinClass.int.ref := by
      rw [base?, inherit.base]
      simp only [isClass, intact.class_]
      rfl
    have inClass := (intact.ownAttribute? .int name).trans found
    obtain ⟨rest, chained⟩ : ∃ rest, world.chain BuiltinClass.bool.ref =
        BuiltinClass.bool.ref :: BuiltinClass.int.ref :: rest := by
      obtain ⟨fuel, more⟩ := Nat.exists_eq_add_one.mpr (Nat.zero_lt_of_lt intact.bound_vacant)
      rw [chain, more, chainFrom, base]
      simp only [chainFrom]
      split
      · exact ⟨_, rfl⟩
      · exact ⟨_, rfl⟩
    rw [firstIn, chained, List.findSome?_cons, inherit.unnamed name method listed,
      List.findSome?_cons, inClass]

end Intact

theorem TruthsInherit.grow {before after : World} (inherit : before.TruthsInherit)
    (intact : before.Intact) (grows : before.Grows after) : after.TruthsInherit := by
  have own (name : String) : after.ownAttribute? BuiltinClass.bool.ref name =
      before.ownAttribute? BuiltinClass.bool.ref name := by
    simp only [ownAttribute?, attributes, namespaceAt, grows.spaces,
      grows.object _ (intact.bound_class .bool) id]
  refine ⟨?_, fun name method listed => ?_⟩
  · rw [own, inherit.base]
  · rw [own, inherit.unnamed name method listed]

/-- From the beginning on, truth values inherit arithmetic. -/
theorem beginning_truthsInherit (host : Host) (searchPath : List String) :
    (beginning host searchPath).TruthsInherit := by
  have filled := (beginning_extends host searchPath).2 .bool
  have own := (beginning_intact host searchPath).ownAttribute? .bool
  refine ⟨?_, fun name method listed => ?_⟩
  · rw [own, filled.others "__base__" (by decide) (by decide)]
    rfl
  · rw [own]
    simp only [arithmeticMethods, List.mem_cons, List.not_mem_nil, or_false, Prod.mk.injEq]
      at listed
    obtain ⟨rfl, -⟩ | ⟨rfl, -⟩ | ⟨rfl, -⟩ | ⟨rfl, -⟩ | ⟨rfl, -⟩ := listed <;>
      exact filled.others _ (by decide) (by decide)

end World

namespace Exec

/-! ### Results -/

/-- The step makes an integer of this value. -/
def Gives (step : Exec Ref) (world : World) (n : Int) : Prop :=
  ∃ ref after word, step world = .ok ref after ∧ after.Plain ref .int (.int word) ∧ word.toInt = n

/-- The step gives the exact number if it fits in 64 bits, and raises otherwise. -/
structure ExactOrRaises (step : Exec Ref) (world : World) (operator : String) (n : Int) :
    Prop where
  exact_ : least ≤ n ∧ n ≤ greatest → Gives step world n
  refused : ¬ (least ≤ n ∧ n ≤ greatest) →
    Raises step world .valueError ("integer overflow in " ++ Text.quote operator)

theorem gives_newInt (word : Int64) (world : World) : Gives (newInt word) world word.toInt :=
  ⟨_, _, word, rfl, World.plain_push world .int (.int word), rfl⟩

/-- A result that may not fit is the exact one or refused. -/
theorem integerResult_exact (operator : String) (n : Int) (world : World) :
    ExactOrRaises (integerResult operator (fit? n)) world operator n where
  exact_ inside := by
    obtain ⟨word, fits, same⟩ := exists_fit? inside
    rw [fits, ← same]
    exact gives_newInt word world
  refused outside := by
    rw [fit?_of_not outside]
    exact raises_complain rfl world

theorem ExactOrRaises.of_eq {first second : Exec Ref} {world : World} {operator : String} {n : Int}
    (same : first world = second world) (result : ExactOrRaises second world operator n) :
    ExactOrRaises first world operator n where
  exact_ inside := by
    rw [Gives, same]
    exact result.exact_ inside
  refused outside := by
    rw [Raises, same]
    exact result.refused outside

/-! ### Methods -/

section Methods

variable (fuel : Nat) {world : World} {left right : Ref} {a b : Int64}

/-- A special method that is not written in the language is run with the object first. -/
theorem invoke?_of_answers {name : String} {method : Method} {arguments : List Ref}
    (answers : world.Answers left name method)
    (present : ∀ argument ∈ left :: arguments, argument ≠ vacantRef) :
    ∃ native, invoke? (.ofFuel (fuel + 1)) left name arguments world =
      (some <$> runMethod (.ofFuel fuel) native method left arguments) world := by
  obtain ⟨function, builtin, known, found, runs⟩ := answers
  have called : callAt (fuel + 1) function (left :: arguments) [] world =
      runMethod (.ofFuel fuel) (.method builtin name method) method left arguments world :=
    callAt_native runs known present
  rw [List.forall_mem_cons] at present
  refine ⟨.method builtin name method, ?_⟩
  rw [invoke?, bind_of_ok (checkPresent_of_ne present.1 world), read_bind, found]
  exact bind_same _ called

/-- What follows on such a special method follows on what the method does. -/
theorem invoke?_bind {β : Type} {name : String} {method : Method} {arguments : List Ref}
    {step : Exec Ref} {next : Option Ref → Exec β} (answers : world.Answers left name method)
    (present : ∀ argument ∈ left :: arguments, argument ≠ vacantRef)
    (runs : ∀ native, runMethod (.ofFuel fuel) native method left arguments world = step world) :
    (invoke? (.ofFuel (fuel + 1)) left name arguments >>= next) world =
      (step >>= fun result => next (some result)) world := by
  obtain ⟨native, invoked⟩ := invoke?_of_answers fuel answers present
  rw [bind_same _ invoked, bind_map_left, bind_same _ (runs native)]

/-- An operator with a special method of its own does what the method does. -/
theorem binaryOperation_eq (operator : BinaryOperator) {name : String} {method : Method}
    (named : operatorMethod? operator = some name) (other : operator ≠ .equal)
    (answers : world.Answers left name method) (presentLeft : left ≠ vacantRef)
    (presentRight : right ≠ vacantRef) :
    ∃ native, binaryOperation (.ofFuel (fuel + 1)) operator left right world =
      runMethod (.ofFuel fuel) native method left [right] world := by
  have present : ∀ argument ∈ [left, right], argument ≠ vacantRef := by
    simp [presentLeft, presentRight]
  obtain ⟨native, invoked⟩ := invoke?_of_answers fuel answers present
  refine ⟨native, ?_⟩
  have applied : ∃ next : Option Ref → Exec Ref, (∀ result, next (some result) = pure result) ∧
      binaryOperation (.ofFuel (fuel + 1)) operator left right =
        invoke? (.ofFuel (fuel + 1)) left name [right] >>= next := by
    cases operator <;> cases named <;>
      first | exact ⟨_, fun _ => rfl, rfl⟩ | exact absurd rfl other
  obtain ⟨next, returns, applied⟩ := applied
  rw [applied, bind_same _ invoked, bind_map_left]
  simp only [returns]
  exact congrFun (bind_pure _) world

theorem negate_eq {method : Method} (answers : world.Answers left "__neg__" method)
    (present : left ≠ vacantRef) :
    ∃ native, unaryOperation (.ofFuel (fuel + 1)) .negate left world =
      runMethod (.ofFuel fuel) native method left [] world := by
  have alone : ∀ argument ∈ [left], argument ≠ vacantRef := by
    simp [present]
  obtain ⟨native, invoked⟩ := invoke?_of_answers fuel answers alone
  refine ⟨native, ?_⟩
  rw [unaryOperation, negate, bind_same _ invoked, bind_map_left]
  exact congrFun (bind_pure _) world

theorem numericOperator_eq (operator : String) (apply : Numeric → Numeric → Exec Ref)
    (countsLeft : world.CountsAs left a) (countsRight : world.CountsAs right b) :
    numericOperator operator left right apply world = apply (.int a) (.int b) world := by
  rw [numericOperator, numericOf?, read_bind, numericOf?, read_bind, countsLeft.payload,
    countsRight.payload]

theorem numberMul_eq {machine : Machine} (countsLeft : world.CountsAs left a)
    (countsRight : world.CountsAs right b) :
    numberMul machine left right world = integerResult "*" (mul? a b) world := by
  rw [numberMul, numericOf?, read_bind, numericOf?, read_bind, countsLeft.payload,
    countsRight.payload]

theorem numberNeg_eq (counts : world.CountsAs left a) :
    numberNeg left world = integerResult "-" (neg? a) world := by
  rw [numberNeg, numericUnary, numericOf?, read_bind, counts.payload]

end Methods

/-! ### Arithmetic -/

section Arithmetic

variable (fuel : Nat) {world : World} {left right : Ref} {a b : Int64}
  (calculates : world.Calculates left a)

include calculates

theorem plus_exact (counts : world.CountsAs right b) :
    ExactOrRaises (binaryOperation (.ofFuel (fuel + 1)) .plus left right) world "+"
      (a.toInt + b.toInt) := by
  obtain ⟨native, applied⟩ := binaryOperation_eq fuel .plus rfl (by decide)
    (calculates.answers "__add__" .numberAdd (by decide)) calculates.present counts.present
  refine .of_eq (applied.trans (numericOperator_eq "+" _ calculates.toCountsAs counts)) ?_
  dsimp only
  rw [add?_eq]
  exact integerResult_exact "+" _ world

theorem times_exact (counts : world.CountsAs right b) :
    ExactOrRaises (binaryOperation (.ofFuel (fuel + 1)) .times left right) world "*"
      (a.toInt * b.toInt) := by
  obtain ⟨native, applied⟩ := binaryOperation_eq fuel .times rfl (by decide)
    (calculates.answers "__mul__" .numberMul (by decide)) calculates.present counts.present
  refine .of_eq (applied.trans (numberMul_eq calculates.toCountsAs counts)) ?_
  rw [mul?_eq]
  exact integerResult_exact "*" _ world

theorem power_exact (counts : world.CountsAs right b) {exponent : Nat}
    (same : b.toInt = exponent) :
    ExactOrRaises (binaryOperation (.ofFuel (fuel + 1)) .power left right) world "**"
      (a.toInt ^ exponent) := by
  obtain ⟨native, applied⟩ := binaryOperation_eq fuel .power rfl (by decide)
    (calculates.answers "__pow__" .numberPow (by decide)) calculates.present counts.present
  have natural : 0 ≤ b := by
    rw [Int64.le_iff_toInt_le, same]
    exact Int.natCast_nonneg exponent
  refine .of_eq (applied.trans (numericOperator_eq "**" _ calculates.toCountsAs counts)) ?_
  dsimp only
  rw [if_pos natural, same, Int.toNat_natCast, pow?_eq]
  exact integerResult_exact "**" _ world

theorem negative_exact :
    ExactOrRaises (unaryOperation (.ofFuel (fuel + 1)) .negate left) world "-" (-a.toInt) := by
  obtain ⟨native, applied⟩ := negate_eq fuel
    (calculates.answers "__neg__" .numberNeg (by decide)) calculates.present
  refine .of_eq (applied.trans (numberNeg_eq calculates.toCountsAs)) ?_
  rw [neg?_eq]
  exact integerResult_exact "-" _ world

theorem modulo_eq (counts : world.CountsAs right b) :
    binaryOperation (.ofFuel (fuel + 1)) .modulo left right world =
      (if b == 0 then complain .divisionByZero else newInt (floorMod a b) : Exec Ref) world := by
  obtain ⟨native, applied⟩ := binaryOperation_eq fuel .modulo rfl
    (by decide) (calculates.answers "__mod__" .numberMod (by decide)) calculates.present
    counts.present
  exact applied.trans (numericOperator_eq "%" _ calculates.toCountsAs counts)

/-- The arithmetic of integers, with truth values as one and zero. Sums, products, opposites and
powers are exact if they fit in 64 bits and raise otherwise; in particular no power is refused for
a square on the way to it. A remainder lies between zero and the divisor, on the divisor's side of
zero, and is refused only for a divisor of zero. -/
theorem integer_arithmetic_exact (counts : world.CountsAs right b) :
    ExactOrRaises (binaryOperation (.ofFuel (fuel + 1)) .plus left right) world "+"
      (a.toInt + b.toInt) ∧
    ExactOrRaises (binaryOperation (.ofFuel (fuel + 1)) .times left right) world "*"
      (a.toInt * b.toInt) ∧
    ExactOrRaises (unaryOperation (.ofFuel (fuel + 1)) .negate left) world "-" (-a.toInt) ∧
    (∀ exponent : Nat, b.toInt = exponent →
      ExactOrRaises (binaryOperation (.ofFuel (fuel + 1)) .power left right) world "**"
        (a.toInt ^ exponent)) ∧
    (b.toInt ≠ 0 → ∃ rest : Int,
      Gives (binaryOperation (.ofFuel (fuel + 1)) .modulo left right) world rest ∧
        b.toInt ∣ a.toInt - rest ∧
        (0 ≤ rest ∧ rest < b.toInt ∨ b.toInt < rest ∧ rest ≤ 0)) ∧
    (b.toInt = 0 → Raises (binaryOperation (.ofFuel (fuel + 1)) .modulo left right) world
      .valueError "division by zero") := by
  refine ⟨plus_exact fuel calculates counts, times_exact fuel calculates counts,
    negative_exact fuel calculates, fun exponent same => power_exact fuel calculates counts same,
    fun nonzero => ?_, fun zero => ?_⟩
  · have other : (b == 0) = false := beq_false_of_ne fun same => nonzero (by rw [same]; rfl)
    have given := modulo_eq fuel calculates counts
    rw [other, if_neg Bool.false_ne_true] at given
    refine ⟨(floorMod a b).toInt, ?_, floorMod_spec a nonzero⟩
    rw [Gives, given]
    exact gives_newInt _ world
  · have same : b = 0 := Int64.toInt_inj.mp zero
    have refused := modulo_eq fuel calculates counts
    rw [same, beq_self_eq_true, if_pos rfl] at refused
    rw [Raises, refused]
    exact raises_complain rfl world

end Arithmetic

open World in
/-- The least integer has no opposite; a truth value added to it counts as one, and has one. -/
theorem least_integer_arithmetic :
    let host : Host := { files := ⟨"/", []⟩, input := "", output := "" }
    let start := beginning host []
    let world : World := { start with
      objects := start.objects.push ⟨BuiltinClass.int.ref, none, .int .minValue, none⟩ }
    let lowest : Ref := ⟨start.objects.size⟩
    (world.Calculates lowest .minValue ∧ world.Calculates trueRef 1) ∧
    Gives (binaryOperation (.ofFuel 1) .plus lowest trueRef) world (-9223372036854775807) ∧
    Raises (unaryOperation (.ofFuel 1) .negate lowest) world .valueError
      "integer overflow in '-'" ∧
    Gives (unaryOperation (.ofFuel 1) .negate trueRef) world (-1) := by
  intro host start world lowest
  have grows : start.Grows world := .push start _
  have intact : world.Intact :=
    (beginning_intact host []).grow grows fun _ impossible => impossible.elim
  have inherit : world.TruthsInherit :=
    (beginning_truthsInherit host []).grow (beginning_intact host []) grows
  have truth : world.Plain trueRef .bool (.bool true) :=
    (beginning_keeps host [] [.truth true] (.truth true) List.mem_cons_self).grow
      (Single.truth true).payload_ne_empty grows id
  have integer : world.Calculates lowest .minValue :=
    intact.calculates_int (plain_push start .int (.int .minValue))
  have one : world.Calculates trueRef 1 := intact.calculates_bool inherit truth
  obtain ⟨sum, -, opposite, -⟩ := integer_arithmetic_exact 0 integer one.toCountsAs
  obtain ⟨-, -, negative, -⟩ := integer_arithmetic_exact 0 one one.toCountsAs
  exact ⟨⟨integer, one⟩, sum.exact_ (by decide), opposite.refused (by decide),
    negative.exact_ (by decide)⟩

end Exec

end Offside
