/-
This file holds the methods of numbers: `int` and `float` share them, and `bool`
inherits those of `int`. A truth value counts as one or zero. As soon as one
operand is a floating-point number the operation is one of floating-point
numbers.
-/

import Offside.Eval.Protocol
import Offside.Number.FloatReading
import Offside.Text.Blank

namespace Offside.Library

open Exec

/-- A number as the methods see it. -/
inductive Numeric where
  | int (value : Int64)
  | float (value : Number.Double)

/-- The value as a floating-point number. -/
def Numeric.toDouble : Numeric → Number.Double
  | .int value => .ofFloat (Number.floatOfInt value)
  | .float value => value

/-- The value to compare with others. -/
def Numeric.toFloat (number : Numeric) : Float :=
  number.toDouble.toFloat

def Numeric.isZero : Numeric → Bool
  | .int value => value == 0
  | .float value => value.toFloat == 0.0

/-- The number that a payload is. -/
def Numeric.ofPayload? : Payload → Option Numeric
  | .int value => some (.int value)
  | .bool value => some (.int (if value then 1 else 0))
  | .float value => some (.float value)
  | _ => none

def numericOf? (ref : Ref) : Exec (Option Numeric) :=
  read fun world => Numeric.ofPayload? (world.payload ref)

/-- A text, list or tuple. -/
def isSequence : Payload → Bool
  | .str _ => true
  | .list _ => true
  | .tuple _ => true
  | _ => false

/-- An integer result that may not fit. -/
def integerResult (operator : String) (result : Option Int64) : Exec Ref :=
  match result with
  | some value => newInt value
  | none => complain (.overflow operator)

/-- Applies an operator to two numbers. -/
def numericOperator (operator : String) (self other : Ref)
    (apply : Numeric → Numeric → Exec Ref) : Exec Ref := do
  match ← numericOf? self, ← numericOf? other with
  | some left, some right => apply left right
  | _, _ => unsupported operator self other

def numberAdd (self other : Ref) : Exec Ref :=
  numericOperator "+" self other fun
    | .int left, .int right => integerResult "+" (Number.add? left right)
    | left, right => newFloat (left.toDouble.add right.toDouble)

/-- A number times a sequence repeats the sequence. One that lost its method for it gives nothing
usable. -/
def numberMul (machine : Machine) (self other : Ref) : Exec Ref := do
  match ← numericOf? self, ← numericOf? other with
  | some (.int left), some (.int right) => integerResult "*" (Number.mul? left right)
  | some left, some right => newFloat (left.toDouble.mul right.toDouble)
  | some _, none =>
    if isSequence (← read (·.payload other)) then
      match ← invoke? machine other "__mul__" [self] with
      | some result => return result
      | none => return vacantRef
    else unsupported "*" self other
  | _, _ => unsupported "*" self other

def numberTrueDiv (self other : Ref) : Exec Ref :=
  numericOperator "/" self other fun left right =>
    if right.isZero then complain .divisionByZero
    else newFloat (left.toDouble.div right.toDouble)

def numberMod (self other : Ref) : Exec Ref :=
  numericOperator "%" self other fun left right =>
    if right.isZero then complain .divisionByZero
    else match left, right with
      | .int left, .int right => newInt (Number.floorMod left right)
      | left, right => newFloat (left.toDouble.mod right.toDouble)

/-- A power of which a part, or the sign of the exponent, makes it one of floating-point numbers. -/
def floatPow (left right : Numeric) : Exec Ref :=
  if left.isZero && right.toFloat < 0.0 then complain .zeroToNegative
  else newFloat (left.toDouble.pow right.toDouble)

def numberPow (self other : Ref) : Exec Ref :=
  numericOperator "**" self other fun
    | .int left, .int right =>
      if 0 ≤ right then integerResult "**" (Number.pow? left right.toInt.toNat)
      else floatPow (.int left) (.int right)
    | left, right => floatPow left right

def numberEq (self other : Ref) : Exec Ref := do
  match ← numericOf? self, ← numericOf? other with
  | some (.int left), some (.int right) => return truthRef (left == right)
  | some left, some right => return truthRef (left.toFloat == right.toFloat)
  | _, _ => return falseRef

/-- The order of two integers. -/
def holdsInt : Comparison → Int64 → Int64 → Bool
  | .less, left, right => left < right
  | .atMost, left, right => left ≤ right
  | .greater, left, right => right < left
  | .atLeast, left, right => right ≤ left

/-- The order of two floating-point numbers. -/
def holdsFloat : Comparison → Float → Float → Bool
  | .less, left, right => left < right
  | .atMost, left, right => left ≤ right
  | .greater, left, right => right < left
  | .atLeast, left, right => right ≤ left

def numberCompare (order : Comparison) (self other : Ref) : Exec Ref :=
  numericOperator order.operator self other fun
    | .int left, .int right => return truthRef (holdsInt order left right)
    | left, right => return truthRef (holdsFloat order left.toFloat right.toFloat)

/-- Applies a method to a number. -/
def numericUnary (self : Ref) (apply : Numeric → Exec Ref) : Exec Ref := do
  match ← numericOf? self with
  | some value => apply value
  | none => complain (.notNumber (← typeName self))

def numberNeg (self : Ref) : Exec Ref :=
  numericUnary self fun
    | .int value => integerResult "-" (Number.neg? value)
    | .float value => newFloat value.neg

def numberBool (self : Ref) : Exec Ref :=
  numericUnary self fun
    | .int value => return truthRef (value != 0)
    | .float value => return truthRef (value.toFloat != 0.0)

/-- The integer part. -/
def numberInt (self : Ref) : Exec Ref :=
  numericUnary self fun
    | .int value => newInt value
    | .float number =>
      let value := number.toFloat
      if value.isNaN || value.isInf then complain (.floatNotFinite (Number.floatText value))
      else if 9223372036854775808.0 ≤ value || value < -9223372036854775808.0 then
        complain (.floatTooLarge (Number.floatText value))
      else newInt (Number.intOfFloat value)

def numberFloat (self : Ref) : Exec Ref :=
  numericUnary self fun value => newFloat value.toDouble

def numberHash (self : Ref) : Exec Ref :=
  numericUnary self fun _ => do newInt (← read (·.keyHash self)).toInt64

def numberRepr (self : Ref) : Exec Ref :=
  numericUnary self fun
    | .int value => newStr (Number.integerText value)
    | .float value => newStr (Number.floatText value.toFloat)

/-! ### Truth values -/

def boolRepr (self : Ref) : Exec Ref := do
  newStr (← read (·.display self))

def boolBool (self : Ref) : Exec Ref := do
  match ← read (·.payload self) with
  | .bool value => return truthRef value
  | _ => return falseRef

/-! ### Conversions -/

/-- The integer of a number, a text or an object with a special method. -/
def convertInt (machine : Machine) : List Ref → Exec Ref
  | [] => newInt 0
  | source :: _ => do
    match ← read (·.payload source) with
    | .int value => newInt value
    | .str text =>
      match Number.readInteger? (Text.trim text.toList) with
      | some value => newInt value
      | none => complain (.intLiteral text)
    | _ =>
      match ← invoke? machine source "__int__" [] with
      | none => complain (.intArgument (← typeName source))
      | some result =>
        match ← read (·.payload result) with
        | .int _ => return result
        | _ => complain (.intReturned (← typeName result))

/-- The floating-point number of a number, a text or an object with a special method. -/
def convertFloat (machine : Machine) : List Ref → Exec Ref
  | [] => newFloat (.ofFloat 0.0)
  | source :: _ => do
    match ← read (·.payload source) with
    | .str text =>
      match Number.readFloat? (Text.trim text.toList) with
      | some value => newFloat (.ofFloat value)
      | none => complain (.floatLiteral text)
    | _ =>
      match ← invoke? machine source "__float__" [] with
      | none => complain (.floatArgument (← typeName source))
      | some result =>
        match ← read (·.payload result) with
        | .float _ => return result
        | _ => complain (.floatReturned (← typeName result))

def convertBool (machine : Machine) : List Ref → Exec Ref
  | [] => return falseRef
  | source :: _ => do return truthRef (← truthy machine source)

end Offside.Library
