/-
This file computes with numbers the way the language does. An integer operation
works on words and then finds out from the words whether its result went around;
if so it is refused. A remainder takes the sign of the divisor, for integers and
for floating-point numbers alike. The remainder of floating-point numbers is
exact, so it is computed on significands as whole numbers and never rounded.
-/

import Offside.Number.Binary64
import Offside.Number.FloatText
import Offside.Number.Integer

namespace Offside.Number

/-! ### Integers -/

/-- Two numbers of one sign have a sum of that sign, unless it went around. -/
def add? (left right : Int64) : Option Int64 :=
  let sum := left + right
  if 0 < left ∧ 0 < right ∧ sum < 0 ∨ left < 0 ∧ right < 0 ∧ 0 ≤ sum then none else some sum

/-- A product is divided by the right factor again to see whether it went around. The division that
would itself go around is refused before. -/
def mul? (left right : Int64) : Option Int64 :=
  if left = 0 ∨ right = 0 then some 0
  else if left = -1 ∧ right = .minValue ∨ right = -1 ∧ left = .minValue then none
  else
    let product := left * right
    if product / right = left then some product else none

/-- The least number has no opposite. -/
def neg? (value : Int64) : Option Int64 :=
  if value = .minValue then none else some (-value)

/-- The remainder with the sign of the divisor, which is not zero. -/
def floorMod (left right : Int64) : Int64 :=
  let rest := left % right
  if rest ≠ 0 ∧ ¬ (rest < 0 ↔ right < 0) then rest + right else rest

/-- Multiplies `result` by the power, squaring the base for each binary digit of the exponent. The
base is only squared while digits are left, so no square is formed that the result does not
contain. -/
def powFrom? (result base : Int64) (exponent : Nat) : Option Int64 :=
  if _positive : exponent = 0 then some result
  else
    match if exponent % 2 = 1 then mul? result base else some result with
    | none => none
    | some product =>
      if exponent / 2 = 0 then some product
      else match mul? base base with
        | none => none
        | some square => powFrom? product square (exponent / 2)
termination_by exponent
decreasing_by omega

/-- A power with an exponent that is not negative. -/
def pow? (base : Int64) (exponent : Nat) : Option Int64 :=
  powFrom? 1 base exponent

/-! ### Floating-point numbers -/

/-- The remainder of two positive finite numbers, as magnitude bits. Both are whole multiples of
the smaller of their last places, and so is the remainder. -/
def remainderBits (left right : Binary64) : Nat :=
  let place := min left.exponent right.exponent
  let scaled (number : Binary64) : Nat :=
    number.significand * Nat.pow 2 (number.exponent - place).toNat
  let rest := scaled left % scaled right
  (roundFraction? (rest * Nat.pow 2 place.toNat) (Nat.pow 2 (-place).toNat)).getD 0

/-- The remainder with the sign of the dividend. -/
def truncMod (left right : Float) : Float :=
  if right == 0.0 || left.isInf || left.isNaN || right.isNaN then 0.0 / 0.0
  else if right.isInf then left
  else if left == 0.0 then left
  else floatOfBits (isNegative left) (remainderBits (.ofFloat left) (.ofFloat right))

/-- The remainder with the sign of the divisor. -/
def floatMod (left right : Float) : Float :=
  let rest := truncMod left right
  if rest != 0.0 && (rest < 0.0) != (right < 0.0) then rest + right else rest

end Offside.Number
