/-
This file writes floating-point numbers. The digits are the shortest that name
the number; this file only decides how they are laid out. Numbers of moderate
size are written with a point, very large and very small ones with an exponent
that has a sign and at least two digits.
-/

import Offside.Number.Shortest

namespace Offside.Number

/-- Exponents written with a point: numbers from `10 ^ least` up to, and not including,
`10 ^ beyond`. -/
structure PointRange where
  least : Int
  beyond : Int

/-- Numbers of at least a ten-thousandth and less than a million are written with a point. -/
def pointRange : PointRange := ⟨-4, 6⟩

/-- Digits with the point after the first `point` of them, zeros filling both sides. -/
def withPoint (digits : List Char) (point : Int) : List Char :=
  if point ≤ 0 then '0' :: '.' :: List.replicate (-point).toNat '0' ++ digits
  else if digits.length ≤ point.toNat then
    digits ++ List.replicate (point.toNat - digits.length) '0'
  else digits.take point.toNat ++ '.' :: digits.drop point.toNat

/-- An exponent: its sign always, and at least two digits. -/
def exponentText (exponent : Int) : List Char :=
  let digits := Nat.toDigits 10 exponent.natAbs
  (if exponent < 0 then '-' else '+') :: (if digits.length < 2 then '0' :: digits else digits)

/-- One digit, the other digits after a point if there are any, and the exponent. -/
def withExponent (digits : List Char) (exponent : Int) : List Char :=
  let fraction := match digits.drop 1 with
    | [] => []
    | rest => '.' :: rest
  digits.take 1 ++ fraction ++ 'e' :: exponentText exponent

/-- A finite magnitude. -/
def magnitudeText (x : Float) : List Char :=
  let decimal := shortestDecimal x
  if decimal.digits = 0 then ['0']
  else
    let digits := Nat.toDigits 10 decimal.digits
    let exponent := decimal.point - 1
    if exponent < pointRange.least || pointRange.beyond ≤ exponent then
      withExponent digits exponent
    else withPoint digits decimal.point

/-- The sign bit, which negative zero has too. -/
def isNegative (x : Float) : Bool :=
  x.toBits.toNat ≥ Nat.pow 2 63

/-- A finite number as briefly as possible: a whole number has no point. -/
def plainFloatText (x : Float) : String :=
  if x.isNaN then "NaN"
  else if x.isInf then (if isNegative x then "-Inf" else "+Inf")
  else String.ofList ((if isNegative x then ['-'] else []) ++ magnitudeText x)

/-- A number as the language shows it: a whole number without exponent gets a point and a zero, so
that it cannot be mistaken for an integer. -/
def floatText (x : Float) : String :=
  if x.isNaN then "nan"
  else if x.isInf then (if isNegative x then "-inf" else "inf")
  else
    let text := plainFloatText x
    if text.toList.any (fun c => c == '.' || c == 'e') then text else text ++ ".0"

end Offside.Number
