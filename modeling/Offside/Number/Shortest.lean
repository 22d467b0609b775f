/-
This file finds the shortest decimal that names a floating-point number. A
decimal names a number if rounding it to the nearest number gives that number
back, that is, if it lies in the interval of reals that round to it: from half
way to the neighbour below to half way to the neighbour above, the ends included
exactly when the significand is even.

For each count of digits the decimals with that many digits form a grid, and if
any point of the grid lies in the interval then one of the two points next to
the value does. So it is enough to test those two, for one digit, two digits and
so on, and to take the nearer of them when both fit. Seventeen digits always
suffice.
-/

import Offside.Number.Binary64

namespace Offside.Number

/-- The decimal `0.d₁d₂…dₙ * 10 ^ point`, its digits given as one natural number. -/
structure Decimal where
  digits : Nat
  point : Int
deriving Repr, DecidableEq

/-- The reals that round to a positive number, scaled to a common denominator: the value and both
ends are numerators over `denominator`. -/
structure RoundingInterval where
  low : Nat
  value : Nat
  high : Nat
  denominator : Nat
  closed : Bool

/-- The interval of a finite positive number. Quarters of the last binary place are fine enough
for both ends; below a power of two the neighbour is only half as far away. -/
def Binary64.interval (number : Binary64) : RoundingInterval :=
  let scale := number.exponent - 2
  let up := Nat.pow 2 scale.toNat
  let below := if number.significand = Nat.pow 2 52 ∧ leastExponent < number.exponent then 1 else 2
  { low := (4 * number.significand - below) * up
    value := 4 * number.significand * up
    high := (4 * number.significand + 2) * up
    denominator := Nat.pow 2 (-scale).toNat
    closed := number.significand % 2 = 0 }

/-- The decimal `count * 10 ^ exponent` lies in the interval. -/
def RoundingInterval.holds (interval : RoundingInterval) (count : Nat) (exponent : Int) : Bool :=
  let numerator := count * Nat.pow 10 exponent.toNat * interval.denominator
  let unit := Nat.pow 10 (-exponent).toNat
  if interval.closed then interval.low * unit ≤ numerator && numerator ≤ interval.high * unit
  else interval.low * unit < numerator && numerator < interval.high * unit

/-- The power of ten just above the value: `10 ^ (p - 1) ≤ value < 10 ^ p`. The estimate from the
binary logarithm is at most one too small. -/
def RoundingInterval.magnitude (interval : RoundingInterval) : Int :=
  let bits : Int := (Nat.log2 interval.value : Int) - Nat.log2 interval.denominator
  -- 1233 / 4096 is a little less than the decimal logarithm of two.
  let estimate : Int := Int.fdiv (bits * 1233) 4096 - 1
  let reaches (power : Int) : Bool :=
    Nat.pow 10 power.toNat * interval.denominator ≤ interval.value * Nat.pow 10 (-power).toNat
  if reaches (estimate + 2) then estimate + 3
  else if reaches (estimate + 1) then estimate + 2
  else if reaches estimate then estimate + 1
  else estimate

/-- The grid points below and above the value for decimals in steps of `10 ^ exponent`, with the
numerator and denominator of the value in such steps. -/
def RoundingInterval.inSteps (interval : RoundingInterval) (exponent : Int) : Nat × Nat :=
  (interval.value * Nat.pow 10 (-exponent).toNat, interval.denominator * Nat.pow 10 exponent.toNat)

/-- The multiple of `10 ^ exponent` in the interval that is nearest to the value, a tie going to
the even multiple. -/
def RoundingInterval.nearest? (interval : RoundingInterval) (exponent : Int) : Option Nat :=
  let (numerator, denominator) := interval.inSteps exponent
  let below := numerator / denominator
  let low := interval.holds below exponent
  let high := interval.holds (below + 1) exponent
  if low && high then some (roundDiv numerator denominator)
  else if low then some below
  else if high then some (below + 1)
  else none

/-- Tries ever finer grids. -/
def RoundingInterval.search (interval : RoundingInterval) (magnitude : Int) : Nat → Nat → Decimal
  | 0, _ => ⟨0, 0⟩
  | fuel + 1, count =>
    match interval.nearest? (magnitude - count) with
    | some digits => ⟨digits, magnitude - count⟩
    | none => interval.search magnitude fuel (count + 1)

/-- Drops zeros at the end of a natural number, counting them. -/
def dropZeros : Nat → Nat → Nat × Nat
  | 0, n => (n, 0)
  | fuel + 1, n =>
    if n ≠ 0 ∧ n % 10 = 0 then
      let (rest, count) := dropZeros fuel (n / 10)
      (rest, count + 1)
    else (n, 0)

/-- The shortest decimal that names the magnitude of a finite number, and of those the nearest.
Zero has no digits. -/
def shortestDecimal (x : Float) : Decimal :=
  let number := Binary64.ofFloat x
  if number.significand = 0 then ⟨0, 0⟩
  else
    let interval := number.interval
    let found := interval.search interval.magnitude 20 1
    -- Read `digits * 10 ^ exponent` as `0.digits * 10 ^ point`.
    let (digits, zeros) := dropZeros 20 found.digits
    let width := (Nat.toDigits 10 digits).length
    ⟨digits, found.point + zeros + width⟩

end Offside.Number
