/-
This file relates the binary fractions that a 64-bit floating-point number can
hold to exact arithmetic on natural numbers. A finite number is `significand *
2 ^ exponent` with a significand of at most 53 bits; going the other way, a
positive fraction is rounded to the nearest such number, and a fraction exactly
between two of them goes to the one with the even significand.

Rounding works on exact naturals only. The significand is first brought into
the range of 53 bits, unless that would push the exponent below its least
value, and then one division with remainder decides which neighbour is nearer.
-/

namespace Offside.Number

/-- A finite positive number: the exact value is `significand * 2 ^ exponent`. -/
structure Binary64 where
  significand : Nat
  exponent : Int
deriving Repr, DecidableEq

/-- The exponent of the smallest positive number. -/
def leastExponent : Int := -1074

/-- Splits a finite number's magnitude into significand and exponent. -/
def Binary64.ofFloat (x : Float) : Binary64 :=
  let bits : Nat := x.toBits.toNat % Nat.pow 2 63
  let field : Nat := bits / Nat.pow 2 52
  let fraction : Nat := bits % Nat.pow 2 52
  if field = 0 then ⟨fraction, leastExponent⟩
  else ⟨fraction + Nat.pow 2 52, (field : Int) - 1075⟩

/-- The quotient rounded to the nearest natural, a tie going to the even one. -/
def roundDiv (numerator denominator : Nat) : Nat :=
  let quotient := numerator / denominator
  let twice := 2 * (numerator % denominator)
  if twice < denominator then quotient
  else if twice > denominator then quotient + 1
  else if quotient % 2 = 0 then quotient else quotient + 1

/-- The number of binary digits. -/
def bitLength (n : Nat) : Nat :=
  if n = 0 then 0 else Nat.log2 n + 1

/-- `numerator / (denominator * 2 ^ exponent)` rounded to the nearest natural. -/
def roundScaled (numerator denominator : Nat) (exponent : Int) : Nat :=
  if 0 ≤ exponent then roundDiv numerator (denominator * Nat.pow 2 exponent.toNat)
  else roundDiv (numerator * Nat.pow 2 (-exponent).toNat) denominator

/-- The nearest number to a positive fraction, as the bits of its encoding without the sign.
Nothing if the nearest would lie beyond the greatest finite number. -/
def roundFraction? (numerator denominator : Nat) : Option Nat :=
  if numerator = 0 then some 0
  else
    -- The quotient has this many bits, or one fewer.
    let bits : Int := bitLength numerator - bitLength denominator
    -- Try the exponent that leaves 53 bits, one less first.
    let first := max (bits - 53) leastExponent
    let guess := roundScaled numerator denominator first
    let exponent := if guess ≥ Nat.pow 2 53 then first + 1 else first
    let significand :=
      if guess ≥ Nat.pow 2 53 then roundScaled numerator denominator exponent else guess
    -- Rounding up may carry into one more bit.
    let (significand, exponent) :=
      if significand ≥ Nat.pow 2 53 then (significand / 2, exponent + 1)
      else (significand, exponent)
    if significand < Nat.pow 2 52 then some significand
    else
      let field := exponent + 1075
      if field ≥ 2047 then none
      else some (field.toNat * Nat.pow 2 52 + (significand - Nat.pow 2 52))

/-- The floating-point number with the given sign and magnitude bits. -/
def floatOfBits (negative : Bool) (magnitude : Nat) : Float :=
  Float.ofBits (UInt64.ofNat (magnitude + if negative then Nat.pow 2 63 else 0))

end Offside.Number
