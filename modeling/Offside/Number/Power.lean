/-
This file raises floating-point numbers to powers. The exponent is taken apart into
a whole number and a rest of at most one half. The whole power is a product of
repeated squares, computed on a fraction between one half and one with its power of
two kept beside it, so that no intermediate square leaves the range. The rest is
an exponential of a logarithm, each computed by a short series after its argument
was brought close to zero.

The results are not correctly rounded, and the order of the operations decides
their last digit; so each formula here is the definition, and none may be
rearranged. Arguments that are zero, infinite or not a number follow the usual
conventions for them.
-/

namespace Offside.Number

/-! ### Logarithms and exponentials -/

/-- The natural logarithm of a positive number. With the number as 2^k (1 + f) and s = f / (2 + f),
log (1 + f) is f less a correction that is a series in the square of s. The logarithm of two is
split so that its first part times k is exact. -/
def logarithm (x : Float) : Float :=
  let (fraction, exponent) := x.frExp
  let small := fraction < 7.07106781186547524401e-01
  let f := (if small then fraction * 2.0 else fraction) - 1.0
  let k := Float.ofInt (if small then exponent - 1 else exponent)
  let s := f / (2.0 + f)
  let s2 := s * s
  let s4 := s2 * s2
  let odd := s2 * (6.666666666666735130e-01 + s4 * (2.857142874366239149e-01 +
    s4 * (1.818357216161805012e-01 + s4 * 1.479819860511658591e-01)))
  let even := s4 * (3.999999999940941908e-01 + s4 * (2.222219843214978396e-01 +
    s4 * 1.531383769920937332e-01))
  let square := 0.5 * f * f
  k * 6.93147180369123816490e-01 -
    ((square - (s * (square + (odd + even)) + k * 1.90821492927058770002e-10)) - f)

/-- The coefficients of the series of the exponential less one, from the highest on. -/
def exponentialCoefficients : List Float :=
  [1.9841269841269841270e-4, 1.3888888888888888889e-3, 8.3333333333333333333e-3,
    4.1666666666666666667e-2, 1.6666666666666666667e-1, 0.5, 1.0]

/-- One doubling of the argument of the exponential less one. -/
def doubleArgument (value : Float) : Float :=
  value * (value + 2.0)

/-- The exponential of a number of moderate size. The nearest multiple of log 2 is taken off, the
series is summed at a sixteenth of the rest, and the argument is doubled four times. -/
def exponential (x : Float) : Float :=
  let k := (1.4426950408889634073599246810018920 * x).round
  let rest := (x - 0.69314718055966295651160180568695068359375 * k) -
    0.28235290563031577122588448175013436025525412068e-12 * k
  let reduced := rest * 0.0625
  let sum := exponentialCoefficients.foldl (fun sum coefficient => sum * reduced + coefficient)
    2.4801587301587301587e-5
  let value := doubleArgument (doubleArgument (doubleArgument (doubleArgument (sum * reduced))))
  (value + 1.0).scaleB k.toInt64.toInt

/-! ### Powers -/

/-- A number as a fraction times a power of two. -/
structure Scaled where
  fraction : Float
  exponent : Int

/-- The product of two numbers. The fraction is not brought back into its range. -/
def Scaled.mul (left right : Scaled) : Scaled :=
  ⟨left.fraction * right.fraction, left.exponent + right.exponent⟩

/-- The square of a number, with its fraction in the range again. -/
def Scaled.square (number : Scaled) : Scaled :=
  let fraction := number.fraction * number.fraction
  if fraction < 0.5 then ⟨fraction + fraction, 2 * number.exponent - 1⟩
  else ⟨fraction, 2 * number.exponent⟩

/-- Exponents beyond this size mean a result that is too large or too small anyway. -/
def exponentLimit : Int := 4096

/-- A number times a whole power of a base. -/
def timesPower (result base : Scaled) (count : Nat) : Scaled :=
  if count = 0 then result
  else if base.exponent < -exponentLimit || exponentLimit < base.exponent then
    { result with exponent := result.exponent + base.exponent }
  else
    timesPower (if count % 2 = 1 then result.mul base else result) base.square (count / 2)
termination_by count
decreasing_by omega

/-- A power of a base that is neither zero nor infinite, with an exponent that has less than 64
bits before its point. -/
def finitePower (base exponent : Float) : Float :=
  let size := exponent.abs
  let whole := size.floor
  let part := size - whole
  if part != 0.0 && base < 0.0 then 0.0 / 0.0
  else
    let (count, rest) := if 0.5 < part then (whole + 1.0, part - 1.0) else (whole, part)
    let start : Scaled := ⟨if rest == 0.0 then 1.0 else exponential (rest * logarithm base), 0⟩
    let (fraction, power) := base.frExp
    let result := timesPower start ⟨fraction, power⟩ count.toUInt64.toNat
    if exponent < 0.0 then (1.0 / result.fraction).scaleB (-result.exponent)
    else result.fraction.scaleB result.exponent

/-- A floating-point number to the power of another. -/
def power (base exponent : Float) : Float :=
  if base == 0.0 || !base.isFinite || !exponent.isFinite || 9223372036854775808.0 ≤ exponent.abs
  then base ^ exponent
  else if exponent == 0.5 then base.sqrt
  else if exponent == -0.5 then 1.0 / base.sqrt
  else finitePower base exponent

end Offside.Number
