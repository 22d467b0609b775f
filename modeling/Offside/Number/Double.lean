/-
This file holds the floating-point numbers of the language, each by its 64 bits.
All numbers that are not a number behave alike in arithmetic and comparison, but
they differ in their bits, and the hash of a number shows them; so the bits of
every result are fixed here.

An operation with an operand that is not a number gives that operand, the left one
if both are. An invalid operation on numbers, such as a difference of infinities,
gives the invalid number, whose sign bit is set. Reading, remainders and powers
give the plain one. Negation flips the sign bit and nothing else.
-/

import Offside.Number.Arithmetic
import Offside.Number.Power

namespace Offside.Number

/-- The floating-point number nearest to an integer. -/
def floatOfInt (value : Int64) : Float :=
  if value < 0 then -(-value).toUInt64.toFloat else value.toUInt64.toFloat

/-- A floating-point number without its fraction, if that is an integer of the language. -/
def intOfFloat (value : Float) : Int64 :=
  if value < 0.0 then -(-value).toUInt64.toInt64 else value.toUInt64.toInt64

/-- A floating-point number, by its bits. -/
structure Double where
  bits : UInt64
deriving Repr, DecidableEq, Inhabited

namespace Double

/-- The plain one of the numbers that are not a number. -/
def notANumber : Double := ⟨0x7ff8000000000001⟩

/-- What an invalid operation on numbers gives. -/
def invalid : Double := ⟨0xfff8000000000000⟩

/-- The sign bit. -/
def signBit : UInt64 := 0x8000000000000000

def toFloat (number : Double) : Float :=
  Float.ofBits number.bits

def isNaN (number : Double) : Bool :=
  number.toFloat.isNaN

/-- A result that is given in place of one that is not a number. -/
def ofFloatOr (otherwise : Double) (value : Float) : Double :=
  if value.isNaN then otherwise else ⟨value.toBits⟩

/-- A number that was read or converted. -/
def ofFloat (value : Float) : Double :=
  ofFloatOr notANumber value

/-- Applies an operation to two numbers, unless one of them is not a number. -/
def combine (operation : Float → Float → Float) (left right : Double) : Double :=
  if left.isNaN then left
  else if right.isNaN then right
  else ofFloatOr invalid (operation left.toFloat right.toFloat)

def add (left right : Double) : Double := combine (· + ·) left right

def mul (left right : Double) : Double := combine (· * ·) left right

def div (left right : Double) : Double := combine (· / ·) left right

def neg (number : Double) : Double :=
  ⟨number.bits ^^^ signBit⟩

/-- The remainder with the sign of the divisor. -/
def mod (left right : Double) : Double :=
  ofFloat (floatMod left.toFloat right.toFloat)

/-- A power. The first power of anything is the thing itself, and the square root of a negative
number is an invalid operation. -/
def pow (base exponent : Double) : Double :=
  let result := power base.toFloat exponent.toFloat
  if exponent.toFloat == 1.0 then base
  else if exponent.toFloat.abs == 0.5 && !base.isNaN then ofFloatOr invalid result
  else ofFloat result

/-- Two signs cancel, also before what is not a number. -/
@[simp] theorem neg_neg (number : Double) : number.neg.neg = number := by
  simp only [neg, UInt64.xor_assoc, UInt64.xor_self, UInt64.xor_zero]

end Double

end Offside.Number
