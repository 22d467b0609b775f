/-
This file reads floating-point numbers. The text is a decimal with an optional
point and exponent, a hexadecimal with an obligatory binary exponent, or one of
the words for infinity and not-a-number. Underscores may stand between two
digits. The value is rounded to the nearest number; a text whose value lies
beyond the greatest finite number is refused, and one that is too small for any
positive number reads as zero.
-/

import Offside.Number.Integer
import Offside.Number.Binary64

namespace Offside.Number

/-- The two bases a number can be written in. -/
inductive Radix where
  | decimal
  | hexadecimal
deriving DecidableEq

/-- The value of a digit of the base, if the character is one. -/
def Radix.digit? (radix : Radix) (c : Char) : Option Nat :=
  if c.isDigit then some (c.toNat - '0'.toNat)
  else match radix with
    | .decimal => none
    | .hexadecimal =>
      let lower := c.toLower
      if 'a' ≤ lower && lower ≤ 'f' then some (lower.toNat - 'a'.toNat + 10) else none

def Radix.base : Radix → Nat
  | .decimal => 10
  | .hexadecimal => 16

/-! ### Underscores -/

/-- What stood last while underscores are checked. -/
inductive Separation where
  | digit
  | underscore
  | other
deriving DecidableEq

/-- Every underscore stands between two digits. -/
def separatesDigits (radix : Radix) : Separation → List Char → Bool
  | last, [] => last != .underscore
  | last, c :: rest =>
    if (radix.digit? c).isSome then separatesDigits radix .digit rest
    else if c = '_' then last == .digit && separatesDigits radix .underscore rest
    else last != .underscore && separatesDigits radix .other rest

/-! ### The parts of a number -/

/-- The digits of a number as one natural, how many of them follow the point, and the rest of the
text. -/
structure Mantissa where
  value : Nat
  afterPoint : Nat
  sawPoint : Bool
  sawDigit : Bool
  rest : List Char

/-- Takes digits, underscores and at most one point. -/
def readMantissa (radix : Radix) (read : Mantissa) : List Char → Mantissa
  | [] => { read with rest := [] }
  | c :: rest =>
    if c = '_' then readMantissa radix read rest
    else if c = '.' then
      if read.sawPoint then { read with rest := c :: rest }
      else readMantissa radix { read with sawPoint := true } rest
    else match radix.digit? c with
      | some digit =>
        readMantissa radix
          { read with
            value := read.value * radix.base + digit
            afterPoint := read.afterPoint + (if read.sawPoint then 1 else 0)
            sawDigit := true }
          rest
      | none => { read with rest := c :: rest }

/-- Takes the digits of an exponent. Once it has five digits further ones do not change the
outcome and are not counted. -/
def readExponentDigits (value : Nat) : List Char → Nat × List Char
  | [] => (value, [])
  | c :: rest =>
    if c.isDigit then
      readExponentDigits (if value < 10000 then value * 10 + digitValue c else value) rest
    else if c = '_' then readExponentDigits value rest
    else (value, c :: rest)

/-- Takes an exponent after its letter: an optional sign and at least one digit. -/
def readExponent? (text : List Char) : Option (Int × List Char) :=
  let (negative, digits) := match text with
    | '-' :: rest => (true, rest)
    | '+' :: rest => (false, rest)
    | rest => (false, rest)
  match digits with
  | c :: _ =>
    if c.isDigit then
      let (value, rest) := readExponentDigits 0 digits
      some (if negative then -(value : Int) else value, rest)
    else none
  | [] => none

/-! ### Values -/

/-- `value * 10 ^ exponent` as magnitude bits. Far outside the range of exponents the outcome is
clear without computing the power. -/
def decimalBits? (value : Nat) (exponent : Int) : Option Nat :=
  let width : Int := (Nat.toDigits 10 value).length
  if value = 0 then some 0
  else if width + exponent > 400 then none
  else if width + exponent < -400 then some 0
  else roundFraction? (value * Nat.pow 10 exponent.toNat) (Nat.pow 10 (-exponent).toNat)

/-- `value * 2 ^ exponent` as magnitude bits. -/
def binaryBits? (value : Nat) (exponent : Int) : Option Nat :=
  let width : Int := bitLength value
  if value = 0 then some 0
  else if width + exponent > 1100 then none
  else if width + exponent < -1200 then some 0
  else roundFraction? (value * Nat.pow 2 exponent.toNat) (Nat.pow 2 (-exponent).toNat)

/-- Reads an unsigned number that is not a word. -/
def readMagnitude? (text : List Char) : Option Nat := do
  let (radix, body) := match text with
    | '0' :: x :: c :: rest =>
      if x.toLower = 'x' then (Radix.hexadecimal, c :: rest) else (.decimal, text)
    | _ => (.decimal, text)
  let mantissa := readMantissa radix ⟨0, 0, false, false, []⟩ body
  guard mantissa.sawDigit
  guard (separatesDigits radix (if radix = .hexadecimal then .digit else .other) body)
  match radix with
  | .decimal =>
    match mantissa.rest with
    | [] => decimalBits? mantissa.value (-(mantissa.afterPoint : Int))
    | mark :: rest =>
      guard (mark.toLower = 'e')
      let (exponent, rest) ← readExponent? rest
      guard rest.isEmpty
      decimalBits? mantissa.value (exponent - mantissa.afterPoint)
  | .hexadecimal =>
    match mantissa.rest with
    | [] => none
    | mark :: rest =>
      guard (mark.toLower = 'p')
      let (exponent, rest) ← readExponent? rest
      guard rest.isEmpty
      binaryBits? mantissa.value (exponent - 4 * mantissa.afterPoint)

/-- The text is one of the words for infinity, in any case. -/
def isInfinityWord (text : List Char) : Bool :=
  let lower := text.map Char.toLower
  lower == "inf".toList || lower == "infinity".toList

/-- The magnitude bits of infinity. -/
def infinityBits : Nat := 2047 * Nat.pow 2 52

/-- Reads a floating-point number that fills the whole text. -/
def readFloat? (text : List Char) : Option Float :=
  if text.map Char.toLower == "nan".toList then some (0.0 / 0.0)
  else
    let (negative, body) := match text with
      | '-' :: rest => (true, rest)
      | '+' :: rest => (false, rest)
      | rest => (false, rest)
    if isInfinityWord body then some (floatOfBits negative infinityBits)
    else (readMagnitude? body).map (floatOfBits negative)

end Offside.Number
