/-
This file holds the integers of the language: whole numbers of 64 bits with a
sign. A result that needs more bits is never cut; whoever computes one asks
`fit?` and gets nothing when the exact result lies outside the range.
-/

namespace Offside.Number

/-- The least integer of the language. -/
def least : Int := -9223372036854775808

/-- The greatest integer of the language. -/
def greatest : Int := 9223372036854775807

/-- The exact number as an integer of the language, if it is one. -/
def fit? (n : Int) : Option Int64 :=
  if least ≤ n ∧ n ≤ greatest then some (Int64.ofInt n) else none

theorem fit?_eq_none_iff (n : Int) : fit? n = none ↔ ¬ (least ≤ n ∧ n ≤ greatest) := by
  unfold fit?
  split <;> simp_all

/-- An integer that fits is the exact number. -/
theorem toInt_of_fit? {n : Int} {word : Int64} (fits : fit? n = some word) : word.toInt = n := by
  unfold fit? at fits
  split at fits
  next bounds =>
    obtain ⟨low, high⟩ := bounds
    simp only [least, greatest] at low high
    injection fits with equal
    subst equal
    exact Int64.toInt_ofInt_of_le (by simpa using low) (by
      have : (2 : Int) ^ 63 = 9223372036854775808 := by decide
      omega)
  next => exact absurd fits (by simp)

/-- Decimal digits, most significant first, with a minus sign before a negative number. -/
def integerText (word : Int64) : String :=
  match word.toInt with
  | .ofNat n => String.ofList (Nat.toDigits 10 n)
  | .negSucc n => String.ofList ('-' :: Nat.toDigits 10 (n + 1))

/-! ### Reading -/

/-- The value of one decimal digit. -/
def digitValue (c : Char) : Nat :=
  c.toNat - '0'.toNat

/-- The number that a run of decimal digits writes. -/
def decimalValue (digits : List Char) : Nat :=
  digits.foldl (fun value c => value * 10 + digitValue c) 0

/-- A text of one or more decimal digits. -/
def isDigits (text : List Char) : Bool :=
  !text.isEmpty && text.all Char.isDigit

/-- Reads decimal digits after an optional sign. A number outside the range is refused like any
other text that writes no integer. -/
def readInteger? (text : List Char) : Option Int64 :=
  match text with
  | '-' :: digits => if isDigits digits then fit? (-(decimalValue digits : Int)) else none
  | '+' :: digits => if isDigits digits then fit? (decimalValue digits) else none
  | digits => if isDigits digits then fit? (decimalValue digits) else none

end Offside.Number
