/-
This file looks for pieces of text in a text. Everything rests on the first
occurrence of a piece, as what stands before it and what stands after it:
counting, splitting and replacing take up the search again after the occurrence,
so occurrences never overlap. The empty piece occurs before every character and at
the end.
-/

namespace Offside.Text

/-- What follows a piece that the text starts with. -/
def after? : List Char → List Char → Option (List Char)
  | [], text => some text
  | _ :: _, [] => none
  | c :: piece, d :: text => if c = d then after? piece text else none

/-- Looks for a piece from here on. What was passed already is given from its end. -/
def cutFrom (piece seen : List Char) : List Char → Option (List Char × List Char)
  | [] => if piece.isEmpty then some (seen.reverse, []) else none
  | c :: rest =>
    match after? piece (c :: rest) with
    | some found => some (seen.reverse, found)
    | none => cutFrom piece (c :: seen) rest

/-- What stands before and after the first occurrence of a piece. -/
def cut? (piece text : List Char) : Option (List Char × List Char) :=
  cutFrom piece [] text

/-- The piece occurs in the text. -/
def occurs (piece text : List Char) : Bool :=
  (cut? piece text).isSome

/-- The position of the first occurrence. -/
def find? (piece text : List Char) : Option Nat :=
  (cut? piece text).map fun parts => parts.1.length

def startsWith (piece text : List Char) : Bool :=
  (after? piece text).isSome

def endsWith (piece text : List Char) : Bool :=
  startsWith piece.reverse text.reverse

/-! ### Every occurrence -/

/-- What follows a piece is the text less the piece. -/
theorem length_of_after? {piece text rest : List Char} (found : after? piece text = some rest) :
    rest.length + piece.length = text.length := by
  induction piece generalizing text with
  | nil =>
    rw [after?, Option.some.injEq] at found
    simp [found]
  | cons c piece inductionHypothesis =>
    cases text with
    | nil => simp [after?] at found
    | cons d text =>
      rw [after?] at found
      split at found
      · simp only [List.length_cons]
        have shorter := inductionHypothesis found
        omega
      · simp at found

/-- What stands after an occurrence is shorter than the text by the piece at least. -/
theorem length_of_cutFrom {piece seen text : List Char} {parts : List Char × List Char}
    (found : cutFrom piece seen text = some parts) :
    parts.2.length + piece.length ≤ text.length := by
  induction text generalizing seen with
  | nil =>
    rw [cutFrom] at found
    split at found
    · next empty =>
      rw [Option.some.injEq] at found
      simp [← found, List.isEmpty_iff.mp empty]
    · simp at found
  | cons c rest inductionHypothesis =>
    rw [cutFrom] at found
    split at found
    · next here =>
      rw [Option.some.injEq] at found
      rw [← found]
      exact Nat.le_of_eq (length_of_after? here)
    · simp only [List.length_cons]
      have shorter := inductionHypothesis found
      omega

/-- What stands between the occurrences of a piece, which is not empty. -/
def split (piece : List Char) (nonempty : piece ≠ []) (text : List Char) : List (List Char) :=
  match _found : cut? piece text with
  | none => [text]
  | some parts => parts.1 :: split piece nonempty parts.2
termination_by text.length
decreasing_by
  have shorter := length_of_cutFrom _found
  have positive := List.length_pos_iff.mpr nonempty
  omega

/-- How often a piece occurs. -/
def occurrences (piece text : List Char) : Nat :=
  if nonempty : piece = [] then text.length + 1 else (split piece nonempty text).length - 1

/-- Puts another piece in the place of every occurrence. -/
def replace (piece other text : List Char) : List Char :=
  if nonempty : piece = [] then other ++ text.flatMap fun c => c :: other
  else other.intercalate (split piece nonempty text)

/-- Drops the given characters at both ends. -/
def strip (dropped text : List Char) : List Char :=
  let front := text.dropWhile dropped.contains
  (front.reverse.dropWhile dropped.contains).reverse

end Offside.Text
