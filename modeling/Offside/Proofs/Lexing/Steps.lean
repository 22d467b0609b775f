/-
This file takes the reading of a text apart into calls, one for each token. Between two
calls the reader is in a state: what is left of the text, the line, the blank that the
file indents with, and two flags. Where a line starts, its indentation comes next; and
once the text is used up, its last line is closed before the end of the file is given.

An indentation may have no blanks, and the two tokens at the end take up nothing of the
text. But then a flag changes. So a size that counts the text twice and the flags once
gets smaller with every call that does not give the end of the file, and the stream of a
text is what finitely many calls give.
-/

import Offside.Proofs.Lexing.Spans

namespace Offside

namespace Lexer

/-! ### States and calls -/

/-- The state of the reader between two tokens. -/
structure Cursor where
  /-- The blank that the file indents with, once it has indented a line. -/
  marker : Option Char
  line : Nat
  /-- A line starts here, so its indentation comes next. -/
  atStart : Bool
  /-- The text is used up, and its last line has been closed. -/
  closed : Bool
  text : List Char

/-- The state before a whole text. -/
def Cursor.start (text : List Char) : Cursor :=
  ⟨none, 1, true, false, text⟩

/-- The text behind blanks and comments, unless a comment holds a carriage return. -/
def skipGap (text : List Char) : Option (List Char) :=
  match text with
  | [] => some []
  | c :: rest =>
    if isIndent c then skipGap rest
    else if c = '#' then
      if (afterComment rest).head? = some '\r' then none else skipGap (afterComment rest)
    else some (c :: rest)
termination_by text.length
decreasing_by
  · simp
  · exact Nat.lt_succ_of_le (length_dropWhile_le _ _)

/-- The next token of a line behind its indentation, and the state behind the token. The text is
given without the blanks and the comment before the token. -/
def nextInLine (file : String) (marker : Option Char) (line : Nat) (closed : Bool) :
    Option (List Char) → Except LexError (Token × Cursor)
  | none => .error ⟨.carriageReturn, ⟨file, line⟩⟩
  | some [] =>
    .ok (⟨if closed then .endOfFile else .endOfLine, ⟨file, line⟩⟩, ⟨marker, line, false, true, []⟩)
  | some (c :: rest) =>
    if c = '\n' then
      .ok (⟨.endOfLine, ⟨file, line⟩⟩, ⟨marker, line + 1, true, closed, rest⟩)
    else match take line c rest with
      | .ok taken =>
        .ok (⟨taken.lexeme, ⟨file, line⟩⟩, ⟨marker, taken.line, false, closed, taken.rest⟩)
      | .error (fault, faultLine) => .error ⟨fault, ⟨file, faultLine⟩⟩

/-- One call of the reader: the next token and the state behind it. -/
def next (file : String) (cursor : Cursor) : Except LexError (Token × Cursor) :=
  if cursor.atStart then
    let blanks := cursor.text.takeWhile isIndent
    if isUniform cursor.marker blanks then
      .ok (⟨.indentation (String.ofList blanks), ⟨file, cursor.line⟩⟩,
        ⟨markerAfter cursor.marker blanks, cursor.line, false, cursor.closed,
          cursor.text.dropWhile isIndent⟩)
    else .error ⟨.mixedIndentation, ⟨file, cursor.line⟩⟩
  else nextInLine file cursor.marker cursor.line cursor.closed (skipGap cursor.text)

/-- What one of several calls in a row gives; the first one has the number zero. A call that fails
has no other one behind it. -/
def call (file : String) : Nat → Cursor → Except LexError Token
  | 0, cursor => Prod.fst <$> next file cursor
  | count + 1, cursor =>
    match next file cursor with
    | .error error => .error error
    | .ok (_, after) => call file count after

/-- Calls in a row give these tokens and lead from one state to the other. -/
inductive Passes (file : String) : Cursor → List Token → Cursor → Prop where
  | done {cursor : Cursor} : Passes file cursor [] cursor
  | called {cursor middle after : Cursor} {token : Token} {tokens : List Token}
      (first : next file cursor = .ok (token, middle)) (others : Passes file middle tokens after) :
      Passes file cursor (token :: tokens) after

/-- The stream is what the calls give, one after the other, up to the first fault or the end of
the file. -/
inductive Reads (file : String) : Cursor → Stream → Prop where
  | failed {cursor : Cursor} {error : LexError} (first : next file cursor = .error error) :
      Reads file cursor (.failed error)
  | ended {cursor after : Cursor} {token : Token} (first : next file cursor = .ok (token, after))
      (isEnd : token.lexeme = .endOfFile) : Reads file cursor (.token token .ended)
  | token {cursor after : Cursor} {token : Token} {rest : Stream}
      (first : next file cursor = .ok (token, after)) (goesOn : token.lexeme ≠ .endOfFile)
      (others : Reads file after rest) : Reads file cursor (.token token rest)

/-! ### One call -/

/-- What is skipped is not read again. -/
theorem length_of_skipGap {text rest : List Char} (skipped : skipGap text = some rest) :
    rest.length ≤ text.length := by
  fun_induction skipGap text with
  | case1 =>
    cases skipped
    exact Nat.le_refl _
  | case2 c text _ inductionHypothesis => exact Nat.le_succ_of_le (inductionHypothesis skipped)
  | case3 => cases skipped
  | case4 text _ _ inductionHypothesis =>
    exact Nat.le_succ_of_le ((inductionHypothesis skipped).trans (length_dropWhile_le _ _))
  | case5 =>
    cases skipped
    exact Nat.le_refl _

section Calls

variable {file : String} {marker : Option Char} {line : Nat} {closed : Bool} {text : List Char}

theorem next_inLine : next file ⟨marker, line, false, closed, text⟩ =
    nextInLine file marker line closed (skipGap text) :=
  rfl

theorem next_indentation (uniform : isUniform marker (text.takeWhile isIndent) = true) :
    next file ⟨marker, line, true, closed, text⟩ =
      .ok (⟨.indentation (String.ofList (text.takeWhile isIndent)), ⟨file, line⟩⟩,
        ⟨markerAfter marker (text.takeWhile isIndent), line, false, closed,
          text.dropWhile isIndent⟩) :=
  if_pos uniform

theorem next_mixed (mixed : ¬ isUniform marker (text.takeWhile isIndent) = true) :
    next file ⟨marker, line, true, closed, text⟩ = .error ⟨.mixedIndentation, ⟨file, line⟩⟩ :=
  if_neg mixed

end Calls

/-- How much there is to do: the text counts twice, and each flag once. -/
def Cursor.size (cursor : Cursor) : Nat :=
  2 * cursor.text.length + cursor.atStart.toNat + (!cursor.closed).toNat

/-- What a call may give: an indentation, a token that closes the text or a line, or a lexeme. -/
inductive Next (file : String) : Cursor → Token → Cursor → Prop where
  | indentation {marker : Option Char} {line : Nat} {closed : Bool} {text : List Char}
      (uniform : isUniform marker (text.takeWhile isIndent) = true) :
      Next file ⟨marker, line, true, closed, text⟩
        ⟨.indentation (String.ofList (text.takeWhile isIndent)), ⟨file, line⟩⟩
        ⟨markerAfter marker (text.takeWhile isIndent), line, false, closed,
          text.dropWhile isIndent⟩
  | close {marker : Option Char} {line : Nat} {closed : Bool} {text : List Char}
      (skipped : skipGap text = some []) :
      Next file ⟨marker, line, false, closed, text⟩
        ⟨if closed then .endOfFile else .endOfLine, ⟨file, line⟩⟩ ⟨marker, line, false, true, []⟩
  | lineEnd {marker : Option Char} {line : Nat} {closed : Bool} {text rest : List Char}
      (skipped : skipGap text = some ('\n' :: rest)) :
      Next file ⟨marker, line, false, closed, text⟩ ⟨.endOfLine, ⟨file, line⟩⟩
        ⟨marker, line + 1, true, closed, rest⟩
  | lexeme {marker : Option Char} {line : Nat} {closed : Bool} {text rest : List Char} {c : Char}
      {taken : Taken} (skipped : skipGap text = some (c :: rest)) (inLine : c ≠ '\n')
      (success : take line c rest = .ok taken) :
      Next file ⟨marker, line, false, closed, text⟩ ⟨taken.lexeme, ⟨file, line⟩⟩
        ⟨marker, taken.line, false, closed, taken.rest⟩

theorem next_of_call {file : String} {cursor after : Cursor} {token : Token}
    (success : next file cursor = .ok (token, after)) : Next file cursor token after := by
  obtain ⟨marker, line, atStart, closed, text⟩ := cursor
  cases atStart with
  | true =>
    rw [next, if_pos rfl] at success
    dsimp only at success
    split at success
    next uniform =>
      cases success
      exact .indentation uniform
    next => cases success
  | false =>
    rw [next, if_neg Bool.false_ne_true] at success
    cases skipped : skipGap text with
    | none =>
      rw [skipped] at success
      cases success
    | some behind =>
      rw [skipped] at success
      cases behind with
      | nil =>
        cases success
        exact .close skipped
      | cons c rest =>
        rw [nextInLine] at success
        split at success
        next lineEnd =>
          cases success
          subst lineEnd
          exact .lineEnd skipped
        next inLine =>
          split at success
          next taken taking =>
            cases success
            exact .lexeme skipped inLine taking
          next => cases success

/-- A call that does not give the end of the file leaves less to do. -/
theorem size_of_next {file : String} {cursor after : Cursor} {token : Token}
    (success : next file cursor = .ok (token, after)) (goesOn : token.lexeme ≠ .endOfFile) :
    after.size < cursor.size := by
  cases next_of_call success with
  | @indentation _ _ _ text =>
    have shorter := length_dropWhile_le isIndent text
    simp only [Cursor.size, Bool.toNat_true, Bool.toNat_false]
    omega
  | @close _ _ closed =>
    cases closed with
    | true => exact absurd rfl goesOn
    | false =>
      simp only [Cursor.size, List.length_nil, Bool.not_true, Bool.not_false, Bool.toNat_true,
        Bool.toNat_false]
      omega
  | lineEnd skipped =>
    have shorter := length_of_skipGap skipped
    simp only [Cursor.size, List.length_cons, Bool.toNat_true, Bool.toNat_false] at shorter ⊢
    omega
  | lexeme skipped _ taking =>
    have shorter := length_of_skipGap skipped
    have less := length_of_take taking
    simp only [Cursor.size, List.length_cons] at shorter ⊢
    omega

/-- The call gives a fault or the end of the file. -/
def IsLast : Except LexError Token → Prop
  | .error _ => True
  | .ok token => token.lexeme = .endOfFile

/-- The reader comes to a fault or to the end of the file within as many calls as there is to
do. -/
theorem exists_isLast (file : String) (cursor : Cursor) :
    ∃ count ≤ cursor.size, IsLast (call file count cursor) := by
  induction size : cursor.size using Nat.strongRecOn generalizing cursor with
  | ind bound inductionHypothesis =>
    cases success : next file cursor with
    | error error =>
      refine ⟨0, Nat.zero_le _, ?_⟩
      rw [call, success]
      trivial
    | ok result =>
      obtain ⟨token, after⟩ := result
      by_cases isEnd : token.lexeme = .endOfFile
      · refine ⟨0, Nat.zero_le _, ?_⟩
        rw [call, success]
        exact isEnd
      · have less := size_of_next success isEnd
        obtain ⟨count, within, last⟩ := inductionHypothesis _ (size ▸ less) after rfl
        refine ⟨count + 1, by omega, ?_⟩
        rw [call, success]
        exact last

/-! ### All calls -/

/-- What calls give depends on the first one only. -/
theorem Reads.congr {file : String} {cursor other : Cursor} {stream : Stream}
    (reads : Reads file cursor stream) (same : next file other = next file cursor) :
    Reads file other stream := by
  cases reads with
  | failed first => exact .failed (same.trans first)
  | ended first isEnd => exact .ended (same.trans first) isEnd
  | token first goesOn others => exact .token (same.trans first) goesOn others

/-- A token that is spelled by a span stands inside of a line. -/
theorem Spells.kind {lexeme : Lexeme} {span rest : List Char} (spells : Spells lexeme span rest) :
    lexeme.kind ∉ [Kind.indentation, .endOfLine, .endOfFile] := by
  cases spells with
  | word =>
    obtain ⟨value, same⟩ | ⟨reserved, same⟩ | same := ofWord_cases (String.ofList span) <;>
      simp [same, Lexeme.kind]
  | _ => simp [Lexeme.kind]

theorem ne_endOfFile_of_take {line : Nat} {c : Char} {rest : List Char} {taken : Taken}
    (success : take line c rest = .ok taken) : taken.lexeme ≠ .endOfFile := by
  obtain ⟨span, -, -, spells, -⟩ := spells_of_take success
  intro isEnd
  exact spells.kind (by simp [isEnd, Lexeme.kind])

/-- From the middle of a line on, the calls give the stream of the rest of the text. -/
theorem reads_scan (file : String) (marker : Option Char) (line : Nat) (text : List Char) :
    Reads file ⟨marker, line, false, false, text⟩ (scan file marker line text) := by
  fun_induction scan file marker line text with
  | case1 marker line =>
    have ended : next file ⟨marker, line, false, false, []⟩ =
        .ok (⟨.endOfLine, ⟨file, line⟩⟩, ⟨marker, line, false, true, []⟩) := by
      rw [next_inLine, skipGap]
      rfl
    refine .token ended (by simp) (@Reads.ended file _ ⟨marker, line, false, true, []⟩ _ ?_ rfl)
    rw [next_inLine, skipGap]
    rfl
  | case2 marker line c rest blank inductionHypothesis =>
    refine inductionHypothesis.congr ?_
    rw [next_inLine, next_inLine, skipGap, if_pos blank]
  | case3 marker line rest carriage noBlank =>
    refine .failed ?_
    rw [next_inLine, skipGap, if_neg noBlank, if_pos rfl, if_pos carriage]
    rfl
  | case4 marker line rest noCarriage noBlank inductionHypothesis =>
    refine inductionHypothesis.congr ?_
    rw [next_inLine, next_inLine, skipGap, if_neg noBlank, if_pos rfl, if_neg noCarriage]
  | case5 marker line rest noBlank noComment inductionHypothesis =>
    have ended : next file ⟨marker, line, false, false, '\n' :: rest⟩ =
        .ok (⟨.endOfLine, ⟨file, line⟩⟩, ⟨marker, line + 1, true, false, rest⟩) := by
      rw [next_inLine, skipGap, if_neg noBlank, if_neg noComment]
      rfl
    refine .token ended (by simp) ?_
    dsimp only
    split
    next uniform => exact .token (next_indentation uniform) (by simp) inductionHypothesis
    next mixed => exact .failed (next_mixed mixed)
  | case6 marker line c rest noBlank noComment noLineEnd taken success inductionHypothesis =>
    refine .token ?_ (ne_endOfFile_of_take success) inductionHypothesis
    rw [next_inLine, skipGap, if_neg noBlank, if_neg noComment, nextInLine, if_neg noLineEnd,
      success]
  | case7 marker line c rest noBlank noComment noLineEnd fault faultLine failure =>
    refine .failed ?_
    rw [next_inLine, skipGap, if_neg noBlank, if_neg noComment, nextInLine, if_neg noLineEnd,
      failure]

/-- The calls give the stream of the text. -/
theorem reads_stream (file text : String) : Reads file (.start text.toList) (stream file text) := by
  unfold stream streamFrom
  dsimp only
  split
  next uniform =>
    exact .token (next_indentation uniform) (by simp) (reads_scan file _ 1 _)
  next mixed => exact .failed (next_mixed mixed)

end Lexer

end Offside
