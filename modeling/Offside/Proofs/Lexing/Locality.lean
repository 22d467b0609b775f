/-
This file says that the reader looks at nothing behind the end of a line before it gets
there. Two texts may differ behind a line end that they share. Then the calls that do not
use up that line end give the same tokens from both, and leave the same state but for the
part of the text that differs.

A word, a number and a sign stop at a line end, since none of them has one inside. A
string may go on over it. But whether what stands up to its closing quotes is legal has
nothing to do with the text behind them, nor with the line that it stands on.

Every call uses up a beginning of the text, and its line ends are the lines that the
reader goes down. So the line on which a call starts is known from the text before it.
-/

import Offside.Proofs.Lexing.LineNumbers
import Offside.Proofs.Lexing.Lines

namespace Offside

namespace Lexer

/-! ### What a call uses up -/

/-- A call uses up a beginning of the text and goes down as many lines as end there. The token
stands where the call starts. -/
theorem exists_of_next {file : String} {cursor after : Cursor} {token : Token}
    (success : next file cursor = .ok (token, after)) :
    ∃ span, cursor.text = span ++ after.text ∧ after.line = cursor.line + span.count '\n' ∧
      token.location = ⟨file, cursor.line⟩ := by
  obtain ⟨gap, span, takes⟩ := exists_takes success
  refine ⟨gap ++ span, ?_, ?_, takes.location⟩
  · rw [takes.cut, List.append_assoc]
  · rw [takes.line, List.count_append, List.count_eq_zero.mpr takes.isGap.not_mem_lineEnd,
      Nat.zero_add]

/-! ### Runs and gaps before a line end -/

section Cut

variable {front left behind other : List Char}

/-- What goes on to the end of a text without a line end goes on at most to a line end. -/
theorem takeWhile_lineEnd (part : Char → Bool) (stops : part '\n' = false)
    (front behind : List Char) :
    (front ++ '\n' :: behind).takeWhile part = front.takeWhile part ∧
      (front ++ '\n' :: behind).dropWhile part = front.dropWhile part ++ '\n' :: behind := by
  induction front with
  | nil => simp [stops]
  | cons c front inductionHypothesis =>
    cases passes : part c <;> simp [passes, inductionHypothesis]

/-- A beginning without a line end ends before the first one. -/
theorem prefix_lineEnd_iff {start : List Char} (inLine : '\n' ∉ start) :
    start <+: front ++ '\n' :: behind ↔ start <+: front := by
  induction start generalizing front with
  | nil => simp
  | cons c start inductionHypothesis =>
    rw [List.mem_cons, not_or] at inLine
    cases front with
    | nil => simp [List.cons_prefix_cons, Ne.symm inLine.1]
    | cons d front =>
      rw [List.cons_append, List.cons_prefix_cons, List.cons_prefix_cons,
        inductionHypothesis inLine.2]

theorem skipGap_lineEnd (front behind : List Char) :
    skipGap (front ++ '\n' :: behind) = (skipGap front).map (· ++ '\n' :: behind) := by
  fun_induction skipGap front with
  | case1 =>
    rw [List.nil_append, skipGap]
    rfl
  | case2 c front blank inductionHypothesis =>
    rw [List.cons_append, skipGap, if_pos blank, inductionHypothesis]
  | case3 front carriage noBlank =>
    have same : afterComment (front ++ '\n' :: behind) = afterComment front ++ '\n' :: behind :=
      (takeWhile_lineEnd _ rfl front behind).2
    have carriageToo : (afterComment (front ++ '\n' :: behind)).head? = some '\r' := by
      rw [same, List.head?_append, carriage]
      rfl
    rw [List.cons_append, skipGap, if_neg noBlank, if_pos rfl, if_pos carriageToo]
    rfl
  | case4 front noCarriage noBlank inductionHypothesis =>
    have same : afterComment (front ++ '\n' :: behind) = afterComment front ++ '\n' :: behind :=
      (takeWhile_lineEnd _ rfl front behind).2
    have noCarriageToo : ¬ (afterComment (front ++ '\n' :: behind)).head? = some '\r' := by
      rw [same]
      cases rest : afterComment front with
      | nil => simp
      | cons c rest =>
        rw [rest] at noCarriage
        exact noCarriage
    rw [List.cons_append, skipGap, if_neg noBlank, if_pos rfl, if_neg noCarriageToo, same,
      inductionHypothesis]
  | case5 c front noBlank noComment =>
    rw [List.cons_append, skipGap, if_neg noBlank, if_neg noComment]
    rfl

/-! ### Tokens before a line end -/

section Strings

variable {quotes : Quotes} {opened line : Nat} {value after : List Char}

/-- The closing quotes end a string. -/
theorem readString_closing (isQuote : IsQuote quotes.delimiter) :
    readString quotes opened line value (quotes.text.toList ++ after) =
      .ok (value.reverse, line, after) := by
  obtain ⟨others, spelled, backslash⟩ := isQuote.text_eq
  have carriage : quotes.delimiter ≠ '\r' := by
    obtain same | same := isQuote <;> rw [same] <;> decide
  have closes : quotes.close? (quotes.text.toList ++ after) = some after :=
    close?_eq_some_iff.mpr rfl
  rw [spelled, List.cons_append] at closes ⊢
  rw [readString, if_neg carriage, closes]
  · exact fun same => absurd same backslash
  · exact fun _ _ same => absurd same backslash

/-- A character of its own inside of a string stands for itself. -/
theorem readString_inside {c : Char} {text : List Char} (backslash : c ≠ '\\')
    (carriage : c ≠ '\r') (lineEnd : c = '\n' → quotes.triple = true)
    (opens : quotes.close? (c :: text) = none) :
    readString quotes opened line value (c :: text) =
      readString quotes opened (line + [c].count '\n') (c :: value) text := by
  have noFault : ¬ (decide (c = '\n') && !quotes.triple) = true := by
    simpa using lineEnd
  rw [readString, if_neg carriage, opens]
  · dsimp only
    rw [if_neg noFault, lineAfter_eq]
  · exact fun same => absurd same backslash
  · exact fun _ _ same => absurd same backslash

/-- A string is read exactly if it is legal up to its closing quotes, and the line only tells where
it stands. -/
theorem readString_eq_ok_iff (isQuote : IsQuote quotes.delimiter) {lineEnd : Nat}
    {text result : List Char} :
    readString quotes opened line value text = .ok (result, lineEnd, after) ↔
      ∃ body decoded, text = body ++ after ∧ Decodes quotes body decoded ∧
        result = value.reverse ++ decoded ∧ lineEnd = line + body.count '\n' := by
  refine ⟨decodes_of_readString isQuote, ?_⟩
  rintro ⟨body, decoded, rfl, decodes, rfl, rfl⟩
  induction decodes generalizing value line with
  | closed =>
    rw [readString_closing isQuote, count_lineEnd_quotes isQuote, List.append_nil, Nat.add_zero]
  | escape known _ inductionHypothesis =>
    rw [List.cons_append, List.cons_append, readString_escape known, inductionHypothesis,
      List.reverse_cons, List.append_assoc, List.count_cons_of_ne (by decide),
      List.count_cons_of_ne (escape?_ne_lineEnd known)]
    rfl
  | @plain c body _ backslash carriage lineEnd goesOn others inductionHypothesis =>
    have count : (c :: body).count '\n' = [c].count '\n' + body.count '\n' := by
      rw [← List.count_append]
      rfl
    rw [List.cons_append, readString_inside backslash carriage lineEnd
      (others.close?_eq_none goesOn), inductionHypothesis, List.reverse_cons, List.append_assoc,
      count, Nat.add_assoc]
    rfl

end Strings

/-- A string that ends before a line end is read without a look behind it. -/
theorem readString_lineEnd {quotes : Quotes} (isQuote : IsQuote quotes.delimiter)
    {opened line lineEnd : Nat} {value result : List Char}
    (read : readString quotes opened line value (front ++ '\n' :: behind) =
      .ok (result, lineEnd, left ++ '\n' :: behind)) :
    readString quotes opened line value (front ++ '\n' :: other) =
      .ok (result, lineEnd, left ++ '\n' :: other) := by
  rw [readString_eq_ok_iff isQuote] at read ⊢
  obtain ⟨body, decoded, cut, decodes, given, lines⟩ := read
  rw [← List.append_assoc, List.append_left_inj] at cut
  refine ⟨body, decoded, ?_, decodes, given, lines⟩
  rw [cut, List.append_assoc]

theorem openQuotes_lineEnd {delimiter : Char} (isQuote : IsQuote delimiter)
    (front behind : List Char) :
    openQuotes delimiter (front ++ '\n' :: behind) =
      ((openQuotes delimiter front).1, (openQuotes delimiter front).2 ++ '\n' :: behind) := by
  have other : ¬ '\n' = delimiter := by
    rintro rfl
    exact absurd isQuote (by unfold IsQuote; decide)
  obtain _ | ⟨second, _ | ⟨third, front⟩⟩ := front
  · cases behind <;> simp [openQuotes, other]
  · simp [openQuotes, other]
  · simp only [openQuotes, List.cons_append]
    split <;> rfl

theorem not_mem_spelling (sign : Symbol) : '\n' ∉ sign.spelling.toList := by
  cases sign <;> decide

theorem symbolAt?_lineEnd (front behind : List Char) :
    symbolAt? (front ++ '\n' :: behind) = symbolAt? front := by
  unfold symbolAt?
  congr 1
  funext sign
  rw [Bool.eq_iff_iff, List.isPrefixOf_iff_prefix, List.isPrefixOf_iff_prefix,
    prefix_lineEnd_iff (not_mem_spelling sign)]

/-- A lexeme that ends before a line end is taken without a look behind it. -/
theorem take_lineEnd {line lineEnd : Nat} {c : Char} {lexeme : Lexeme}
    (success : take line c (front ++ '\n' :: behind) =
      .ok ⟨lexeme, lineEnd, left ++ '\n' :: behind⟩) :
    take line c (front ++ '\n' :: other) = .ok ⟨lexeme, lineEnd, left ++ '\n' :: other⟩ := by
  unfold take at success ⊢
  split at success
  next => cases success
  next carriage =>
  rw [if_neg carriage]
  split at success
  next opens =>
    have isQuote : IsQuote c := by
      rwa [Bool.or_eq_true, decide_eq_true_eq, decide_eq_true_eq] at opens
    rw [if_pos opens, openQuotes_lineEnd isQuote]
    rw [openQuotes_lineEnd isQuote] at success
    dsimp only at success ⊢
    split at success
    next value _ _ read =>
      cases success
      have delimits : IsQuote (openQuotes c front).1.delimiter := by
        rwa [(openQuotes_eq c front).1]
      rw [readString_lineEnd delimits read]
    next => cases success
  next noQuote =>
  rw [if_neg noQuote]
  split at success
  next starts =>
    obtain ⟨word, behindWord⟩ := takeWhile_lineEnd Text.isNamePart rfl front behind
    obtain ⟨wordToo, behindWordToo⟩ := takeWhile_lineEnd Text.isNamePart rfl front other
    rw [word, behindWord] at success
    rw [if_pos starts, wordToo, behindWordToo]
    simp only [Except.ok.injEq, Taken.mk.injEq, List.append_left_inj] at success ⊢
    exact success
  next noStart =>
  rw [if_neg noStart]
  split at success
  next part =>
    obtain ⟨run, behindRun⟩ := takeWhile_lineEnd isNumberPart rfl front behind
    obtain ⟨runToo, behindRunToo⟩ := takeWhile_lineEnd isNumberPart rfl front other
    rw [run, behindRun] at success
    rw [if_pos part, runToo, behindRunToo]
    split at success
    next =>
      simp only [Except.ok.injEq, Taken.mk.injEq, List.append_left_inj] at success ⊢
      exact success
    next => cases success
  next noPart =>
  rw [if_neg noPart]
  rw [← List.cons_append, symbolAt?_lineEnd] at success ⊢
  split at success
  next sign found =>
    have starts : sign.spelling.toList <+: c :: front :=
      List.isPrefixOf_iff_prefix.mp (List.find?_eq_some_iff_append.mp found).1
    have within : sign.spelling.length - 1 ≤ front.length := by
      have short := starts.length_le
      rw [List.length_cons, String.length_toList] at short
      omega
    rw [List.drop_append_of_le_length within] at success ⊢
    simp only [Except.ok.injEq, Taken.mk.injEq, List.append_left_inj] at success ⊢
    exact success
  next => cases success

/-! ### Calls before a line end -/

/-- A call that does not use up a line end is the same whatever is behind the line end. -/
theorem next_lineEnd {file : String} {marker : Option Char} {line : Nat} {atStart closed : Bool}
    {token : Token} {after : Cursor}
    (success : next file ⟨marker, line, atStart, closed, front ++ '\n' :: behind⟩ =
      .ok (token, after)) (remains : after.text = left ++ '\n' :: behind) (other : List Char) :
    next file ⟨marker, line, atStart, closed, front ++ '\n' :: other⟩ =
      .ok (token, { after with text := left ++ '\n' :: other }) := by
  generalize whole : front ++ '\n' :: behind = text at success
  cases next_of_call success with
  | indentation uniform =>
    subst whole
    obtain ⟨blanks, behindBlanks⟩ := takeWhile_lineEnd isIndent rfl front behind
    obtain ⟨blanksToo, behindToo⟩ := takeWhile_lineEnd isIndent rfl front other
    dsimp only at remains
    rw [behindBlanks, List.append_left_inj] at remains
    rw [blanks] at uniform ⊢
    rw [next_indentation (by rwa [blanksToo]), blanksToo, behindToo, remains]
  | close skipped =>
    exact absurd remains (by simp)
  | lineEnd skipped =>
    subst whole
    dsimp only at remains
    rw [skipGap_lineEnd, Option.map_eq_some_iff] at skipped
    obtain ⟨gapped, skipped, cut⟩ := skipped
    rw [remains, ← List.cons_append, List.append_left_inj] at cut
    rw [next_inLine, skipGap_lineEnd, skipped, cut, Option.map_some, List.cons_append, nextInLine,
      if_pos rfl]
  | @lexeme _ _ _ _ rest c taken skipped inLine taking =>
    subst whole
    obtain ⟨lexeme, lineEnd, after⟩ := taken
    dsimp only at remains
    subst remains
    rw [skipGap_lineEnd, Option.map_eq_some_iff] at skipped
    obtain ⟨gapped, skipped, cut⟩ := skipped
    cases gapped with
    | nil => exact absurd (List.cons.inj cut).1.symm inLine
    | cons d gapped =>
      obtain ⟨rfl, rfl⟩ := List.cons.inj cut
      rw [next_inLine, skipGap_lineEnd, skipped, Option.map_some, List.cons_append, nextInLine,
        if_neg inLine, take_lineEnd taking]

/-- A call that uses up the line end and nothing else of the text behind it comes to the end of the
line. -/
theorem next_atLineEnd {file : String} {marker : Option Char} {line : Nat} {atStart closed : Bool}
    {token : Token} {after : Cursor}
    (success : next file ⟨marker, line, atStart, closed, front ++ '\n' :: behind⟩ =
      .ok (token, after)) (starts : after.atStart = true) (remains : after.text = behind)
    (other : List Char) :
    '\n' ∉ front ∧ atStart = false ∧ token = ⟨.endOfLine, ⟨file, line⟩⟩ ∧
      after = ⟨marker, line + 1, true, closed, behind⟩ ∧
      next file ⟨marker, line, false, closed, front ++ '\n' :: other⟩ =
        .ok (⟨.endOfLine, ⟨file, line⟩⟩, ⟨marker, line + 1, true, closed, other⟩) := by
  generalize whole : front ++ '\n' :: behind = text at success
  cases next_of_call success with
  | indentation => cases starts
  | close => cases starts
  | lexeme => cases starts
  | lineEnd skipped =>
    subst whole
    dsimp only at remains
    subst remains
    rw [skipGap_lineEnd, Option.map_eq_some_iff] at skipped
    obtain ⟨gapped, skipped, cut⟩ := skipped
    obtain rfl : gapped = [] := by simpa using cut
    obtain ⟨gap, same, isGap⟩ := exists_gap_of_skipGap skipped
    rw [List.append_nil] at same
    refine ⟨same ▸ isGap.not_mem_lineEnd, rfl, rfl, rfl, ?_⟩
    rw [next_inLine, skipGap_lineEnd, skipped, Option.map_some, List.nil_append, nextInLine,
      if_pos rfl]

/-- Before calls that lead up to the end of a line the line end is still in the text. -/
theorem Passes.exists_front {file : String} {cursor before after : Cursor} {tokens : List Token}
    {token : Token} (passes : Passes file cursor tokens before)
    (ends : next file before = .ok (token, after)) (starts : after.atStart = true) :
    ∃ front, cursor.text = front ++ '\n' :: after.text := by
  induction passes with
  | done =>
    cases next_of_call ends with
    | indentation | close | lexeme => cases starts
    | lineEnd skipped =>
      obtain ⟨gap, cut, -⟩ := exists_gap_of_skipGap skipped
      exact ⟨gap, cut⟩
  | called first _ inductionHypothesis =>
    obtain ⟨span, cut, -, -⟩ := exists_of_next first
    obtain ⟨front, behind⟩ := inductionHypothesis ends
    refine ⟨span ++ front, ?_⟩
    rw [cut, behind, List.append_assoc]

/-- Only the end of the text is the end of the file. -/
theorem goesOn_of_next {file : String} {cursor after : Cursor} {token : Token}
    (success : next file cursor = .ok (token, after)) (remains : after.text ≠ []) :
    token.lexeme ≠ .endOfFile := by
  cases next_of_call success with
  | indentation => exact nofun
  | close => exact absurd rfl remains
  | lineEnd => exact nofun
  | lexeme _ _ taking => exact ne_endOfFile_of_take taking

end Cut

end Lexer

end Offside
