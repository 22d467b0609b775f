/-
This file writes tokens as a text again and proves that reading the text gives the tokens
back. A line is written as its indentation and then its tokens with single blanks between
them, each as a message names it; in particular a string is written on one line, with
escapes, however many lines it took up at first. So only the lines of tokens can change.

The argument follows how the first text fell into tokens. A token that has been read is one
that its written form is read as, provided that a blank, a line end or nothing comes next,
and that is what the writing puts there. The indentations are the ones of the first text,
so the mark that the file indents with is the same at every line.
-/

import Offside.Proofs.Lexing.Spans

namespace Offside

namespace Lexer

/-- The lexemes as a text. A lexeme inside of a line is set apart from one before it by a blank, and
the last line has no line end. -/
def render (apart : Bool) : List Lexeme → List Char
  | [] => []
  | lexeme :: rest =>
    match lexeme with
    | .endOfFile => []
    | .endOfLine => if rest = [.endOfFile] then [] else '\n' :: render false rest
    | .indentation blanks => blanks.toList ++ render false rest
    | inner => (if apart then [' '] else []) ++ (inner.display.toList ++ render true rest)

/-! ### One lexeme -/

/-- No longer sign can stand where a shorter one is delimited. -/
theorem symbolAt?_delimited (sign : Symbol) {rest : List Char} (delimited : Delimited rest) :
    symbolAt? (sign.spelling.toList ++ rest) = some sign := by
  have ends : ['='].isPrefixOf rest = false ∧ ['*'].isPrefixOf rest = false := by
    cases rest with
    | nil => exact ⟨rfl, rfl⟩
    | cons next rest =>
      have delimits := delimited next rfl
      have others : next ≠ '=' ∧ next ≠ '*' := by
        constructor <;> rintro rfl <;> exact absurd delimits (by decide)
      simp [List.isPrefixOf, others.1.symm, others.2.symm]
  cases sign
  case less | greater | assign | times =>
    simp [symbolAt?, Symbol.all, Symbol.spelling, List.isPrefixOf, ends.1, ends.2, List.find?]
  all_goals rfl

theorem lexes_sign (sign : Symbol) : Lexes sign.spelling.toList [.symbol sign] := by
  by_cases point : sign = .dot
  · subst point
    refine lexes_run (by decide) ?_ rfl
    intro c found
    rw [List.mem_singleton.mp found]
    rfl
  intro file marker line rest delimited
  have found := symbolAt?_delimited sign delimited
  obtain ⟨c, others, spelled, ⟨blank, plain, noStart⟩, onlyPoint⟩ := sign_head sign
  have noPart : isNumberPart c ≠ true := fun part => point (onlyPoint part).1
  have length : sign.spelling.length = others.length + 1 := by
    rw [← String.length_toList, spelled]
    rfl
  simp only [List.mem_cons, List.not_mem_nil, or_false, not_or] at plain
  obtain ⟨comment, lineEnd, carriage, quotes⟩ := plain
  rw [spelled, List.cons_append] at found ⊢
  have success : take line c (others ++ rest) = .ok ⟨.symbol sign, line, rest⟩ := by
    rw [take, if_neg carriage, if_neg (by simp [quotes]), if_neg (by simp [noStart]),
      if_neg noPart, found]
    dsimp only
    rw [length, Nat.add_sub_cancel, List.drop_left]
  rw [scan_taken blank comment lineEnd success]
  rfl

theorem nameStart_plain {c : Char} (starts : Text.isNameStart c = true) :
    isIndent c = false ∧ c ∉ ['#', '\n', '\r', '\'', '"'] := by
  have others : ∀ other ∈ [' ', '\t', '#', '\n', '\r', '\'', '"'], c ≠ other := by
    intro other found
    rintro rfl
    have noStart : [' ', '\t', '#', '\n', '\r', '\'', '"'].all (!Text.isNameStart ·) = true := rfl
    have contradiction := List.all_eq_true.mp noStart c found
    rw [starts] at contradiction
    cases contradiction
  constructor
  · rw [isIndent, Bool.or_eq_false_iff, beq_eq_false_iff_ne, beq_eq_false_iff_ne]
    exact ⟨others ' ' (by decide), others '\t' (by decide)⟩
  · intro found
    exact others c (List.mem_cons_of_mem _ (List.mem_cons_of_mem _ found)) rfl

theorem display_ofWord (word : String) : (Lexeme.ofWord word).display = word := by
  have literal := literal_ofWord word
  obtain ⟨value, same⟩ | ⟨reserved, same⟩ | same := ofWord_cases word
  all_goals
    rw [same] at literal ⊢
    exact literal

/-- A lexeme that has been read from some text is read from its written form. -/
theorem Spells.lexes_display {lexeme : Lexeme} {span rest : List Char}
    (spells : Spells lexeme span rest) : Lexes lexeme.display.toList [lexeme] := by
  cases spells with
  | word isWord _ =>
    rw [display_ofWord, String.toList_ofList]
    cases span with
    | nil => cases isWord
    | cons c word =>
      obtain ⟨starts, parts⟩ := isWord
      obtain ⟨blank, plain⟩ := nameStart_plain starts
      exact lexes_word blank plain starts (List.all_eq_true.mpr parts)
  | number isRun point single _ =>
    refine String.toList_ofList ▸ lexes_run isRun.1 isRun.2 ?_
    unfold numberLexeme
    split
    next => rfl
    next => rw [if_neg point]
    next none one =>
      exact absurd (Nat.le_one_iff_eq_zero_or_eq_one.mp single) (not_or.mpr ⟨none, one⟩)
  | sign _ => exact lexes_sign _
  | string _ =>
    rw [Lexeme.display, Text.quote, String.toList_ofList, String.toList_ofList]
    exact lexes_quoted _

/-! ### The written text -/

/-- A lexeme inside of a line is written behind the blank that sets it apart. -/
theorem Spells.render_cons {lexeme : Lexeme} {span rest : List Char}
    (spells : Spells lexeme span rest) (apart : Bool) (lexemes : List Lexeme) :
    render apart (lexeme :: lexemes) =
      (if apart then [' '] else []) ++ (lexeme.display.toList ++ render true lexemes) := by
  cases spells with
  | word =>
    obtain ⟨value, same⟩ | ⟨reserved, same⟩ | same := ofWord_cases (String.ofList span) <;>
      rw [same] <;> rfl
  | number => rfl
  | sign => rfl
  | string => rfl

/-- What a lexeme is written as starts with no blank. -/
theorem Spells.display_head {lexeme : Lexeme} {span rest : List Char}
    (spells : Spells lexeme span rest) :
    ∃ c others, lexeme.display.toList = c :: others ∧ isIndent c = false := by
  cases spells with
  | word isWord _ =>
    rw [display_ofWord, String.toList_ofList]
    cases span with
    | nil => cases isWord
    | cons c word => exact ⟨c, word, rfl, (nameStart_plain isWord.1).1⟩
  | number isRun _ _ _ =>
    obtain ⟨c, run, rfl⟩ := List.exists_cons_of_ne_nil isRun.1
    exact ⟨c, run, String.toList_ofList, (numberPart_plain (isRun.2 c List.mem_cons_self)).1⟩
  | @sign sign =>
    obtain ⟨c, others, spelled, plain, -⟩ := sign_head sign
    exact ⟨c, others, spelled, plain.1⟩
  | @string _ value =>
    refine ⟨_, _, String.toList_ofList, ?_⟩
    obtain quote | quote := quoteDelimiter_isQuote (String.ofList value).toList <;>
      rw [quote] <;> rfl

section Written

variable {file : String} {marker : Option Char} {line : Nat} {text : List Char}
  {tokens : List Token}

/-- A lexeme ends where it is set apart from the next one and where its line ends. -/
theorem Scans.delimited_render (scans : Scans file marker line text tokens) :
    Delimited (render true (tokens.map Token.lexeme)) := by
  cases scans with
  | ended => exact delimited_nil
  | lineEnd => exact delimited_cons (by decide)
  | lexeme _ _ spells _ =>
    rw [List.map_cons, spells.render_cons]
    exact delimited_cons (by decide)

/-- No blank is added to an indentation. -/
theorem Scans.render_head (scans : Scans file marker line text tokens) :
    ∀ c ∈ (render false (tokens.map Token.lexeme)).head?, isIndent c = false := by
  intro c found
  cases scans with
  | ended => cases found
  | lineEnd =>
    cases found
    rfl
  | lexeme _ _ spells _ =>
    obtain ⟨first, others, written, noBlank⟩ := spells.display_head
    rw [List.map_cons, spells.render_cons, written] at found
    cases found
    exact noBlank

/-- The lexemes of the written text from the middle of a line on, which has no fault. -/
theorem Scans.scan_render (scans : Scans file marker line text tokens) (other : String)
    (start : Nat) (apart : Bool) :
    (scan other marker start (render apart (tokens.map Token.lexeme))).fault? = none ∧
      (scan other marker start (render apart (tokens.map Token.lexeme))).tokens.map Token.lexeme =
        tokens.map Token.lexeme := by
  induction scans generalizing start apart with
  | ended =>
    change (scan other _ start []).fault? = none ∧ (scan other _ start []).tokens.map _ = _
    rw [scan]
    exact ⟨rfl, rfl⟩
  | @lineEnd marker _ _ blanks _ tokens _ blank _ uniform others inductionHypothesis =>
    obtain ⟨noFault, lexemes⟩ := inductionHypothesis (start + 1) false
    have written : render apart (.endOfLine :: .indentation (String.ofList blanks) ::
        tokens.map Token.lexeme) = '\n' :: (blanks ++ render false (tokens.map Token.lexeme)) := by
      rw [render, if_neg (by simp), render, String.toList_ofList]
    simp only [List.map_cons]
    rw [written, scan, if_neg (by decide), if_neg (by decide), if_pos rfl,
      takeWhile_run blank others.render_head, dropWhile_run blank others.render_head]
    simp only [uniform, if_true, Stream.fault?, Stream.tokens, List.map_cons, lexemes, noFault,
      and_self]
  | @lexeme marker _ _ _ _ lexeme tokens _ _ spells others inductionHypothesis =>
    obtain ⟨noFault, lexemes⟩ := inductionHypothesis start true
    have lexes := spells.lexes_display other marker start _ others.delimited_render
    have written : scan other marker start (render apart (lexeme :: tokens.map Token.lexeme)) =
        scan other marker start
          (lexeme.display.toList ++ render true (tokens.map Token.lexeme)) := by
      rw [spells.render_cons]
      cases apart with
      | true => exact scan_blank rfl
      | false => rfl
    simp only [List.map_cons]
    rw [written, lexes]
    exact ⟨noFault, congrArg (lexeme :: ·) lexemes⟩

end Written

/-- Tokens that have been read are read again from what they are written as. -/
theorem tokenize_render {file source : String} {tokens : List Token}
    (success : tokenize file source = .ok tokens) (other : String) :
    ∃ again, tokenize other (String.ofList (render false (tokens.map Token.lexeme))) = .ok again ∧
      again.map Token.lexeme = tokens.map Token.lexeme := by
  obtain ⟨blanks, rest, others, -, blank, uniform, scans, rfl⟩ := scans_of_tokenize success
  obtain ⟨noFault, lexemes⟩ := scans.scan_render other 1 false
  have written : render false (.indentation (String.ofList blanks) :: others.map Token.lexeme) =
      blanks ++ render false (others.map Token.lexeme) := by
    rw [render, String.toList_ofList]
  have streamed : stream other (String.ofList (blanks ++ render false (others.map Token.lexeme))) =
      .token ⟨.indentation (String.ofList blanks), ⟨other, 1⟩⟩
        (scan other (markerAfter none blanks) 1 (render false (others.map Token.lexeme))) := by
    rw [stream, streamFrom, String.toList_ofList, takeWhile_run blank scans.render_head,
      dropWhile_run blank scans.render_head]
    exact if_pos uniform
  simp only [List.map_cons]
  rw [written, tokenize, streamed]
  simp only [Stream.fault?, Stream.tokens, noFault, Except.ok.injEq, exists_eq_left', List.map_cons,
    lexemes]

/-- An indented line with a string over two lines and a number next to a point. -/
theorem tokenize_render_string :
    tokenize "main" "\t'''a\n'''.5" =
        .ok [⟨.indentation "\t", ⟨"main", 1⟩⟩, ⟨.string "a\n", ⟨"main", 1⟩⟩,
          ⟨.number ".5", ⟨"main", 2⟩⟩, ⟨.endOfLine, ⟨"main", 2⟩⟩, ⟨.endOfFile, ⟨"main", 2⟩⟩] ∧
      ∃ again, tokenize "main" "\t'a\\n' .5" = .ok again ∧
        again.map Token.lexeme =
          [.indentation "\t", .string "a\n", .number ".5", .endOfLine, .endOfFile] := by
  refine (and_iff_left_of_imp fun success => ?_).mpr (by cbv)
  exact tokenize_render success "main"

end Lexer

end Offside
