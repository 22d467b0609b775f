/-
This file shows that the line numbers of tokens are exact. A token stands on the line that
its first character stands on: its number is one more than the number of line breaks before
that character. A token that takes up nothing has a place in the text as well.

One call of the reader takes a gap and a span from the text and goes down as many lines as
end in the span, because no gap goes over the end of a line. So after any number of calls
the reader is on the line of the place that it has come to. Nothing is said about the text
behind that place. A string over several lines moves the reader like any other token, and
a fault further on changes nothing.
-/

import Offside.Proofs.Lexing.Steps
import Offside.Proofs.Lines
import Offside.Value.World

namespace Offside

namespace Lexer

/-! ### What a call takes from the text -/

/-- What a token takes up of the text: the characters in which it is written, or nothing where the
text is used up. -/
inductive TakesUp : Lexeme → List Char → List Char → Prop where
  | written {lexeme : Lexeme} {span rest : List Char} (writtenAs : WrittenAs lexeme span rest) :
      TakesUp lexeme span rest
  | lastLineEnd : TakesUp .endOfLine [] []
  | endOfFile : TakesUp .endOfFile [] []

/-- The call takes this gap and this span from the text, and the token stands where it starts. -/
structure Takes (file : String) (cursor : Cursor) (gap span : List Char) (token : Token)
    (after : Cursor) : Prop where
  cut : cursor.text = gap ++ (span ++ after.text)
  isGap : Gap gap (span ++ after.text)
  /-- An indentation is the very start of its line. -/
  flush : token.kind = .indentation → gap = []
  takesUp : TakesUp token.lexeme span after.text
  location : token.location = ⟨file, cursor.line⟩
  line : after.line = cursor.line + span.count '\n'

theorem skipGap_stopped {text : List Char} (stops : ∀ c ∈ text.head?, c = '\n') :
    skipGap text = some text := by
  cases text with
  | nil => rw [skipGap]
  | cons c rest =>
    obtain rfl := stops c rfl
    rw [skipGap, if_neg (by decide), if_neg (by decide)]

/-- What is skipped is a gap. -/
theorem exists_gap_of_skipGap {text rest : List Char} (skipped : skipGap text = some rest) :
    ∃ gap, text = gap ++ rest ∧ Gap gap rest := by
  fun_induction skipGap text with
  | case1 =>
    cases skipped
    exact ⟨[], rfl, .none⟩
  | case2 c text isBlank inductionHypothesis =>
    obtain ⟨gap, rfl, isGap⟩ := inductionHypothesis skipped
    exact ⟨c :: gap, rfl, .blank isBlank isGap⟩
  | case3 => cases skipped
  | case4 text noCarriage =>
    have stops := head_afterComment noCarriage
    rw [skipGap_stopped stops] at skipped
    cases skipped
    refine ⟨'#' :: text.takeWhile fun c => c ≠ '\n' && c ≠ '\r', ?_, ?_⟩
    · rw [List.cons_append, comment_append_afterComment]
    · exact .comment (not_mem_comment text (.inl rfl)) (not_mem_comment text (.inr rfl)) stops
  | case5 =>
    cases skipped
    exact ⟨[], rfl, .none⟩

/-- Every call takes a gap and a span. -/
theorem exists_takes {file : String} {cursor after : Cursor} {token : Token}
    (success : next file cursor = .ok (token, after)) :
    ∃ gap span, Takes file cursor gap span token after := by
  cases next_of_call success with
  | @indentation marker line closed text =>
    have blank : ∀ c ∈ text.takeWhile isIndent, isIndent c = true := fun _ => List.mem_takeWhile_imp
    refine ⟨[], text.takeWhile isIndent, List.takeWhile_append_dropWhile.symm, .none, fun _ => rfl,
      .written (written_indentation blank), rfl, ?_⟩
    rw [count_lineEnd rfl blank, Nat.add_zero]
  | @close marker line closed text skipped =>
    obtain ⟨gap, cut, isGap⟩ := exists_gap_of_skipGap skipped
    refine ⟨gap, [], cut, isGap, ?_, ?_, rfl, rfl⟩
    · cases closed <;> exact nofun
    · cases closed
      · exact .lastLineEnd
      · exact .endOfFile
  | @lineEnd marker line closed text rest skipped =>
    obtain ⟨gap, cut, isGap⟩ := exists_gap_of_skipGap skipped
    exact ⟨gap, ['\n'], cut, isGap, nofun, .written (written_lineEnd rest), rfl, rfl⟩
  | @lexeme marker line closed text rest c taken skipped inLine taking =>
    obtain ⟨gap, cut, isGap⟩ := exists_gap_of_skipGap skipped
    obtain ⟨span, -, whole, spells, lines⟩ := spells_of_take taking
    rw [whole] at cut isGap
    refine ⟨gap, span, cut, isGap, fun isIndentation => ?_, .written spells.writtenAs, rfl, lines⟩
    exact absurd isIndentation fun kind => spells.kind (by simp [← kind, Token.kind])

/-! ### Tokens in their places -/

/-- A token with the text before its first character, and the text from there on. -/
structure Placed where
  before : List Char
  behind : List Char
  token : Token

/-- Tokens lie one behind the other, with nothing but gaps between them, in a text that has another
one before it. Behind the last token the given part of the text is left, which may hold a fault. -/
inductive LieIn : List Char → List Char → List Placed → List Char → Prop where
  | done {before text : List Char} : LieIn before text [] text
  | token {before gap span rest left : List Char} {token : Token} {others : List Placed}
      (isGap : Gap gap (span ++ rest)) (flush : token.kind = .indentation → gap = [])
      (takesUp : TakesUp token.lexeme span rest)
      (further : LieIn (before ++ gap ++ span) rest others left) :
      LieIn before (gap ++ (span ++ rest)) (⟨before ++ gap, span ++ rest, token⟩ :: others) left

section Placing

variable {before text left : List Char} {placed : List Placed}

/-- The two parts of the text at a token make up the whole text. -/
theorem LieIn.before_append_behind (lie : LieIn before text placed left) :
    ∀ entry ∈ placed, entry.before ++ entry.behind = before ++ text := by
  induction lie with
  | done => exact List.forall_mem_nil _
  | token _ _ _ _ inductionHypothesis =>
    refine List.forall_mem_cons.mpr ⟨List.append_assoc _ _ _, fun entry inside => ?_⟩
    rw [inductionHypothesis entry inside, List.append_assoc, List.append_assoc]

theorem LieIn.starts (lie : LieIn before text placed left) :
    ∀ entry ∈ placed, before <+: entry.before := by
  induction lie with
  | done => exact List.forall_mem_nil _
  | token _ _ _ _ inductionHypothesis =>
    refine List.forall_mem_cons.mpr ⟨List.prefix_append _ _, fun entry inside => ?_⟩
    have further := inductionHypothesis entry inside
    rw [List.append_assoc] at further
    exact (List.prefix_append _ _).trans further

/-- What stands before a token stands before the later ones too. -/
theorem LieIn.pairwise (lie : LieIn before text placed left) :
    placed.Pairwise fun earlier later => earlier.before <+: later.before := by
  induction lie with
  | done => exact .nil
  | token _ _ _ further inductionHypothesis =>
    refine .cons (fun entry inside => ?_) inductionHypothesis
    exact (List.prefix_append _ _).trans (further.starts entry inside)

/-- Calls in a row that start on the line of their place give tokens that stand on the lines of
theirs. -/
theorem Passes.lieIn {file : String} {cursor last : Cursor} {tokens : List Token}
    (passes : Passes file cursor tokens last) (onLine : cursor.line = 1 + before.count '\n') :
    ∃ placed, placed.map Placed.token = tokens ∧ LieIn before cursor.text placed last.text ∧
      ∀ entry ∈ placed, entry.token.location = ⟨file, 1 + entry.before.count '\n'⟩ := by
  induction passes generalizing before with
  | done => exact ⟨[], rfl, .done, List.forall_mem_nil _⟩
  | @called cursor middle last token tokens first _ inductionHypothesis =>
    obtain ⟨gap, span, takes⟩ := exists_takes first
    have inLine : gap.count '\n' = 0 := List.count_eq_zero.mpr takes.isGap.not_mem_lineEnd
    have onNextLine : middle.line = 1 + (before ++ gap ++ span).count '\n' := by
      rw [List.count_append, List.count_append, takes.line, onLine, inLine]
      omega
    obtain ⟨placed, rfl, lie, located⟩ := inductionHypothesis onNextLine
    refine ⟨⟨before ++ gap, span ++ middle.text, token⟩ :: placed, rfl, ?_, ?_⟩
    · rw [takes.cut]
      exact .token takes.isGap takes.flush takes.takesUp lie
    · refine List.forall_mem_cons.mpr ⟨?_, located⟩
      rw [takes.location, onLine, List.count_append, inLine, Nat.add_zero]

end Placing

/-- The tokens of a stream are those of calls in a row, whether it breaks off or not. -/
theorem Reads.passes {file : String} {cursor : Cursor} {stream : Stream}
    (reads : Reads file cursor stream) : ∃ last, Passes file cursor stream.tokens last := by
  induction reads with
  | failed => exact ⟨_, .done⟩
  | ended first => exact ⟨_, .called first .done⟩
  | token first _ _ inductionHypothesis =>
    obtain ⟨last, others⟩ := inductionHypothesis
    exact ⟨last, .called first others⟩

/-! ### The lines that are kept -/

/-- The line of a place in a text that is kept is found by the number of line breaks before it. -/
theorem sourceLine?_rememberSource (world : World) (file : String) {text : String}
    {before behind : List Char} (cut : before ++ behind = text.toList) :
    (world.rememberSource file text).sourceLine? file (1 + before.count '\n') =
      some (String.ofList (lineAround before behind)) := by
  rw [World.sourceLine?, World.rememberSource, List.lookup_cons_self]
  dsimp only
  rw [if_neg (by omega), Nat.add_sub_cancel_left, splitOn_newline, List.getElem?_map, ← cut,
    getElem?_splitOn]
  rfl

/-- The tokens of a text are those of calls in a row. However many calls are made, also beyond the
end of the file or up to a fault, their tokens lie in the text in order. Each one has the line of
its first character, which is found among the lines of the text, and so no line is less than an
earlier one. -/
theorem line_numbers_exact (file text : String) :
    (∃ last, Passes file (.start text.toList) (stream file text).tokens last) ∧
    ∀ tokens last, Passes file (.start text.toList) tokens last →
      (∃ placed, placed.map Placed.token = tokens ∧ LieIn [] text.toList placed last.text ∧
        ∀ entry ∈ placed, entry.token.location = ⟨file, 1 + entry.before.count '\n'⟩ ∧
          ∀ world : World,
            (world.rememberSource file text).sourceLine? file entry.token.location.line =
              some (String.ofList (lineAround entry.before entry.behind))) ∧
      tokens.Pairwise fun earlier later => earlier.location.line ≤ later.location.line := by
  refine ⟨(reads_stream file text).passes, fun tokens last passes => ?_⟩
  have onFirst : (Cursor.start text.toList).line = 1 + ([] : List Char).count '\n' := rfl
  obtain ⟨placed, rfl, lie, located⟩ := passes.lieIn onFirst
  refine ⟨⟨placed, rfl, lie, fun entry inside => ⟨located entry inside, fun world => ?_⟩⟩, ?_⟩
  · rw [located entry inside]
    exact sourceLine?_rememberSource world file (lie.before_append_behind entry inside)
  · rw [List.pairwise_map]
    refine lie.pairwise.imp_of_mem fun {earlier later} first second starts => ?_
    rw [located earlier first, located later second]
    exact Nat.add_le_add_left (starts.sublist.count_le '\n') 1

/-- A string over two lines, a comment on a line of its own, and a fault behind the last token. -/
theorem line_numbers_up_to_fault :
    ∃ tokens last,
      tokens = [⟨.indentation "", ⟨"main", 1⟩⟩, ⟨.string "a\nb", ⟨"main", 1⟩⟩,
        ⟨.identifier "c", ⟨"main", 2⟩⟩, ⟨.endOfLine, ⟨"main", 2⟩⟩,
        ⟨.indentation "", ⟨"main", 3⟩⟩, ⟨.endOfLine, ⟨"main", 3⟩⟩,
        ⟨.indentation "\t", ⟨"main", 4⟩⟩, ⟨.identifier "e", ⟨"main", 4⟩⟩] ∧
      (stream "main" "'''a\nb''' c\n# d\n\te $").fault? =
        some ⟨.noToken "$", ⟨"main", 4⟩⟩ ∧
      Passes "main" (.start "'''a\nb''' c\n# d\n\te $".toList) tokens last ∧
      (∃ placed, placed.map Placed.token = tokens ∧
        LieIn [] "'''a\nb''' c\n# d\n\te $".toList placed last.text ∧
        ∀ entry ∈ placed, entry.token.location = ⟨"main", 1 + entry.before.count '\n'⟩ ∧
          ∀ world : World,
            (world.rememberSource "main" "'''a\nb''' c\n# d\n\te $").sourceLine? "main"
                entry.token.location.line =
              some (String.ofList (lineAround entry.before entry.behind))) ∧
      tokens.Pairwise fun earlier later => earlier.location.line ≤ later.location.line := by
  obtain ⟨⟨last, passes⟩, lines⟩ := line_numbers_exact "main" "'''a\nb''' c\n# d\n\te $"
  exact ⟨_, last, by cbv, by cbv, passes, lines _ last passes⟩

end Lexer

end Offside
