/-
This file shows that a line without tokens does not matter: if an empty line or a comment
is added behind an end of a line, the program is the same, and what comes after stands one
line further down. That holds inside of brackets, between a header and its body, and
between any two statements.

The two texts are read side by side. Up to the end of the line the reader is in the same
state with both, since it does not look behind the line end. Then it gives the two tokens
of the added line from one of them. From there on both readers have the same text before
them, and only the line differs; so they come to the same tokens, or both to a fault.
-/

import Offside.Proofs.Lexing.Locality
import Offside.Proofs.Moving.Blocks
import Offside.Proofs.Terminals.Program

namespace Offside

/-- What stands behind the given line is one line further down. -/
def Location.downAfter (last : Nat) (location : Location) : Location :=
  if location.line ≤ last then location else location.next

/-! ### Streams that are read side by side -/

/-- Both streams break off in a fault, or the second is the first one spread. -/
inductive Stream.SideBySide (move : Location → Location) (first second : Stream) : Prop where
  | faulty (fault : first.fault?.isSome = true) (faultToo : second.fault?.isSome = true)
  | spread (related : Stream.Spread move first second)

namespace Stream.SideBySide

variable {move : Location → Location} {first second : Stream}

theorem token (head : Token) (others : SideBySide move first second) :
    SideBySide move (.token head first) (.token (head.relocate move) second) := by
  cases others with
  | faulty fault faultToo => exact .faulty fault faultToo
  | spread related => exact .spread (.token head related)

theorem blank (location indented closed : Location) (others : SideBySide move first second) :
    SideBySide move (.token ⟨.endOfLine, location⟩ first)
      (.token ⟨.endOfLine, move location⟩
        (.token ⟨.indentation "", indented⟩ (.token ⟨.endOfLine, closed⟩ second))) := by
  cases others with
  | faulty fault faultToo => exact .faulty fault faultToo
  | spread related => exact .spread (.blank location indented closed related)

end Stream.SideBySide

namespace Lexer

/-! ### The same text further down -/

/-- The same state one line further down. -/
def Cursor.down (cursor : Cursor) : Cursor :=
  { cursor with line := cursor.line + 1 }

theorem readString_down {quotes : Quotes} (isQuote : IsQuote quotes.delimiter)
    (opened line : Nat) (value text : List Char) :
    Parallel (fun read => (read.1, read.2.1 + 1, read.2.2))
      (readString quotes opened line value text)
      (readString quotes (opened + 1) (line + 1) value text) := by
  cases read : readString quotes opened line value text with
  | ok result =>
    obtain ⟨result, lineEnd, after⟩ := result
    obtain ⟨body, decoded, cut, decodes, given, lines⟩ := (readString_eq_ok_iff isQuote).mp read
    rw [Parallel.ok_iff, readString_eq_ok_iff isQuote]
    exact ⟨body, decoded, cut, decodes, given, by rw [lines, Nat.add_right_comm]⟩
  | error error =>
    rw [Parallel.error_iff]
    cases readToo : readString quotes (opened + 1) (line + 1) value text with
    | error other => exact ⟨other, rfl⟩
    | ok result =>
      obtain ⟨result, lineEnd, after⟩ := result
      obtain ⟨body, decoded, cut, decodes, given, -⟩ := (readString_eq_ok_iff isQuote).mp readToo
      have readAlso : readString quotes opened line value text =
          .ok (result, line + body.count '\n', after) :=
        (readString_eq_ok_iff isQuote).mpr ⟨body, decoded, cut, decodes, given, rfl⟩
      rw [read] at readAlso
      cases readAlso

theorem take_down (line : Nat) (c : Char) (rest : List Char) :
    Parallel (fun taken => { taken with line := taken.line + 1 }) (take line c rest)
      (take (line + 1) c rest) := by
  unfold take
  split
  next => exact .error _ _
  split
  next opens =>
    have isQuote : IsQuote (openQuotes c rest).1.delimiter := by
      rw [(openQuotes_eq c rest).1]
      rwa [Bool.or_eq_true, decide_eq_true_eq, decide_eq_true_eq] at opens
    have parallel := readString_down isQuote line line [] (openQuotes c rest).2
    dsimp only
    generalize readString _ line line [] _ = given at parallel ⊢
    generalize readString _ (line + 1) (line + 1) [] _ = givenToo at parallel ⊢
    cases parallel with
    | ok => exact .ok _
    | error => exact .error _ _
  split
  next => exact .ok _
  split
  next =>
    split
    · exact .ok _
    · exact .error _ _
  split
  · exact .ok _
  · exact .error _ _

/-- From the same text one line further down the reader gives the same token there. -/
theorem next_down (file : String) (cursor : Cursor) :
    Parallel (fun read => (read.1.relocate Location.next, read.2.down)) (next file cursor)
      (next file cursor.down) := by
  obtain ⟨marker, line, atStart, closed, text⟩ := cursor
  cases atStart with
  | true =>
    change Parallel _ _ (next file ⟨marker, line + 1, true, closed, text⟩)
    by_cases uniform : isUniform marker (text.takeWhile isIndent) = true
    · rw [next_indentation uniform, next_indentation uniform]
      exact .ok _
    · rw [next_mixed uniform, next_mixed uniform]
      exact .error _ _
  | false =>
    change Parallel _ _ (next file ⟨marker, line + 1, false, closed, text⟩)
    rw [next_inLine, next_inLine]
    obtain _ | _ | ⟨c, rest⟩ := skipGap text
    · exact .error _ _
    · exact .ok _
    · rw [nextInLine, nextInLine]
      split
      · exact .ok _
      · have parallel := take_down line c rest
        generalize take line c rest = given at parallel ⊢
        generalize take (line + 1) c rest = givenToo at parallel ⊢
        cases parallel with
        | ok taken => exact .ok _
        | error => exact .error _ _

section Calls

variable {move : Location → Location} {file : String} {cursor after : Cursor} {token : Token}
  {stream streamToo : Stream}

theorem Reads.eq_failed {error : LexError} (reads : Reads file cursor stream)
    (failure : next file cursor = .error error) : stream = .failed error := by
  cases reads with
  | failed same =>
    rw [failure] at same
    cases same
    rfl
  | ended same | token same =>
    rw [failure] at same
    cases same

theorem Reads.eq_ended (reads : Reads file cursor stream)
    (last : next file cursor = .ok (token, after)) (isEnd : token.lexeme = .endOfFile) :
    stream = .token token .ended := by
  cases reads with
  | failed same =>
    rw [last] at same
    cases same
  | ended same =>
    rw [last] at same
    cases same
    rfl
  | token same goesOn =>
    rw [last] at same
    cases same
    exact absurd isEnd goesOn

/-- The stream starts with the token of the first call, and the others give the rest of it. -/
theorem Reads.cases_called (reads : Reads file cursor stream)
    (first : next file cursor = .ok (token, after)) (goesOn : token.lexeme ≠ .endOfFile) :
    ∃ rest, stream = .token token rest ∧ Reads file after rest := by
  cases reads with
  | failed failure =>
    rw [first] at failure
    cases failure
  | ended same isEnd =>
    rw [first] at same
    cases same
    exact absurd isEnd goesOn
  | token same _ others =>
    rw [first] at same
    cases same
    exact ⟨_, rfl, others⟩

/-- The token of a call stands on the line on which the call starts. -/
theorem relocate_down (success : next file cursor = .ok (token, after))
    (moves : move ⟨file, cursor.line⟩ = ⟨file, cursor.line + 1⟩) :
    token.relocate Location.next = token.relocate move := by
  obtain ⟨-, -, -, stands⟩ := exists_of_next success
  rw [Token.relocate, Token.relocate, stands, moves]
  rfl

/-- The streams of the same text, one of them one line further down. -/
theorem Reads.down (reads : Reads file cursor stream) (readsToo : Reads file cursor.down streamToo)
    (moves : ∀ line, cursor.line ≤ line → move ⟨file, line⟩ = ⟨file, line + 1⟩) :
    Stream.SideBySide move stream streamToo := by
  induction reads generalizing streamToo with
  | @failed cursor error first =>
    have parallel := next_down file cursor
    rw [first, Parallel.error_iff] at parallel
    obtain ⟨other, failure⟩ := parallel
    obtain rfl : streamToo = .failed other := readsToo.eq_failed failure
    exact .faulty rfl rfl
  | @ended cursor after token first isEnd =>
    have parallel := next_down file cursor
    rw [first, Parallel.ok_iff] at parallel
    obtain rfl := readsToo.eq_ended parallel isEnd
    rw [relocate_down first (moves _ (Nat.le_refl _))]
    exact .spread (.token token .ended)
  | @token cursor after token rest first goesOn _ inductionHypothesis =>
    have parallel := next_down file cursor
    rw [first, Parallel.ok_iff] at parallel
    obtain ⟨_, -, lines, -⟩ := exists_of_next first
    obtain ⟨restToo, rfl, othersToo⟩ := readsToo.cases_called parallel goesOn
    rw [relocate_down first (moves _ (Nat.le_refl _))]
    exact (inductionHypothesis othersToo fun line below => moves line (by omega)).token token

end Calls

/-! ### A line without tokens -/

/-- A line without tokens: an empty one, or a comment. -/
inductive IdleLine : List Char → Prop where
  | blank : IdleLine []
  | comment {text : List Char} (inLine : '\n' ∉ text) (noCarriage : '\r' ∉ text) :
      IdleLine ('#' :: text)

theorem IdleLine.skipGap_eq {idle : List Char} (isIdle : IdleLine idle) (behind : List Char) :
    skipGap (idle ++ '\n' :: behind) = some ('\n' :: behind) := by
  have lineEnd : skipGap ('\n' :: behind) = some ('\n' :: behind) := by
    rw [skipGap, if_neg (by decide), if_neg (by decide)]
  cases isIdle with
  | blank => exact lineEnd
  | @comment text inLine noCarriage =>
    have all : ∀ c ∈ text, (c ≠ '\n' && c ≠ '\r') = true := by
      intro c inside
      simp only [ne_eq, Bool.and_eq_true, decide_eq_true_eq]
      exact ⟨fun same => inLine (same ▸ inside), fun same => noCarriage (same ▸ inside)⟩
    have rest : afterComment (text ++ '\n' :: behind) = '\n' :: behind := by
      rw [afterComment, List.dropWhile_append_of_pos all]
      rfl
    rw [List.cons_append, skipGap, if_neg (by decide), if_pos rfl, rest, if_neg (by simp), lineEnd]

/-- Such a line gives its empty indentation and its end, and its text makes no difference behind
it. -/
theorem IdleLine.cases_reads {idle behind : List Char} (isIdle : IdleLine idle) {file : String}
    {marker : Option Char} {line : Nat} {closed : Bool} {stream : Stream}
    (reads : Reads file ⟨marker, line, true, closed, idle ++ '\n' :: behind⟩ stream) :
    ∃ rest,
      stream = .token ⟨.indentation "", ⟨file, line⟩⟩ (.token ⟨.endOfLine, ⟨file, line⟩⟩ rest) ∧
        Reads file ⟨marker, line + 1, true, closed, behind⟩ rest := by
  have unindented : (idle ++ '\n' :: behind).takeWhile isIndent = [] ∧
      (idle ++ '\n' :: behind).dropWhile isIndent = idle ++ '\n' :: behind := by
    cases isIdle <;> exact ⟨rfl, rfl⟩
  have sameMarker : markerAfter marker [] = marker := by
    cases marker <;> rfl
  have starts : next file ⟨marker, line, true, closed, idle ++ '\n' :: behind⟩ = _ :=
    next_indentation (by rw [unindented.1]; rfl)
  rw [unindented.1, unindented.2, sameMarker] at starts
  have ends : next file ⟨marker, line, false, closed, idle ++ '\n' :: behind⟩ =
      .ok (⟨.endOfLine, ⟨file, line⟩⟩, ⟨marker, line + 1, true, closed, behind⟩) := by
    rw [next_inLine, isIdle.skipGap_eq, nextInLine, if_pos rfl]
  obtain ⟨middle, rfl, readsMiddle⟩ := reads.cases_called starts (by simp)
  obtain ⟨rest, rfl, readsRest⟩ := readsMiddle.cases_called ends (by simp)
  exact ⟨rest, rfl, readsRest⟩

/-! ### The two texts -/

/-- The line end between two texts is read as the end of a line: some calls lead up to it, and the
next one uses up the text to the start of the second text, where a line starts. -/
def EndsLine (file : String) (before behind : List Char) : Prop :=
  ∃ tokens cursor place after,
    Passes file (.start (before ++ '\n' :: behind)) tokens cursor ∧
      next file cursor = .ok (⟨.endOfLine, place⟩, after) ∧
        after.atStart = true ∧ after.text = behind

section Adding

variable {file : String} {behind idle front : List Char} {marker : Option Char} {line : Nat}
  {atStart closed : Bool} {after : Cursor} {token : Token} {stream streamToo : Stream}

/-- The streams of the two texts from the call that uses up the line end: one of them goes on with
the added line, and then both have the same text before them. -/
theorem sideBySide_atLineEnd (isIdle : IdleLine idle)
    (ends : next file ⟨marker, line, atStart, closed, front ++ '\n' :: behind⟩ =
      .ok (token, after)) (starts : after.atStart = true) (remains : after.text = behind)
    (reads : Reads file ⟨marker, line, atStart, closed, front ++ '\n' :: behind⟩ stream)
    (readsToo : Reads file
      ⟨marker, line, atStart, closed, front ++ '\n' :: (idle ++ '\n' :: behind)⟩ streamToo) :
    Stream.SideBySide (Location.downAfter (line + front.count '\n')) stream streamToo := by
  obtain ⟨inLine, rfl, rfl, rfl, endsToo⟩ :=
    next_atLineEnd ends starts remains (idle ++ '\n' :: behind)
  obtain ⟨rest, rfl, others⟩ := reads.cases_called ends (by simp)
  obtain ⟨restToo, rfl, readsIdle⟩ := readsToo.cases_called endsToo (by simp)
  obtain ⟨moved, rfl, othersToo⟩ := isIdle.cases_reads readsIdle
  rw [List.count_eq_zero.mpr inLine, Nat.add_zero]
  have kept : Location.downAfter line ⟨file, line⟩ = ⟨file, line⟩ := if_pos (Nat.le_refl _)
  have further : Stream.SideBySide (Location.downAfter line) rest moved :=
    others.down othersToo fun below isBelow => if_neg (Nat.not_le_of_lt isBelow)
  have added := further.blank ⟨file, line⟩ ⟨file, line + 1⟩ ⟨file, line + 1⟩
  rwa [kept] at added

/-- A call that leaves the line end in the text gives the same token from both texts, and its line
is not below the line end. -/
theorem sideBySide_beforeLineEnd {left : List Char}
    (first : next file ⟨marker, line, atStart, closed, front ++ '\n' :: behind⟩ =
      .ok (token, after)) (remains : after.text = left ++ '\n' :: behind)
    (reads : Reads file ⟨marker, line, atStart, closed, front ++ '\n' :: behind⟩ stream)
    (readsToo : Reads file
      ⟨marker, line, atStart, closed, front ++ '\n' :: (idle ++ '\n' :: behind)⟩ streamToo)
    (others : ∀ rest moved, Reads file after rest →
      Reads file { after with text := left ++ '\n' :: (idle ++ '\n' :: behind) } moved →
      Stream.SideBySide (Location.downAfter (after.line + left.count '\n')) rest moved) :
    Stream.SideBySide (Location.downAfter (line + front.count '\n')) stream streamToo := by
  obtain ⟨span, cut, lines, stands⟩ := exists_of_next first
  rw [remains, ← List.append_assoc, List.append_left_inj] at cut
  have goesOn := goesOn_of_next first (by rw [remains]; simp)
  have firstToo := next_lineEnd first remains (idle ++ '\n' :: behind)
  obtain ⟨rest, rfl, readsRest⟩ := reads.cases_called first goesOn
  obtain ⟨moved, rfl, readsMoved⟩ := readsToo.cases_called firstToo goesOn
  have sameLine : after.line + left.count '\n' = line + front.count '\n' := by
    rw [lines, cut, Nat.add_assoc, ← List.count_append]
  have kept : token.relocate (Location.downAfter (line + front.count '\n')) = token := by
    rw [Token.relocate, Location.downAfter, stands, if_pos (Nat.le_add_right _ _), ← stands]
  have added := (others rest moved readsRest readsMoved).token token
  rwa [sameLine, kept] at added

/-- The streams of the two texts from any state before the line end on. -/
theorem sideBySide_of_passes (isIdle : IdleLine idle) {cursor before : Cursor}
    {tokens : List Token} (passes : Passes file cursor tokens before)
    (ends : next file before = .ok (token, after)) (starts : after.atStart = true)
    (remains : after.text = behind) (text : cursor.text = front ++ '\n' :: behind)
    (reads : Reads file cursor stream)
    (readsToo : Reads file { cursor with text := front ++ '\n' :: (idle ++ '\n' :: behind) }
      streamToo) :
    Stream.SideBySide (Location.downAfter (cursor.line + front.count '\n')) stream streamToo := by
  induction passes generalizing front stream streamToo with
  | @done cursor =>
    obtain ⟨marker, line, atStart, closed, _⟩ := cursor
    obtain rfl := text
    exact sideBySide_atLineEnd isIdle ends starts remains reads readsToo
  | @called cursor middle before token tokens first others inductionHypothesis =>
    obtain ⟨left, textMiddle⟩ := others.exists_front ends starts
    rw [remains] at textMiddle
    obtain ⟨marker, line, atStart, closed, _⟩ := cursor
    obtain rfl := text
    exact sideBySide_beforeLineEnd first textMiddle reads readsToo fun rest moved =>
      inductionHypothesis ends textMiddle

end Adding

/-- Adding a line without tokens behind an end of a line spreads the stream, if it has no fault. -/
theorem sideBySide_stream {file before behind idle : String}
    (ends : EndsLine file before.toList behind.toList) (isIdle : IdleLine idle.toList) :
    Stream.SideBySide (Location.downAfter (1 + before.toList.count '\n'))
      (stream file (before ++ "\n" ++ behind))
      (stream file (before ++ "\n" ++ idle ++ "\n" ++ behind)) := by
  obtain ⟨tokens, cursor, place, after, passes, ended, starts, remains⟩ := ends
  have reads := reads_stream file (before ++ "\n" ++ behind)
  have readsToo := reads_stream file (before ++ "\n" ++ idle ++ "\n" ++ behind)
  have text : (before ++ "\n" ++ behind).toList = before.toList ++ '\n' :: behind.toList := by
    simp
  have textToo : (before ++ "\n" ++ idle ++ "\n" ++ behind).toList =
      before.toList ++ '\n' :: (idle.toList ++ '\n' :: behind.toList) := by
    simp
  rw [text] at reads
  rw [textToo] at readsToo
  exact sideBySide_of_passes isIdle passes ended starts remains rfl reads readsToo

end Lexer

/-! ### The two programs -/

/-- A text with a fault in its characters is no program. -/
theorem Program.parse_faulty {file text : String}
    (faulty : (Lexer.stream file text).fault?.isSome = true) :
    (Program.parse file text).toOption = none := by
  unfold Program.parse
  split
  next => rfl
  next lines read =>
    have noFault := (Line.terminals_of_readAll read (Lexer.closed_stream file text)).1
    rw [noFault] at faulty
    cases faulty

/-- A line without tokens can be added behind any end of a line. The longer text is a program if the
shorter one is, and the programs are the same but for the places of what comes after, which are one
line further down. -/
theorem Program.parse_idleLine {file before behind idle : String}
    (ends : Lexer.EndsLine file before.toList behind.toList)
    (isIdle : Lexer.IdleLine idle.toList) :
    (Program.parse file (before ++ "\n" ++ idle ++ "\n" ++ behind)).toOption =
      (Program.parse file (before ++ "\n" ++ behind)).toOption.map
        (Program.relocate (Location.downAfter (1 + before.toList.count '\n'))) := by
  cases Lexer.sideBySide_stream ends isIdle with
  | faulty fault faultToo =>
    rw [Program.parse_faulty fault, Program.parse_faulty faultToo]
    rfl
  | spread related =>
    have still : Location.downAfter (1 + before.toList.count '\n') default = default :=
      if_pos (Nat.zero_le _)
    have parallel := Program.parse_parallel still related
    generalize Program.parse file (before ++ "\n" ++ behind) = given at parallel ⊢
    generalize Program.parse file (before ++ "\n" ++ idle ++ "\n" ++ behind) = givenToo
      at parallel ⊢
    cases parallel with
    | ok => rfl
    | error => rfl

/-- A comment between a header and its body moves what comes after, up to the last line. -/
theorem Program.parse_comment_in_try :
    Lexer.EndsLine "main" "try:".toList "\tpass\nfinally:\n\tpass".toList ∧
      Lexer.IdleLine "# why".toList ∧
      (Program.parse "main" ("try:" ++ "\n" ++ "\tpass\nfinally:\n\tpass")).toOption =
        some [.attempt ⟨"main", 1⟩ [.simple ⟨"main", 2⟩ .pass] [] none
          (some [.simple ⟨"main", 4⟩ .pass])] ∧
      (Program.parse "main"
          ("try:" ++ "\n" ++ "# why" ++ "\n" ++ "\tpass\nfinally:\n\tpass")).toOption =
        some [.attempt ⟨"main", 1⟩ [.simple ⟨"main", 3⟩ .pass] [] none
          (some [.simple ⟨"main", 5⟩ .pass])] := by
  have isIdle : Lexer.IdleLine "# why".toList := .comment (by decide) (by decide)
  have ends : Lexer.EndsLine "main" "try:".toList "\tpass\nfinally:\n\tpass".toList := by
    let behind := '\n' :: "\tpass\nfinally:\n\tpass".toList
    have start : Lexer.next "main" (.start ("try:".toList ++ behind)) =
        .ok (⟨.indentation "", ⟨"main", 1⟩⟩, ⟨none, 1, false, false, "try:".toList ++ behind⟩) := by
      cbv
    have header : Lexer.next "main" ⟨none, 1, false, false, "try:".toList ++ behind⟩ =
        .ok (⟨.keyword .tryWord, ⟨"main", 1⟩⟩, ⟨none, 1, false, false, ":".toList ++ behind⟩) := by
      cbv
    have colon : Lexer.next "main" ⟨none, 1, false, false, ":".toList ++ behind⟩ =
        .ok (⟨.symbol .colon, ⟨"main", 1⟩⟩, ⟨none, 1, false, false, behind⟩) := by
      cbv
    have ended : Lexer.next "main" ⟨none, 1, false, false, behind⟩ =
        .ok (⟨.endOfLine, ⟨"main", 1⟩⟩, ⟨none, 2, true, false, behind.tail⟩) := by
      cbv
    exact ⟨_, _, _, _, .called start (.called header (.called colon .done)), ended, rfl, rfl⟩
  have parsed :
      (Program.parse "main" ("try:" ++ "\n" ++ "\tpass\nfinally:\n\tpass")).toOption =
        some [.attempt ⟨"main", 1⟩ [.simple ⟨"main", 2⟩ .pass] [] none
          (some [.simple ⟨"main", 4⟩ .pass])] := by
    cbv
  refine ⟨ends, isIdle, parsed, ?_⟩
  rw [Program.parse_idleLine ends isIdle, parsed]
  cbv

end Offside
