/-
This file says what the tokens of a text look like as a whole. They come in lines: the
indentation of a line, the tokens inside of it, and its end; and behind the last line
comes the end of the file. There is one more line than there are line ends that stand in
no string. Brackets and comments make no difference to that, and neither do blank lines.

Two more things are known of a text that is read. It holds no carriage return: each of the
loops over its characters either stops at one or refuses it. And all its lines are
indented with one blank, the first one that any of them is indented with.
-/

import Offside.Proofs.Lexing.Steps

namespace Offside

namespace Lexer

/-! ### Line ends outside of strings -/

/-- Where the characters of a text stand. -/
inductive Region where
  | code
  | comment
  | literal (quotes : Quotes)

/-- How many line ends stand in no string literal, if the text starts in the given region. A
backslash in a literal passes the character behind it. -/
def openLineEnds (region : Region) (text : List Char) : Nat :=
  match text with
  | [] => 0
  | c :: rest =>
    match region with
    | .code =>
      if c = '\n' then openLineEnds .code rest + 1
      else if c = '#' then openLineEnds .comment rest
      else if c = '\'' || c = '"' then
        openLineEnds (.literal (openQuotes c rest).1) (openQuotes c rest).2
      else openLineEnds .code rest
    | .comment =>
      if c = '\n' then openLineEnds .code rest + 1 else openLineEnds .comment rest
    | .literal quotes =>
      if c = '\\' then openLineEnds (.literal quotes) (rest.drop 1)
      else match _closed : quotes.close? (c :: rest) with
        | some after => openLineEnds .code after
        | none => openLineEnds (.literal quotes) rest
termination_by text.length
decreasing_by
  · simp
  · simp
  · exact Nat.lt_succ_of_le (length_openQuotes _ _)
  · simp
  · simp
  · simp
  · simp only [List.length_drop, List.length_cons]
    omega
  · exact length_of_close? _closed
  · simp

theorem openLineEnds_nil (region : Region) : openLineEnds region [] = 0 := by
  rw [openLineEnds]

theorem openLineEnds_lineEnd (rest : List Char) :
    openLineEnds .code ('\n' :: rest) = openLineEnds .code rest + 1 := by
  rw [openLineEnds, if_pos rfl]

/-- The characters that end a line or are refused, and those that open a comment or a string. -/
def notable : List Char :=
  ['\n', '\r', '#', '\'', '"']

theorem not_mem_notable (part : Char → Bool) (none : notable.all (!part ·) = true)
    {run : List Char} (all : ∀ c ∈ run, part c = true) : ∀ c ∈ run, c ∉ notable := by
  intro c inside listed
  have other := List.all_eq_true.mp none c listed
  rw [all c inside] at other
  cases other

/-- What opens neither a comment nor a string and ends no line is passed. -/
theorem openLineEnds_plain {span : List Char}
    (plain : ∀ c ∈ span, c ∉ notable) (rest : List Char) :
    openLineEnds .code (span ++ rest) = openLineEnds .code rest := by
  induction span with
  | nil => rfl
  | cons c span inductionHypothesis =>
    rw [List.forall_mem_cons] at plain
    obtain ⟨first, others⟩ := plain
    simp only [notable, List.mem_cons, List.not_mem_nil, or_false, not_or] at first
    obtain ⟨lineEnd, -, comment, quotes⟩ := first
    rw [List.cons_append, openLineEnds, if_neg lineEnd, if_neg comment, if_neg (by simp [quotes]),
      inductionHypothesis others]

theorem openLineEnds_comment {body rest : List Char} (inLine : '\n' ∉ body)
    (ends : ∀ c ∈ rest.head?, c = '\n') :
    openLineEnds .comment (body ++ rest) = openLineEnds .code rest := by
  induction body with
  | nil =>
    cases rest with
    | nil => rw [List.append_nil, openLineEnds_nil, openLineEnds_nil]
    | cons c rest =>
      obtain rfl := ends c rfl
      rw [List.nil_append, openLineEnds_lineEnd, openLineEnds, if_pos rfl]
  | cons c body inductionHypothesis =>
    rw [List.mem_cons, not_or] at inLine
    rw [List.cons_append, openLineEnds, if_neg (Ne.symm inLine.1), inductionHypothesis inLine.2]

/-! ### Strings -/

theorem Decodes.length_le {quotes : Quotes} {body value : List Char}
    (decodes : Decodes quotes body value) : quotes.text.toList.length ≤ body.length := by
  induction decodes with
  | closed => exact Nat.le_refl _
  | escape _ _ inductionHypothesis =>
    exact inductionHypothesis.trans (by simp only [List.length_cons]; omega)
  | plain _ _ _ _ _ inductionHypothesis => exact Nat.le_succ_of_le inductionHypothesis

theorem IsQuote.text_eq {quotes : Quotes} (isQuote : IsQuote quotes.delimiter) :
    ∃ others, quotes.text.toList = quotes.delimiter :: others ∧ quotes.delimiter ≠ '\\' := by
  refine ⟨List.replicate (if quotes.triple then 2 else 0) quotes.delimiter, ?_, ?_⟩
  · rw [Quotes.text, String.toList_ofList]
    cases quotes.triple <;> rfl
  · obtain same | same := isQuote <;> rw [same] <;> decide

/-- The closing quotes come last, so what follows the literal cannot complete them before. -/
theorem Decodes.close?_eq_none {quotes : Quotes} {c : Char} {body decoded after : List Char}
    (decodes : Decodes quotes body decoded) (goesOn : ¬quotes.text.toList <+: c :: body) :
    quotes.close? (c :: (body ++ after)) = none := by
  rw [← Option.not_isSome_iff_eq_none, Option.isSome_iff_exists]
  rintro ⟨rest, closed⟩
  have starts : quotes.text.toList <+: (c :: body) ++ after :=
    ⟨rest, (close?_eq_some_iff.mp closed).symm⟩
  have within : quotes.text.toList.length ≤ (c :: body).length :=
    Nat.le_succ_of_le decodes.length_le
  exact goesOn (List.prefix_of_prefix_length_le starts (List.prefix_append _ _) within)

/-- Behind its opening quotes a literal is passed up to the closing ones. -/
theorem openLineEnds_literal {quotes : Quotes} (isQuote : IsQuote quotes.delimiter)
    {body value : List Char} (decodes : Decodes quotes body value) (rest : List Char) :
    openLineEnds (.literal quotes) (body ++ rest) = openLineEnds .code rest := by
  induction decodes with
  | closed =>
    obtain ⟨others, spelled, backslash⟩ := isQuote.text_eq
    have closes : quotes.close? (quotes.text.toList ++ rest) = some rest :=
      close?_eq_some_iff.mpr rfl
    rw [spelled, List.cons_append] at closes ⊢
    rw [openLineEnds, if_neg backslash]
    split
    next after closed =>
      rw [closes] at closed
      cases closed
      rfl
    next opened =>
      rw [closes] at opened
      cases opened
  | escape _ _ inductionHypothesis =>
    rw [List.cons_append, List.cons_append, openLineEnds, if_pos rfl, List.drop_one, List.tail_cons,
      inductionHypothesis]
  | @plain c body _ backslash _ _ goesOn others inductionHypothesis =>
    rw [List.cons_append, openLineEnds, if_neg backslash]
    split
    next after closed =>
      rw [others.close?_eq_none goesOn] at closed
      cases closed
    next => exact inductionHypothesis

/-! ### One token -/

/-- What a word, a number or a sign is made of. -/
theorem notable_or_literal {lexeme : Lexeme} {span rest : List Char}
    (spells : Spells lexeme span rest) :
    (∀ c ∈ span, c ∉ notable) ∨
      ∃ value, lexeme = .string (String.ofList value) ∧ IsStringLiteral span value := by
  cases spells with
  | @word span _ isWord =>
    refine .inl (not_mem_notable Text.isNamePart rfl ?_)
    cases span with
    | nil => cases isWord
    | cons c word =>
      rw [List.forall_mem_cons]
      exact ⟨Text.isNamePart_of_isNameStart isWord.1, isWord.2⟩
  | number isRun => exact .inl (not_mem_notable isNumberPart rfl isRun.2)
  | @sign sign =>
    have none : sign.spelling.toList.all (!notable.contains ·) = true := by cases sign <;> rfl
    refine .inl fun c inside listed => ?_
    have other := List.all_eq_true.mp none c inside
    rw [List.contains_iff_mem.mpr listed] at other
    cases other
  | @string _ value _ isLiteral => exact .inr ⟨value, rfl, isLiteral⟩

/-- A token that is taken ends no line outside of a string. -/
theorem openLineEnds_of_take {line : Nat} {c : Char} {rest : List Char} {taken : Taken}
    (comment : c ≠ '#') (lineEnd : c ≠ '\n') (success : take line c rest = .ok taken) :
    openLineEnds .code (c :: rest) = openLineEnds .code taken.rest := by
  by_cases opens : c = '\'' ∨ c = '"'
  · rw [openLineEnds, if_neg lineEnd, if_neg comment, if_pos (by simp [opens])]
    unfold take at success
    split at success
    next => cases success
    rw [if_pos (by simp [opens])] at success
    dsimp only at success
    split at success
    next value lineAfter after read =>
      cases success
      have isQuote : IsQuote (openQuotes c rest).1.delimiter := by
        rw [(openQuotes_eq c rest).1]
        exact opens
      obtain ⟨body, decoded, cut, decodes, -, -⟩ := decodes_of_readString isQuote read
      rw [cut, openLineEnds_literal isQuote decodes]
    next => cases success
  · obtain ⟨span, nonempty, cut, spells, -⟩ := spells_of_take success
    rw [cut]
    obtain plain | ⟨value, -, quotes, body, isQuote, same, -⟩ := notable_or_literal spells
    · exact openLineEnds_plain plain _
    · obtain ⟨others, spelled, -⟩ := isQuote.text_eq
      rw [same, spelled] at cut
      rw [(List.cons.inj cut).1] at opens
      exact absurd isQuote opens

/-! ### Lines -/

/-- The tokens of a line of the text, from its indentation to its end. -/
structure TextLine where
  indentation : Token
  inner : List Token
  closing : Token
  isIndentation : indentation.kind = .indentation
  isInner : ∀ token ∈ inner, token.kind ∉ [Kind.indentation, .endOfLine, .endOfFile]
  isClosing : closing.kind = .endOfLine

def TextLine.tokens (line : TextLine) : List Token :=
  line.indentation :: (line.inner ++ [line.closing])

/-- The tokens are those of so many lines, and the end of the file is behind them. -/
def InLines (count : Nat) (tokens : List Token) : Prop :=
  ∃ (lines : List TextLine) (last : Token),
    tokens = lines.flatMap TextLine.tokens ++ [last] ∧ last.kind = .endOfFile ∧
      lines.length = count

/-- The tokens are those of a line without its indentation, and of so many lines behind it. -/
def InLinesAfter (count : Nat) (tokens : List Token) : Prop :=
  ∀ indentation : Token, indentation.kind = .indentation →
    InLines (count + 1) (indentation :: tokens)

section Shape

variable {count : Nat} {tokens : List Token}

/-- The last line is closed. -/
theorem inLinesAfter_closed (place : Location) :
    InLinesAfter 0 [⟨.endOfLine, place⟩, ⟨.endOfFile, place⟩] := by
  intro indentation isIndentation
  refine ⟨[⟨indentation, [], ⟨.endOfLine, place⟩, isIndentation, List.forall_mem_nil _, rfl⟩],
    ⟨.endOfFile, place⟩, rfl, rfl, rfl⟩

/-- Before a line that is complete another one ends. -/
theorem InLines.lineEnd (inLines : InLines count tokens) (place : Location) :
    InLinesAfter count (⟨.endOfLine, place⟩ :: tokens) := by
  intro indentation isIndentation
  obtain ⟨lines, last, rfl, isEnd, size⟩ := inLines
  refine ⟨⟨indentation, [], ⟨.endOfLine, place⟩, isIndentation, List.forall_mem_nil _, rfl⟩ ::
    lines, last, rfl, isEnd, ?_⟩
  rw [List.length_cons, size]

/-- A token inside of a line comes before the others. -/
theorem InLinesAfter.cons (inLines : InLinesAfter count tokens) {token : Token}
    (inner : token.kind ∉ [Kind.indentation, .endOfLine, .endOfFile]) :
    InLinesAfter count (token :: tokens) := by
  intro indentation isIndentation
  obtain ⟨lines, last, same, isEnd, size⟩ := inLines indentation isIndentation
  cases lines with
  | nil => cases size
  | cons first others =>
    obtain ⟨_, behind, closing, firstKind, innerKinds, closingKind⟩ := first
    rw [List.flatMap_cons, TextLine.tokens] at same
    obtain ⟨rfl, rfl⟩ := List.cons.inj same
    refine ⟨⟨indentation, token :: behind, closing, isIndentation,
      List.forall_mem_cons.mpr ⟨inner, innerKinds⟩, closingKind⟩ :: others, last, ?_, isEnd, size⟩
    rfl

end Shape

/-- The tokens from the middle of a line on. -/
theorem inLinesAfter_of_scan {file : String} {marker : Option Char} {line : Nat}
    {text : List Char} (success : (scan file marker line text).fault? = none) :
    InLinesAfter (openLineEnds .code text) (scan file marker line text).tokens := by
  -- The cases are the branches of the reader; only a line end makes a new line.
  fun_induction scan file marker line text with
  | case1 marker line =>
    rw [openLineEnds_nil]
    exact inLinesAfter_closed _
  | case2 marker line c rest blank inductionHypothesis =>
    have plain : ∀ d ∈ [c], d ∉ notable := not_mem_notable isIndent rfl (by simp [blank])
    rw [← List.singleton_append, openLineEnds_plain plain]
    exact inductionHypothesis success
  | case3 => cases success
  | case4 marker line rest noCarriage _ inductionHypothesis =>
    have ends := openLineEnds_comment (not_mem_comment rest (.inl rfl))
      (head_afterComment noCarriage)
    rw [comment_append_afterComment] at ends
    rw [openLineEnds, if_neg (by decide), if_pos rfl, ends]
    exact inductionHypothesis success
  | case5 marker line rest _ _ inductionHypothesis =>
    rw [openLineEnds_lineEnd]
    dsimp only [Stream.fault?, Stream.tokens] at success ⊢
    split at success
    next uniform =>
      rw [if_pos uniform]
      have plain : ∀ c ∈ rest.takeWhile isIndent, c ∉ notable :=
        not_mem_notable isIndent rfl fun _ => List.mem_takeWhile_imp
      have inside := inductionHypothesis success
      rw [← openLineEnds_plain plain, List.takeWhile_append_dropWhile] at inside
      exact (inside _ rfl).lineEnd _
    next => cases success
  | case6 marker line c rest _ comment lineEnd taken success' inductionHypothesis =>
    obtain ⟨span, -, -, spells, -⟩ := spells_of_take success'
    rw [openLineEnds_of_take comment lineEnd success']
    exact (inductionHypothesis success).cons spells.kind
  | case7 => cases success

/-- The reader comes to a fault or to the end of the file after finitely many calls, at most twice
as many as the text has characters and a few more, and what they give is the stream of the text.
Without a fault the tokens come in lines, one more than there are line ends that stand in no
string. -/
theorem tokens_in_lines (file text : String) :
    (∃ count ≤ 2 * text.length + 2, IsLast (call file count (.start text.toList))) ∧
    Reads file (.start text.toList) (stream file text) ∧
    ∀ tokens, tokenize file text = .ok tokens →
      InLines (openLineEnds .code text.toList + 1) tokens := by
  refine ⟨?_, reads_stream file text, fun tokens success => ?_⟩
  · obtain ⟨count, within, last⟩ := exists_isLast file (.start text.toList)
    exact ⟨count, within, last⟩
  · unfold tokenize at success
    split at success
    next => cases success
    next noFault =>
      cases success
      unfold stream streamFrom at noFault ⊢
      dsimp only at noFault ⊢
      split at noFault
      next uniform =>
        have plain : ∀ c ∈ text.toList.takeWhile isIndent, c ∉ notable :=
          not_mem_notable isIndent rfl fun _ => List.mem_takeWhile_imp
        have inside := inLinesAfter_of_scan noFault
        rw [← openLineEnds_plain plain, List.takeWhile_append_dropWhile] at inside
        rw [if_pos uniform]
        exact inside _ rfl
      next => cases noFault

/-- An open bracket, a blank line, and a string over two lines: four line ends, one of them in the
string. -/
theorem bracket_and_string_in_lines :
    tokenize "main" "(a\n\n) # '\n\"\"\"b\n\"\"\"" =
        .ok [⟨.indentation "", ⟨"main", 1⟩⟩, ⟨.symbol .openParen, ⟨"main", 1⟩⟩,
          ⟨.identifier "a", ⟨"main", 1⟩⟩, ⟨.endOfLine, ⟨"main", 1⟩⟩,
          ⟨.indentation "", ⟨"main", 2⟩⟩, ⟨.endOfLine, ⟨"main", 2⟩⟩,
          ⟨.indentation "", ⟨"main", 3⟩⟩, ⟨.symbol .closeParen, ⟨"main", 3⟩⟩,
          ⟨.endOfLine, ⟨"main", 3⟩⟩,
          ⟨.indentation "", ⟨"main", 4⟩⟩, ⟨.string "b\n", ⟨"main", 4⟩⟩, ⟨.endOfLine, ⟨"main", 5⟩⟩,
          ⟨.endOfFile, ⟨"main", 5⟩⟩] ∧
      InLines 4
        [⟨.indentation "", ⟨"main", 1⟩⟩, ⟨.symbol .openParen, ⟨"main", 1⟩⟩,
          ⟨.identifier "a", ⟨"main", 1⟩⟩, ⟨.endOfLine, ⟨"main", 1⟩⟩,
          ⟨.indentation "", ⟨"main", 2⟩⟩, ⟨.endOfLine, ⟨"main", 2⟩⟩,
          ⟨.indentation "", ⟨"main", 3⟩⟩, ⟨.symbol .closeParen, ⟨"main", 3⟩⟩,
          ⟨.endOfLine, ⟨"main", 3⟩⟩,
          ⟨.indentation "", ⟨"main", 4⟩⟩, ⟨.string "b\n", ⟨"main", 4⟩⟩, ⟨.endOfLine, ⟨"main", 5⟩⟩,
          ⟨.endOfFile, ⟨"main", 5⟩⟩] := by
  have count : openLineEnds .code "(a\n\n) # '\n\"\"\"b\n\"\"\"".toList + 1 = 4 := by cbv
  refine (and_iff_left_of_imp fun success => ?_).mpr (by cbv)
  have inLines := (tokens_in_lines "main" "(a\n\n) # '\n\"\"\"b\n\"\"\"").2.2 _ success
  rwa [count] at inLines

/-! ### Characters of a text that is read -/

theorem Gap.not_mem_carriage {gap rest : List Char} (isGap : Gap gap rest) : '\r' ∉ gap := by
  induction isGap with
  | none => exact List.not_mem_nil
  | blank isBlank _ inductionHypothesis =>
    rw [List.mem_cons, not_or]
    refine ⟨?_, inductionHypothesis⟩
    rintro rfl
    cases isBlank
  | comment _ noCarriage _ =>
    rw [List.mem_cons, not_or]
    exact ⟨by decide, noCarriage⟩

theorem IsQuote.not_mem_carriage {quotes : Quotes} (isQuote : IsQuote quotes.delimiter) :
    '\r' ∉ quotes.text.toList := by
  rw [Quotes.text, String.toList_ofList, List.mem_replicate, not_and]
  rintro - same
  rw [← same] at isQuote
  exact absurd isQuote (by unfold IsQuote; decide)

/-- A string with a carriage return in it must write it as an escape. -/
theorem Decodes.not_mem_carriage {quotes : Quotes} (isQuote : IsQuote quotes.delimiter)
    {body value : List Char} (decodes : Decodes quotes body value) : '\r' ∉ body := by
  induction decodes with
  | closed => exact isQuote.not_mem_carriage
  | escape known _ inductionHypothesis =>
    rw [List.mem_cons, List.mem_cons, not_or, not_or]
    refine ⟨by decide, ?_, inductionHypothesis⟩
    rintro rfl
    cases known
  | plain _ carriage _ _ _ inductionHypothesis =>
    rw [List.mem_cons, not_or]
    exact ⟨carriage.symm, inductionHypothesis⟩

theorem Spells.not_mem_carriage {lexeme : Lexeme} {span rest : List Char}
    (spells : Spells lexeme span rest) : '\r' ∉ span := by
  obtain plain | ⟨value, -, quotes, body, isQuote, rfl, decodes⟩ := notable_or_literal spells
  · exact fun inside => plain _ inside (by decide)
  · rw [List.mem_append, not_or]
    exact ⟨isQuote.not_mem_carriage, decodes.not_mem_carriage isQuote⟩

section Scanning

variable {file : String} {marker : Option Char} {line : Nat} {text : List Char}
  {tokens : List Token}

theorem Scans.not_mem_carriage (scans : Scans file marker line text tokens) : '\r' ∉ text := by
  induction scans with
  | ended isGap => exact isGap.not_mem_carriage
  | lineEnd isGap blank _ _ _ inductionHypothesis =>
    rw [List.mem_append, List.mem_cons, List.mem_append, not_or, not_or, not_or]
    exact ⟨isGap.not_mem_carriage, by decide, fun inside => absurd (blank _ inside) (by decide),
      inductionHypothesis⟩
  | lexeme isGap _ spells _ inductionHypothesis =>
    rw [List.mem_append, List.mem_append, not_or, not_or]
    exact ⟨isGap.not_mem_carriage, spells.not_mem_carriage, inductionHypothesis⟩

/-- The indentation of a line is made of this blank. -/
def IndentsWith (blank : Char) (token : Token) : Prop :=
  token.kind = .indentation → ∀ c ∈ token.lexeme.literal.toList, c = blank

/-- The first blank of a line is the mark behind it, and all others are like it. -/
theorem indentsWith_of_isUniform {blanks : List Char} {blank : Char} {place : Location}
    (uniform : isUniform marker blanks = true) (mark : ∀ c ∈ markerAfter marker blanks, c = blank) :
    IndentsWith blank ⟨.indentation (String.ofList blanks), place⟩ := by
  rintro - c inside
  rw [Lexeme.literal, String.toList_ofList] at inside
  exact mark c (beq_iff_eq.mp (List.all_eq_true.mp uniform c inside))

/-- The mark is a blank. -/
theorem isIndent_markerAfter {blanks : List Char} (blank : ∀ c ∈ blanks, isIndent c = true)
    (mark : ∀ c ∈ marker, isIndent c = true) :
    ∀ c ∈ markerAfter marker blanks, isIndent c = true := by
  cases marker with
  | some => exact mark
  | none =>
    intro c found
    exact blank c (List.mem_of_mem_head? found)

/-- There is one blank for all lines, and if there is a mark already, it is the mark. -/
theorem Scans.exists_blank (scans : Scans file marker line text tokens)
    (mark : ∀ c ∈ marker, isIndent c = true) :
    ∃ blank, isIndent blank = true ∧ (∀ c ∈ marker, c = blank) ∧
      ∀ token ∈ tokens, IndentsWith blank token := by
  induction scans with
  | @ended marker =>
    cases marker with
    | none => exact ⟨' ', rfl, by simp, by simp [IndentsWith, Token.kind, Lexeme.kind]⟩
    | some blank =>
      refine ⟨blank, mark blank rfl, ?_, by simp [IndentsWith, Token.kind, Lexeme.kind]⟩
      intro c found
      exact (Option.mem_some.mp found).symm
  | @lineEnd marker _ _ blanks _ _ _ blanksOnly _ uniform _ inductionHypothesis =>
    obtain ⟨blank, isBlank, same, others⟩ :=
      inductionHypothesis (isIndent_markerAfter blanksOnly mark)
    refine ⟨blank, isBlank, fun c found => same c ?_, ?_⟩
    · rw [Option.mem_def] at found
      rw [markerAfter, found]
      rfl
    · rw [List.forall_mem_cons, List.forall_mem_cons]
      refine ⟨?_, indentsWith_of_isUniform uniform same, others⟩
      simp [IndentsWith, Token.kind, Lexeme.kind]
  | lexeme _ _ spells _ inductionHypothesis =>
    obtain ⟨blank, isBlank, same, others⟩ := inductionHypothesis mark
    refine ⟨blank, isBlank, same, List.forall_mem_cons.mpr ⟨fun isIndentation => ?_, others⟩⟩
    exact absurd isIndentation fun kind => spells.kind (by simp [← kind, Token.kind])

end Scanning

/-- A text that is read without a fault has no carriage return in it, and its lines are all
indented with spaces or all with tabs. -/
theorem text_without_carriage_one_blank {file text : String} {tokens : List Token}
    (success : tokenize file text = .ok tokens) :
    '\r' ∉ text.toList ∧
      ∃ blank, (blank = ' ' ∨ blank = '\t') ∧ ∀ token ∈ tokens, IndentsWith blank token := by
  obtain ⟨blanks, rest, others, cut, blanksOnly, uniform, scans, rfl⟩ := scans_of_tokenize success
  obtain ⟨blank, isBlank, same, indented⟩ :=
    scans.exists_blank (isIndent_markerAfter blanksOnly nofun)
  refine ⟨?_, blank, ?_, ?_⟩
  · rw [cut, List.mem_append, not_or]
    exact ⟨fun inside => absurd (blanksOnly _ inside) (by decide), scans.not_mem_carriage⟩
  · rwa [isIndent, Bool.or_eq_true, beq_iff_eq, beq_iff_eq] at isBlank
  · exact List.forall_mem_cons.mpr ⟨indentsWith_of_isUniform uniform same, indented⟩

/-- A blank line and a line inside of a bracket are indented like the others, with tabs. -/
theorem tabs_everywhere :
    tokenize "main" "\t\n\t\t(\n\t)" =
        .ok [⟨.indentation "\t", ⟨"main", 1⟩⟩, ⟨.endOfLine, ⟨"main", 1⟩⟩,
          ⟨.indentation "\t\t", ⟨"main", 2⟩⟩, ⟨.symbol .openParen, ⟨"main", 2⟩⟩,
          ⟨.endOfLine, ⟨"main", 2⟩⟩, ⟨.indentation "\t", ⟨"main", 3⟩⟩,
          ⟨.symbol .closeParen, ⟨"main", 3⟩⟩, ⟨.endOfLine, ⟨"main", 3⟩⟩,
          ⟨.endOfFile, ⟨"main", 3⟩⟩] ∧
      '\r' ∉ "\t\n\t\t(\n\t)".toList ∧ ∃ blank, (blank = ' ' ∨ blank = '\t') ∧
        ∀ token ∈ [⟨.indentation "\t", ⟨"main", 1⟩⟩, ⟨.endOfLine, ⟨"main", 1⟩⟩,
          ⟨.indentation "\t\t", ⟨"main", 2⟩⟩, ⟨.symbol .openParen, ⟨"main", 2⟩⟩,
          ⟨.endOfLine, ⟨"main", 2⟩⟩, ⟨.indentation "\t", ⟨"main", 3⟩⟩,
          ⟨.symbol .closeParen, ⟨"main", 3⟩⟩, ⟨.endOfLine, ⟨"main", 3⟩⟩,
          ⟨.endOfFile, ⟨"main", 3⟩⟩], IndentsWith blank token := by
  refine (and_iff_left_of_imp fun success => ?_).mpr (by cbv)
  exact text_without_carriage_one_blank success

end Lexer

end Offside
