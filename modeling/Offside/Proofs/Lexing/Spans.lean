/-
This file says how the tokens of a text lie in it. Every token takes up a span of the
text; the spans follow one another, and between two of them, before the first and after
the last one stand blanks and comments only. So nothing of the text is lost, nothing is
made up and nothing changes its place.

Two relations are used. `Scans` follows the reader closely: it has one case for the end
of the text, one for a line end together with the indentation after it, and one for every
other token, and it keeps the indentation mark and the line. `Covers` is the reading that
a user of the tokens wants, in which all tokens are alike, and follows from the first.

A word, a number or a sign never stops early. The argument is the same for all three: a
longer candidate goes on with the character behind the span, and starts with the
character that the span starts with, which decides what kind of token it is.
-/

import Offside.Proofs.Literal.Lexing

namespace Offside

namespace Lexer

/-! ### Words, numbers and signs as texts -/

/-- A letter or an underscore and after it letters, digits and underscores. -/
def IsWord : List Char → Prop
  | [] => False
  | c :: rest => Text.isNameStart c = true ∧ ∀ part ∈ rest, Text.isNamePart part = true

/-- One or more digits and points. -/
def IsNumberRun (text : List Char) : Prop :=
  text ≠ [] ∧ ∀ c ∈ text, isNumberPart c = true

/-- A sign of the table. -/
def IsSign (text : List Char) : Prop :=
  ∃ sign : Symbol, text = sign.spelling.toList

/-- No longer beginning of the text that starts with the span is a word, a run of digits and points
or a sign. -/
def Maximal (span rest : List Char) : Prop :=
  ∀ longer, longer <+: span ++ rest → span.length < longer.length →
    ¬IsWord longer ∧ ¬IsNumberRun longer ∧ ¬IsSign longer

/-- A longer beginning goes on behind the span. -/
theorem exists_of_longer {span rest longer : List Char} (starts : longer <+: span ++ rest)
    (length : span.length < longer.length) :
    ∃ next more, longer = span ++ next :: more ∧ next ∈ rest.head? := by
  obtain ⟨after, same⟩ := starts
  obtain ⟨between, rfl⟩ : span <+: longer :=
    List.prefix_of_prefix_length_le ⟨rest, rfl⟩ ⟨after, same⟩ (Nat.le_of_lt length)
  rw [List.append_assoc] at same
  have behind := List.append_cancel_left same
  cases between with
  | nil => simp at length
  | cons next more =>
    refine ⟨next, more, rfl, ?_⟩
    rw [← behind]
    rfl

/-- What a sign starts with starts nothing else, but for the point. -/
theorem sign_head (sign : Symbol) :
    ∃ c rest, sign.spelling.toList = c :: rest ∧
      (isIndent c = false ∧ c ∉ ['#', '\n', '\r', '\'', '"'] ∧ Text.isNameStart c = false) ∧
      (isNumberPart c = true → sign = .dot ∧ rest = []) := by
  cases sign <;> exact ⟨_, _, rfl, by decide, by decide⟩

theorem word_maximal {c : Char} {word rest : List Char} (starts : Text.isNameStart c = true)
    (ends : ∀ next ∈ rest.head?, Text.isNamePart next = false) : Maximal (c :: word) rest := by
  intro longer isStart length
  obtain ⟨next, more, rfl, found⟩ := exists_of_longer isStart length
  refine ⟨?_, ?_, ?_⟩
  · rintro ⟨-, parts⟩
    have part := parts next (List.mem_append_right word List.mem_cons_self)
    rw [ends next found] at part
    cases part
  · rintro ⟨-, parts⟩
    have noStart := (numberPart_plain (parts c List.mem_cons_self)).2.2
    rw [starts] at noStart
    cases noStart
  · rintro ⟨sign, same⟩
    obtain ⟨first, others, spelled, ⟨-, -, noStart⟩, -⟩ := sign_head sign
    rw [spelled] at same
    obtain ⟨rfl, -⟩ := List.cons.inj same
    rw [starts] at noStart
    cases noStart

theorem number_maximal {c : Char} {run rest : List Char} (part : isNumberPart c = true)
    (ends : ∀ next ∈ rest.head?, isNumberPart next = false) : Maximal (c :: run) rest := by
  intro longer isStart length
  obtain ⟨next, more, rfl, found⟩ := exists_of_longer isStart length
  refine ⟨?_, ?_, ?_⟩
  · rintro ⟨starts, -⟩
    rw [(numberPart_plain part).2.2] at starts
    cases starts
  · rintro ⟨-, parts⟩
    have goesOn := parts next (List.mem_append_right (c :: run) List.mem_cons_self)
    rw [ends next found] at goesOn
    cases goesOn
  · rintro ⟨sign, same⟩
    obtain ⟨first, others, spelled, -, point⟩ := sign_head sign
    rw [spelled] at same
    obtain ⟨rfl, behind⟩ := List.cons.inj same
    rw [(point part).2] at behind
    exact absurd behind (by simp)

/-- The table lists longer signs before shorter ones. -/
theorem all_longest_first :
    Symbol.all.Pairwise fun first second =>
      second.spelling.toList.length ≤ first.spelling.toList.length := by
  decide

theorem mem_all (sign : Symbol) : sign ∈ Symbol.all := by
  cases sign <;> decide

/-- The sign that is found is the longest one that the text starts with. -/
theorem length_le_of_symbolAt? {text : List Char} {sign other : Symbol}
    (found : symbolAt? text = some sign) (starts : other.spelling.toList <+: text) :
    other.spelling.toList.length ≤ sign.spelling.toList.length := by
  obtain ⟨-, before, after, table, missed⟩ := List.find?_eq_some_iff_append.mp found
  have listed := mem_all other
  have ordered := all_longest_first
  rw [table] at listed ordered
  rw [List.mem_append, List.mem_cons] at listed
  obtain early | rfl | late := listed
  · have mismatch := missed other early
    rw [Bool.not_eq_true'] at mismatch
    rw [← List.isPrefixOf_iff_prefix, mismatch] at starts
    cases starts
  · exact Nat.le_refl _
  · exact (List.pairwise_cons.mp (List.pairwise_append.mp ordered).2.1).1 other late

theorem sign_maximal {c : Char} {text rest : List Char} {sign : Symbol}
    (noStart : Text.isNameStart c = false) (noPart : isNumberPart c = false)
    (found : symbolAt? (c :: text) = some sign) (cut : c :: text = sign.spelling.toList ++ rest) :
    Maximal sign.spelling.toList rest := by
  intro longer isStart length
  rw [← cut] at isStart
  have head : ∀ first ∈ longer.head?, first = c := by
    obtain ⟨after, same⟩ := isStart
    intro first isFirst
    cases longer with
    | nil => cases isFirst
    | cons =>
      cases isFirst
      exact (List.cons.inj same).1
  cases longer with
  | nil => simp at length
  | cons first others =>
    obtain rfl := head first rfl
    refine ⟨?_, ?_, ?_⟩
    · rintro ⟨starts, -⟩
      rw [noStart] at starts
      cases starts
    · rintro ⟨-, parts⟩
      have part := parts first List.mem_cons_self
      rw [noPart] at part
      cases part
    · rintro ⟨other, same⟩
      rw [same] at isStart length
      exact absurd (length_le_of_symbolAt? found isStart) (Nat.not_le_of_lt length)

/-! ### String literals -/

/-- What follows the opening quotes, up to and with the closing ones, decodes to a value. -/
inductive Decodes (quotes : Quotes) : List Char → List Char → Prop where
  | closed : Decodes quotes quotes.text.toList []
  | escape {letter decoded : Char} {body value : List Char}
      (known : escape? letter = some decoded) (others : Decodes quotes body value) :
      Decodes quotes ('\\' :: letter :: body) (decoded :: value)
  | plain {c : Char} {body value : List Char} (backslash : c ≠ '\\') (carriage : c ≠ '\r')
      (lineEnd : c = '\n' → quotes.triple = true) (goesOn : ¬quotes.text.toList <+: c :: body)
      (others : Decodes quotes body value) :
      Decodes quotes (c :: body) (c :: value)

/-- A legal string literal and its value. -/
def IsStringLiteral (span value : List Char) : Prop :=
  ∃ (quotes : Quotes) (body : List Char), IsQuote quotes.delimiter ∧
    span = quotes.text.toList ++ body ∧ Decodes quotes body value

theorem close?_eq_some_iff {quotes : Quotes} {text after : List Char} :
    quotes.close? text = some after ↔ text = quotes.text.toList ++ after := by
  obtain ⟨delimiter, triple⟩ := quotes
  rw [Quotes.text, String.toList_ofList]
  cases text with
  | nil => cases triple <;> simp [Quotes.close?]
  | cons c rest =>
    cases triple with
    | false => by_cases same : c = delimiter <;> simp [Quotes.close?, same]
    | true =>
      by_cases same : c = delimiter
      · obtain _ | ⟨second, _ | ⟨third, rest⟩⟩ := rest <;>
          simp [Quotes.close?, same, List.replicate_succ, and_assoc]
      · simp [Quotes.close?, same, List.replicate_succ]

theorem count_lineEnd_quotes {quotes : Quotes} (isQuote : IsQuote quotes.delimiter) :
    quotes.text.toList.count '\n' = 0 := by
  rw [Quotes.text, String.toList_ofList, List.count_replicate]
  obtain same | same := isQuote <;> rw [same] <;> rfl

theorem escape?_ne_lineEnd {letter decoded : Char} (known : escape? letter = some decoded) :
    letter ≠ '\n' := by
  rintro rfl
  cases known

theorem lineAfter_eq (line : Nat) (c : Char) : lineAfter line c = line + [c].count '\n' := by
  unfold lineAfter
  split
  next same => rw [same]; rfl
  next other => rw [List.count_singleton, if_neg (by simp [other])]; rfl

/-- A string that is read is legal up to its closing quotes, and its line ends are counted. -/
theorem decodes_of_readString {quotes : Quotes} {opened line lineEnd : Nat}
    {value text result after : List Char} (isQuote : IsQuote quotes.delimiter)
    (read : readString quotes opened line value text = .ok (result, lineEnd, after)) :
    ∃ body decoded, text = body ++ after ∧ Decodes quotes body decoded ∧
      result = value.reverse ++ decoded ∧ lineEnd = line + body.count '\n' := by
  fun_induction readString quotes opened line value text with
  | case1 => cases read
  | case2 => cases read
  | case3 line value letter rest decoded known inductionHypothesis =>
    obtain ⟨body, others, rfl, decodes, rfl, rfl⟩ := inductionHypothesis read
    refine ⟨'\\' :: letter :: body, decoded :: others, rfl, .escape known decodes, ?_, ?_⟩
    · rw [List.reverse_cons, List.append_assoc]
      rfl
    · rw [List.count_cons_of_ne (by decide), List.count_cons_of_ne (escape?_ne_lineEnd known)]
  | case4 => cases read
  | case5 => cases read
  | case6 line value c rest _ _ _ closing closed =>
    cases read
    refine ⟨quotes.text.toList, [], close?_eq_some_iff.mp closed, .closed, ?_, ?_⟩
    · rw [List.append_nil]
    · rw [count_lineEnd_quotes isQuote, Nat.add_zero]
  | case7 => cases read
  | case8 line value c rest notEscapeAtEnd notEscape carriage goesOn lineEnds inductionHypothesis =>
    obtain ⟨body, others, rfl, decodes, rfl, rfl⟩ := inductionHypothesis read
    have backslash : c ≠ '\\' := by
      rintro rfl
      cases whole : body ++ after with
      | nil => exact notEscapeAtEnd rfl whole
      | cons letter more => exact notEscape letter more rfl whole
    have inTriple : c = '\n' → quotes.triple = true := by
      intro same
      simpa [same] using lineEnds
    have noClosing : ¬quotes.text.toList <+: c :: body := by
      rintro ⟨between, same⟩
      have closes : quotes.close? (c :: (body ++ after)) = some (between ++ after) := by
        rw [close?_eq_some_iff, ← List.append_assoc, same]
        rfl
      rw [goesOn] at closes
      cases closes
    have decodesAll := Decodes.plain backslash carriage inTriple noClosing decodes
    refine ⟨c :: body, c :: others, rfl, decodesAll, ?_, ?_⟩
    · rw [List.reverse_cons, List.append_assoc]
      rfl
    · have cut : (c :: body).count '\n' = [c].count '\n' + body.count '\n' := by
        rw [← List.count_append]
        rfl
      rw [lineAfter_eq, cut, Nat.add_assoc]

theorem openQuotes_eq (delimiter : Char) (text : List Char) :
    (openQuotes delimiter text).1.delimiter = delimiter ∧
      delimiter :: text =
        (openQuotes delimiter text).1.text.toList ++ (openQuotes delimiter text).2 := by
  unfold openQuotes
  split
  next second third rest =>
    split
    next opens =>
      simp only [Bool.and_eq_true, decide_eq_true_eq] at opens
      obtain ⟨rfl, rfl⟩ := opens
      refine ⟨rfl, ?_⟩
      rw [Quotes.text, String.toList_ofList]
      rfl
    next =>
      refine ⟨rfl, ?_⟩
      rw [Quotes.text, String.toList_ofList]
      rfl
  next =>
    refine ⟨rfl, ?_⟩
    rw [Quotes.text, String.toList_ofList]
    rfl

/-! ### One token -/

/-- The lexeme is spelled by the span before the rest of the text. -/
inductive Spells : Lexeme → List Char → List Char → Prop where
  | word {span rest : List Char} (isWord : IsWord span) (maximal : Maximal span rest) :
      Spells (.ofWord (String.ofList span)) span rest
  | number {span rest : List Char} (isRun : IsNumberRun span) (point : span ≠ ['.'])
      (single : span.count '.' ≤ 1) (maximal : Maximal span rest) :
      Spells (.number (String.ofList span)) span rest
  | sign {sign : Symbol} {rest : List Char} (maximal : Maximal sign.spelling.toList rest) :
      Spells (.symbol sign) sign.spelling.toList rest
  | string {span value rest : List Char} (isLiteral : IsStringLiteral span value) :
      Spells (.string (String.ofList value)) span rest

theorem head_dropWhile (part : Char → Bool) (text : List Char) :
    ∀ c ∈ (text.dropWhile part).head?, part c = false := by
  intro c found
  have nonempty : text.dropWhile part ≠ [] := by
    intro none
    rw [none] at found
    cases found
  have head := List.head_dropWhile_not part nonempty
  rw [List.head?_eq_some_head nonempty] at found
  cases found
  exact head

theorem count_lineEnd {part : Char → Bool} {run : List Char} (other : part '\n' = false)
    (all : ∀ c ∈ run, part c = true) : run.count '\n' = 0 := by
  rw [List.count_eq_zero]
  intro found
  rw [all '\n' found] at other
  cases other

theorem forall_mem_run {part : Char → Bool} {c : Char} (first : part c = true) (rest : List Char) :
    ∀ other ∈ c :: rest.takeWhile part, part other = true :=
  List.forall_mem_cons.mpr ⟨first, fun _ => List.mem_takeWhile_imp⟩

/-- What a run of digits and points is. -/
theorem numberLexeme_cases {run : List Char} {lexeme : Lexeme}
    (success : numberLexeme run = .ok lexeme) :
    run = ['.'] ∧ lexeme = .symbol .dot ∨
      run ≠ ['.'] ∧ run.count '.' ≤ 1 ∧ lexeme = .number (String.ofList run) := by
  unfold numberLexeme at success
  split at success
  next none =>
    cases success
    refine .inr ⟨?_, by omega, rfl⟩
    rintro rfl
    exact absurd none (by decide)
  next one =>
    cases success
    split
    next point => exact .inl ⟨point, rfl⟩
    next other => exact .inr ⟨other, by omega, rfl⟩
  next => cases success

/-- A string literal that is read is spelled with its opening quotes. -/
theorem spells_of_readString {line lineEnd : Nat} {c : Char} {rest value after : List Char}
    (isQuote : IsQuote c)
    (read : readString (openQuotes c rest).1 line line [] (openQuotes c rest).2 =
      .ok (value, lineEnd, after)) :
    ∃ span, span ≠ [] ∧ c :: rest = span ++ after ∧
      Spells (.string (String.ofList value)) span after ∧
      lineEnd = line + span.count '\n' := by
  obtain ⟨delimiter, whole⟩ := openQuotes_eq c rest
  have openedBy : IsQuote (openQuotes c rest).1.delimiter := by
    rw [delimiter]
    exact isQuote
  obtain ⟨body, decoded, cut, decodes, rfl, rfl⟩ := decodes_of_readString openedBy read
  rw [cut, ← List.append_assoc] at whole
  refine ⟨(openQuotes c rest).1.text.toList ++ body, ?_, whole, ?_, ?_⟩
  · rintro none
    rw [none] at whole
    have shorter := length_of_readString read
    have opened := length_openQuotes c rest
    have sizes := congrArg List.length whole
    simp only [List.nil_append, List.length_cons] at sizes shorter
    omega
  · exact .string ⟨_, body, openedBy, rfl, decodes⟩
  · rw [List.count_append, count_lineEnd_quotes openedBy, Nat.zero_add]

/-- A run of digits and points that does not go on is a number or a point. -/
theorem spells_of_numberLexeme {c : Char} {rest : List Char} {lexeme : Lexeme}
    (part : isNumberPart c = true)
    (isNumber : numberLexeme (c :: rest.takeWhile isNumberPart) = .ok lexeme) :
    Spells lexeme (c :: rest.takeWhile isNumberPart) (rest.dropWhile isNumberPart) := by
  have maximal : Maximal (c :: rest.takeWhile isNumberPart) (rest.dropWhile isNumberPart) :=
    number_maximal part (head_dropWhile isNumberPart rest)
  obtain ⟨point, rfl⟩ | ⟨point, single, rfl⟩ := numberLexeme_cases isNumber
  · rw [point] at maximal ⊢
    exact .sign maximal
  · exact .number ⟨by simp, forall_mem_run part rest⟩ point single maximal

/-- What is left behind a sign is cut off by its length. -/
theorem append_drop_of_prefix {sign : Symbol} {c : Char} {rest : List Char}
    (starts : sign.spelling.toList <+: c :: rest) :
    c :: rest = sign.spelling.toList ++ rest.drop (sign.spelling.length - 1) := by
  obtain ⟨after, same⟩ := starts
  rw [← same]
  congr 1
  have behind : rest = (sign.spelling.toList ++ after).drop 1 := by
    rw [same]
    rfl
  rw [behind, List.drop_drop]
  cases sign <;> rfl

/-- A lexeme that is taken is spelled by what it is taken from. -/
theorem spells_of_take {line : Nat} {c : Char} {rest : List Char} {taken : Taken}
    (success : take line c rest = .ok taken) :
    ∃ span, span ≠ [] ∧ c :: rest = span ++ taken.rest ∧ Spells taken.lexeme span taken.rest ∧
      taken.line = line + span.count '\n' := by
  unfold take at success
  split at success
  next => cases success
  split at success
  next opens =>
    rw [Bool.or_eq_true, decide_eq_true_eq, decide_eq_true_eq] at opens
    dsimp only at success
    split at success
    next value lineEnd after read =>
      cases success
      exact spells_of_readString opens read
    next => cases success
  split at success
  next starts =>
    cases success
    have ends := head_dropWhile Text.isNamePart rest
    have parts : ∀ part ∈ rest.takeWhile Text.isNamePart, Text.isNamePart part = true :=
      fun _ => List.mem_takeWhile_imp
    have isWord : IsWord (c :: rest.takeWhile Text.isNamePart) := ⟨starts, parts⟩
    have spells := Spells.word isWord (word_maximal starts ends)
    refine ⟨c :: rest.takeWhile Text.isNamePart, by simp, ?_, spells, ?_⟩
    · rw [List.cons_append, List.takeWhile_append_dropWhile]
    · have all := forall_mem_run (Text.isNamePart_of_isNameStart starts) rest
      rw [count_lineEnd rfl all, Nat.add_zero]
  split at success
  next part =>
    split at success
    next lexeme isNumber =>
      cases success
      refine ⟨c :: rest.takeWhile isNumberPart, by simp, ?_,
        spells_of_numberLexeme part isNumber, ?_⟩
      · rw [List.cons_append, List.takeWhile_append_dropWhile]
      · rw [count_lineEnd rfl (forall_mem_run part rest), Nat.add_zero]
    next => cases success
  split at success
  next noStart noPart _ sign found =>
    cases success
    have cut : c :: rest = sign.spelling.toList ++ rest.drop (sign.spelling.length - 1) :=
      append_drop_of_prefix
        (List.isPrefixOf_iff_prefix.mp (List.find?_eq_some_iff_append.mp found).1)
    refine ⟨sign.spelling.toList, by cases sign <;> decide, cut, .sign ?_, ?_⟩
    · exact sign_maximal (by simpa using noStart) (by simpa using noPart) found cut
    · cases sign <;> rfl
  next => cases success

/-! ### Gaps -/

/-- What stands between two tokens: blanks, and a comment if the line or the text ends behind it. -/
inductive Gap : List Char → List Char → Prop where
  | none {rest : List Char} : Gap [] rest
  | blank {c : Char} {gap rest : List Char} (isBlank : isIndent c = true) (others : Gap gap rest) :
      Gap (c :: gap) rest
  | comment {body rest : List Char} (inLine : '\n' ∉ body) (noCarriage : '\r' ∉ body)
      (ends : ∀ c ∈ rest.head?, c = '\n') : Gap ('#' :: body) rest

/-- No gap goes over the end of a line. -/
theorem Gap.not_mem_lineEnd {gap rest : List Char} (isGap : Gap gap rest) : '\n' ∉ gap := by
  induction isGap with
  | none => exact List.not_mem_nil
  | blank isBlank _ inductionHypothesis =>
    rw [List.mem_cons, not_or]
    refine ⟨?_, inductionHypothesis⟩
    rintro rfl
    cases isBlank
  | comment inLine _ _ =>
    rw [List.mem_cons, not_or]
    exact ⟨by decide, inLine⟩

/-! ### The text from the middle of a line on -/

/-- How the rest of a text falls into tokens, the file being indented with the given mark so far. -/
inductive Scans (file : String) : Option Char → Nat → List Char → List Token → Prop where
  | ended {marker : Option Char} {line : Nat} {gap : List Char} (isGap : Gap gap []) :
      Scans file marker line gap [⟨.endOfLine, ⟨file, line⟩⟩, ⟨.endOfFile, ⟨file, line⟩⟩]
  | lineEnd {marker : Option Char} {line : Nat} {gap blanks rest : List Char} {tokens : List Token}
      (isGap : Gap gap ('\n' :: (blanks ++ rest))) (blank : ∀ c ∈ blanks, isIndent c = true)
      (ends : ∀ c ∈ rest.head?, isIndent c = false) (uniform : isUniform marker blanks = true)
      (others : Scans file (markerAfter marker blanks) (line + 1) rest tokens) :
      Scans file marker line (gap ++ '\n' :: (blanks ++ rest))
        (⟨.endOfLine, ⟨file, line⟩⟩ :: ⟨.indentation (String.ofList blanks), ⟨file, line + 1⟩⟩ ::
          tokens)
  | lexeme {marker : Option Char} {line : Nat} {gap span rest : List Char} {lexeme : Lexeme}
      {tokens : List Token} (isGap : Gap gap (span ++ rest)) (nonempty : span ≠ [])
      (spells : Spells lexeme span rest)
      (others : Scans file marker (line + span.count '\n') rest tokens) :
      Scans file marker line (gap ++ (span ++ rest)) (⟨lexeme, ⟨file, line⟩⟩ :: tokens)

section Reading

variable {file : String} {marker : Option Char} {line : Nat} {text : List Char}
  {tokens : List Token}

theorem Scans.blank {c : Char} (isBlank : isIndent c = true)
    (scans : Scans file marker line text tokens) : Scans file marker line (c :: text) tokens := by
  cases scans with
  | ended isGap => exact .ended (.blank isBlank isGap)
  | lineEnd isGap blank ends uniform others =>
    exact .lineEnd (.blank isBlank isGap) blank ends uniform others
  | lexeme isGap nonempty spells others =>
    exact .lexeme (.blank isBlank isGap) nonempty spells others

/-- A comment in front takes the place of the gap, which is empty where a line or the text ends. -/
theorem Scans.comment {body : List Char} (inLine : '\n' ∉ body) (noCarriage : '\r' ∉ body)
    (stops : ∀ c ∈ text.head?, c = '\n') (scans : Scans file marker line text tokens) :
    Scans file marker line ('#' :: (body ++ text)) tokens := by
  have noGap {gap rest : List Char} (isGap : Gap gap rest)
      (stops : ∀ c ∈ (gap ++ rest).head?, c = '\n') : gap = [] := by
    cases gap with
    | nil => rfl
    | cons c gap =>
      have same := stops c rfl
      rw [same] at isGap
      exact absurd List.mem_cons_self isGap.not_mem_lineEnd
  have isGap {rest : List Char} (stops : ∀ c ∈ rest.head?, c = '\n') : Gap ('#' :: body) rest :=
    .comment inLine noCarriage stops
  cases scans with
  | ended noText =>
    obtain rfl := noGap noText (by rwa [List.append_nil])
    rw [List.append_nil]
    exact .ended (isGap stops)
  | lineEnd nothing blank ends uniform others =>
    obtain rfl := noGap nothing stops
    have scans := Scans.lineEnd (isGap stops) blank ends uniform others
    exact scans
  | lexeme nothing nonempty spells others =>
    obtain rfl := noGap nothing stops
    rw [List.nil_append] at stops
    have scans := Scans.lexeme (isGap stops) nonempty spells others
    exact scans

end Reading

theorem not_mem_comment (text : List Char) {stop : Char} (stops : stop = '\n' ∨ stop = '\r') :
    stop ∉ text.takeWhile fun c => c ≠ '\n' && c ≠ '\r' := by
  intro found
  have passed := List.mem_takeWhile_imp found
  obtain rfl | rfl := stops <;> cases passed

/-- A comment without a carriage return ends with its line or with the text. -/
theorem head_afterComment {rest : List Char}
    (noCarriage : ¬ (afterComment rest).head? = some '\r') :
    ∀ c ∈ (afterComment rest).head?, c = '\n' := by
  intro c found
  have stopped := head_dropWhile _ rest c found
  by_contra other
  simp only [ne_eq, other, not_false_eq_true, decide_true, Bool.true_and] at stopped
  rw [decide_eq_false_iff_not, not_not] at stopped
  rw [stopped] at found
  exact noCarriage found

theorem comment_append_afterComment (rest : List Char) :
    (rest.takeWhile fun c => c ≠ '\n' && c ≠ '\r') ++ afterComment rest = rest :=
  List.takeWhile_append_dropWhile

/-- A text that is read without a fault falls into the tokens that are read. -/
theorem scans_of_scan {file : String} {marker : Option Char} {line : Nat} {text : List Char}
    (success : (scan file marker line text).fault? = none) :
    Scans file marker line text (scan file marker line text).tokens := by
  -- The cases are the branches of the reader, so each one gives one constructor.
  fun_induction scan file marker line text with
  | case1 => exact .ended .none
  | case2 marker line c rest isBlank inductionHypothesis =>
    exact (inductionHypothesis success).blank isBlank
  | case3 => cases success
  | case4 marker line rest noCarriage _ inductionHypothesis =>
    have scans := (inductionHypothesis success).comment (not_mem_comment rest (.inl rfl))
      (not_mem_comment rest (.inr rfl)) (head_afterComment noCarriage)
    rwa [comment_append_afterComment] at scans
  | case5 marker line rest _ _ inductionHypothesis =>
    dsimp only [Stream.fault?, Stream.tokens] at success ⊢
    split at success
    next uniform =>
      have blank : ∀ c ∈ rest.takeWhile isIndent, isIndent c = true :=
        fun _ => List.mem_takeWhile_imp
      have scans := Scans.lineEnd .none blank (head_dropWhile isIndent rest) uniform
        (inductionHypothesis success)
      rw [if_pos uniform]
      rwa [List.nil_append, List.takeWhile_append_dropWhile] at scans
    next => cases success
  | case6 marker line c rest _ _ _ taken success' inductionHypothesis =>
    obtain ⟨span, nonempty, cut, spells, lines⟩ := spells_of_take success'
    have others := inductionHypothesis success
    rw [cut]
    rw [lines] at others
    have scans := Scans.lexeme .none nonempty spells others
    rw [← lines] at scans
    exact scans
  | case7 => cases success

/-! ### The whole text -/

/-- How the characters of a token stand in the text before the rest of it. -/
def WrittenAs (lexeme : Lexeme) (span rest : List Char) : Prop :=
  match lexeme with
  | .string value => IsStringLiteral span value.toList
  | .endOfLine => span = ['\n']
  | .indentation blanks => span = blanks.toList ∧ ∀ c ∈ span, isIndent c = true
  | .endOfFile => False
  | other => span = other.literal.toList ∧ Maximal span rest

/-- The text is cut into the spans of the lexemes, with nothing but gaps between them; the two last
lexemes take up nothing. -/
inductive Covers : List Char → List Lexeme → Prop where
  | closed {gap : List Char} (isGap : Gap gap []) : Covers gap [.endOfLine, .endOfFile]
  | lexeme {gap span rest : List Char} {lexeme : Lexeme} {lexemes : List Lexeme}
      (isGap : Gap gap (span ++ rest)) (written : WrittenAs lexeme span rest)
      (others : Covers rest lexemes) :
      Covers (gap ++ (span ++ rest)) (lexeme :: lexemes)

/-- A truth value, a keyword and a name all have the word that they are read from as their text. -/
theorem literal_ofWord (word : String) : (Lexeme.ofWord word).literal = word := by
  unfold Lexeme.ofWord
  split
  next same => exact (beq_iff_eq.mp same).symm
  split
  next same => exact (beq_iff_eq.mp same).symm
  split
  next reserved found => exact beq_iff_eq.mp (List.find?_eq_some_iff_append.mp found).1
  next => rfl

theorem ofWord_cases (word : String) :
    (∃ value, Lexeme.ofWord word = .boolean value) ∨
      (∃ reserved, Lexeme.ofWord word = .keyword reserved) ∨
      Lexeme.ofWord word = .identifier word := by
  unfold Lexeme.ofWord
  split
  · exact .inl ⟨true, rfl⟩
  split
  · exact .inl ⟨false, rfl⟩
  split
  · exact .inr (.inl ⟨_, rfl⟩)
  · exact .inr (.inr rfl)

theorem Spells.writtenAs {lexeme : Lexeme} {span rest : List Char}
    (spells : Spells lexeme span rest) : WrittenAs lexeme span rest := by
  cases spells with
  | word isWord maximal =>
    have spelled : span = (Lexeme.ofWord (String.ofList span)).literal.toList := by
      rw [literal_ofWord, String.toList_ofList]
    obtain ⟨value, same⟩ | ⟨reserved, same⟩ | same := ofWord_cases (String.ofList span)
    all_goals
      rw [same] at spelled ⊢
      exact ⟨spelled, maximal⟩
  | number isRun point single maximal => exact ⟨String.toList_ofList.symm, maximal⟩
  | sign maximal => exact ⟨rfl, maximal⟩
  | string isLiteral =>
    rw [WrittenAs, String.toList_ofList]
    exact isLiteral

theorem written_indentation {blanks rest : List Char} (blank : ∀ c ∈ blanks, isIndent c = true) :
    WrittenAs (.indentation (String.ofList blanks)) blanks rest :=
  ⟨String.toList_ofList.symm, blank⟩

theorem written_lineEnd (rest : List Char) : WrittenAs .endOfLine ['\n'] rest :=
  rfl

theorem Scans.covers {file : String} {marker : Option Char} {line : Nat} {text : List Char}
    {tokens : List Token} (scans : Scans file marker line text tokens) :
    Covers text (tokens.map Token.lexeme) := by
  induction scans with
  | ended isGap => exact .closed isGap
  | lineEnd isGap blank _ _ _ inductionHypothesis =>
    have indented := Covers.lexeme .none (written_indentation blank) inductionHypothesis
    have ended := Covers.lexeme isGap (written_lineEnd _) indented
    exact ended
  | lexeme isGap _ spells _ inductionHypothesis =>
    exact .lexeme isGap spells.writtenAs inductionHypothesis

/-- A whole text is the indentation of its first line and what comes after. -/
theorem scans_of_tokenize {file text : String} {tokens : List Token}
    (success : tokenize file text = .ok tokens) :
    ∃ blanks rest others, text.toList = blanks ++ rest ∧ (∀ c ∈ blanks, isIndent c = true) ∧
      isUniform none blanks = true ∧ Scans file (markerAfter none blanks) 1 rest others ∧
      tokens = ⟨.indentation (String.ofList blanks), ⟨file, 1⟩⟩ :: others := by
  unfold tokenize at success
  split at success
  next => cases success
  next noFault =>
    cases success
    unfold stream streamFrom at noFault ⊢
    dsimp only at noFault ⊢
    split at noFault
    next uniform =>
      rw [if_pos uniform]
      exact ⟨_, _, _, List.takeWhile_append_dropWhile.symm, fun _ => List.mem_takeWhile_imp,
        uniform, scans_of_scan noFault, rfl⟩
    next => cases noFault

/-- The tokens of a text lie in it one behind the other with nothing but gaps between them, each
written as it is read. -/
theorem covers_of_tokenize {file text : String} {tokens : List Token}
    (success : tokenize file text = .ok tokens) :
    Covers text.toList (tokens.map Token.lexeme) := by
  obtain ⟨blanks, rest, others, cut, blank, -, scans, rfl⟩ := scans_of_tokenize success
  have indented := Covers.lexeme .none (written_indentation blank) scans.covers
  rw [cut]
  exact indented

/-- A comparison with a comment behind it and an indented line with a string. -/
theorem covers_comparison :
    tokenize "main" "x >= .5 # half\n\t'\\n'" =
        .ok [⟨.indentation "", ⟨"main", 1⟩⟩, ⟨.identifier "x", ⟨"main", 1⟩⟩,
          ⟨.symbol .atLeast, ⟨"main", 1⟩⟩, ⟨.number ".5", ⟨"main", 1⟩⟩, ⟨.endOfLine, ⟨"main", 1⟩⟩,
          ⟨.indentation "\t", ⟨"main", 2⟩⟩, ⟨.string "\n", ⟨"main", 2⟩⟩,
          ⟨.endOfLine, ⟨"main", 2⟩⟩, ⟨.endOfFile, ⟨"main", 2⟩⟩] ∧
      Covers "x >= .5 # half\n\t'\\n'".toList
        [.indentation "", .identifier "x", .symbol .atLeast, .number ".5", .endOfLine,
          .indentation "\t", .string "\n", .endOfLine, .endOfFile] := by
  refine (and_iff_left_of_imp fun success => ?_).mpr (by cbv)
  exact covers_of_tokenize success

end Lexer

end Offside
