/-
This file proves that the text of a literal falls into the lexemes of the literal. What
comes after a literal matters: a word or a number goes on for as long as it can, and the
quotes of an empty text would open a long string if another quote followed. So the
statement is about a literal before any text that starts with a separator or a closing
bracket, or that is empty, and then nothing of that text is taken.

No literal breaks a line, because a line break inside of a text is written as an escape.
-/

import Mathlib
import Offside.Proofs.Literal.Basic
import Offside.Source.Stream

namespace Offside

/-- Tokens at one place before the rest of a stream. -/
def Stream.onto (location : Location) (lexemes : List Lexeme) (rest : Stream) : Stream :=
  lexemes.foldr (fun lexeme stream => .token ⟨lexeme, location⟩ stream) rest

@[simp] theorem Stream.onto_nil (location : Location) (rest : Stream) :
    Stream.onto location [] rest = rest :=
  rfl

@[simp] theorem Stream.onto_cons (location : Location) (lexeme : Lexeme) (lexemes : List Lexeme)
    (rest : Stream) :
    Stream.onto location (lexeme :: lexemes) rest =
      .token ⟨lexeme, location⟩ (Stream.onto location lexemes rest) :=
  rfl

@[simp] theorem Stream.onto_append (location : Location) (first second : List Lexeme)
    (rest : Stream) :
    Stream.onto location (first ++ second) rest =
      Stream.onto location first (Stream.onto location second rest) :=
  List.foldr_append

namespace Lexer

/-! ### What may follow a literal -/

/-- What a word, a number, a sign or a string ends at, whatever it is. -/
def delimiters : List Char :=
  [' ', '\n', ',', ':', ')', ']', '\x7d']

/-- The text is empty or starts with a blank, a line end, a separator or a closing bracket. -/
def Delimited (text : List Char) : Prop :=
  ∀ c ∈ text.head?, c ∈ delimiters

theorem delimited_nil : Delimited [] := by
  intro c found
  cases found

theorem delimited_cons {c : Char} {rest : List Char} (delimits : c ∈ delimiters) :
    Delimited (c :: rest) := by
  intro first found
  cases found
  exact delimits

theorem Delimited.not_namePart {text : List Char} (delimited : Delimited text) :
    ∀ c ∈ text.head?, Text.isNamePart c = false := by
  have others : delimiters.all (!Text.isNamePart ·) = true := rfl
  intro c found
  rw [← Bool.not_eq_true']
  exact List.all_eq_true.mp others c (delimited c found)

theorem Delimited.not_numberPart {text : List Char} (delimited : Delimited text) :
    ∀ c ∈ text.head?, isNumberPart c = false := by
  have others : delimiters.all (!isNumberPart ·) = true := rfl
  intro c found
  rw [← Bool.not_eq_true']
  exact List.all_eq_true.mp others c (delimited c found)

/-- A run of characters ends where something else follows. -/
theorem takeWhile_run {part : Char → Bool} {run rest : List Char} (all : ∀ c ∈ run, part c = true)
    (ends : ∀ c ∈ rest.head?, part c = false) : (run ++ rest).takeWhile part = run := by
  rw [List.takeWhile_append_of_pos all]
  cases rest with
  | nil => simp
  | cons c rest => rw [List.takeWhile_cons_of_neg (by simp [ends c rfl]), List.append_nil]

theorem dropWhile_run {part : Char → Bool} {run rest : List Char} (all : ∀ c ∈ run, part c = true)
    (ends : ∀ c ∈ rest.head?, part c = false) : (run ++ rest).dropWhile part = rest := by
  rw [List.dropWhile_append_of_pos all]
  cases rest with
  | nil => rfl
  | cons c rest => rw [List.dropWhile_cons_of_neg (by simp [ends c rfl])]

/-! ### One token -/

section Scanning

variable {file : String} {marker : Option Char} {line : Nat}

theorem scan_taken {c : Char} {rest : List Char} {taken : Taken} (blank : isIndent c = false)
    (comment : c ≠ '#') (lineEnd : c ≠ '\n') (success : take line c rest = .ok taken) :
    scan file marker line (c :: rest) =
      .token ⟨taken.lexeme, ⟨file, line⟩⟩ (scan file marker taken.line taken.rest) := by
  rw [scan, if_neg (by simp [blank]), if_neg comment, if_neg lineEnd]
  split
  next found same =>
    rw [success] at same
    cases same
    rfl
  next same =>
    rw [success] at same
    cases same

theorem scan_blank {c : Char} {rest : List Char} (blank : isIndent c = true) :
    scan file marker line (c :: rest) = scan file marker line rest := by
  rw [scan, if_pos blank]

/-- A sign of one character. -/
theorem scan_sign {c : Char} {sign : Symbol} {rest : List Char}
    (plain : isIndent c = false ∧ c ≠ '#' ∧ c ≠ '\n')
    (success : ∀ rest, take line c rest = .ok ⟨.symbol sign, line, rest⟩) :
    scan file marker line (c :: rest) =
      .token ⟨.symbol sign, ⟨file, line⟩⟩ (scan file marker line rest) :=
  scan_taken plain.1 plain.2.1 plain.2.2 (success rest)

theorem scan_opener (bracket : Bracket) (rest : List Char) :
    scan file marker line (bracket.opener.spelling.toList ++ rest) =
      .token ⟨.symbol bracket.opener, ⟨file, line⟩⟩ (scan file marker line rest) := by
  cases bracket <;> exact scan_sign (by decide) fun _ => rfl

theorem scan_closer (bracket : Bracket) (rest : List Char) :
    scan file marker line (bracket.closer.spelling.toList ++ rest) =
      .token ⟨.symbol bracket.closer, ⟨file, line⟩⟩ (scan file marker line rest) := by
  cases bracket <;> exact scan_sign (by decide) fun _ => rfl

theorem scan_comma (rest : List Char) :
    scan file marker line (',' :: rest) =
      .token ⟨.symbol .comma, ⟨file, line⟩⟩ (scan file marker line rest) :=
  scan_sign (by decide) fun _ => rfl

theorem scan_colon (rest : List Char) :
    scan file marker line (':' :: rest) =
      .token ⟨.symbol .colon, ⟨file, line⟩⟩ (scan file marker line rest) :=
  scan_sign (by decide) fun _ => rfl

end Scanning

/-- A text falls into lexemes wherever it stands, if what follows is delimited. -/
def Lexes (text : List Char) (lexemes : List Lexeme) : Prop :=
  ∀ (file : String) (marker : Option Char) (line : Nat) (rest : List Char), Delimited rest →
    scan file marker line (text ++ rest) =
      Stream.onto ⟨file, line⟩ lexemes (scan file marker line rest)

/-! ### Words and numbers -/

theorem lexes_word {c : Char} {word : List Char} (blank : isIndent c = false)
    (plain : c ∉ ['#', '\n', '\r', '\'', '"']) (starts : Text.isNameStart c = true)
    (named : word.all Text.isNamePart = true) :
    Lexes (c :: word) [.ofWord (String.ofList (c :: word))] := by
  intro file marker line rest delimited
  have parts := List.all_eq_true.mp named
  simp only [List.mem_cons, List.not_mem_nil, or_false, not_or] at plain
  obtain ⟨comment, lineEnd, carriage, quotes⟩ := plain
  have ends := delimited.not_namePart
  have success : take line c (word ++ rest) =
      .ok ⟨.ofWord (String.ofList (c :: word)), line, rest⟩ := by
    rw [take, if_neg carriage, if_neg (by simp [quotes]), if_pos starts, takeWhile_run parts ends,
      dropWhile_run parts ends]
  rw [List.cons_append, scan_taken blank comment lineEnd success]
  rfl

theorem lexes_none : Lexes "None".toList [.keyword .noneWord] :=
  show Lexes ('N' :: ['o', 'n', 'e']) [.ofWord "None"] from lexes_word rfl (by decide) rfl rfl

theorem lexes_bool (value : Bool) : Lexes (truthText value).toList [.boolean value] :=
  match value with
  | true =>
    show Lexes ('T' :: ['r', 'u', 'e']) [.ofWord "True"] from lexes_word rfl (by decide) rfl rfl
  | false =>
    show Lexes ('F' :: ['a', 'l', 's', 'e']) [.ofWord "False"] from
      lexes_word rfl (by decide) rfl rfl

/-- A digit starts a number and nothing else. -/
theorem digit_plain {c : Char} (digit : c.isDigit = true) :
    isIndent c = false ∧ c ∉ ['#', '\n', '\r', '\'', '"'] ∧ Text.isNameStart c = false := by
  have bounds : 48 ≤ c.toNat ∧ c.toNat ≤ 57 := by
    simpa [Char.isDigit, UInt32.le_iff_toNat_le] using digit
  have same : c = Char.ofNat c.toNat := (Char.ofNat_toNat c).symm
  obtain ⟨low, high⟩ := bounds
  generalize c.toNat = code at low high same
  subst same
  interval_cases code <;> decide

theorem numberPart_plain {c : Char} (part : isNumberPart c = true) :
    isIndent c = false ∧ c ∉ ['#', '\n', '\r', '\'', '"'] ∧ Text.isNameStart c = false := by
  rw [isNumberPart, Bool.or_eq_true, beq_iff_eq] at part
  obtain digit | rfl := part
  · exact digit_plain digit
  · decide

/-- A run of digits and points is taken as a whole. -/
theorem lexes_run {run : List Char} {lexeme : Lexeme} (nonempty : run ≠ [])
    (all : ∀ c ∈ run, isNumberPart c = true) (number : numberLexeme run = .ok lexeme) :
    Lexes run [lexeme] := by
  intro file marker line rest delimited
  have ends := delimited.not_numberPart
  obtain ⟨c, run, rfl⟩ := List.exists_cons_of_ne_nil nonempty
  rw [List.forall_mem_cons] at all
  obtain ⟨blank, plain, noName⟩ := numberPart_plain all.1
  simp only [List.mem_cons, List.not_mem_nil, or_false, not_or] at plain
  obtain ⟨comment, lineEnd, carriage, quotes⟩ := plain
  have success : take line c (run ++ rest) = .ok ⟨lexeme, line, rest⟩ := by
    rw [take, if_neg carriage, if_neg (by simp [quotes]), if_neg (by simp [noName]),
      if_pos all.1, takeWhile_run all.2 ends, number, dropWhile_run all.2 ends]
  rw [List.cons_append, scan_taken blank comment lineEnd success]
  rfl

theorem lexes_digits {digits : List Char} (nonempty : digits ≠ [])
    (all : ∀ c ∈ digits, c.isDigit = true) : Lexes digits [.number (String.ofList digits)] := by
  have noPoint : digits.count '.' = 0 := by
    rw [List.count_eq_zero]
    intro point
    exact absurd (all '.' point) (by decide)
  refine lexes_run nonempty ?_ ?_
  · intro c found
    rw [isNumberPart, all c found, Bool.true_or]
  · simp only [numberLexeme, noPoint]

theorem lexes_int (value : Int64) :
    Lexes (Number.integerText value).toList (Literal.lexemesOfInt value) := by
  have digits (n : Nat) :
      Lexes (Nat.toDigits 10 n) [.number (String.ofList (Nat.toDigits 10 n))] :=
    lexes_digits Nat.toDigits_ne_nil fun c found =>
      Nat.isDigit_of_mem_toDigits (by decide) (by decide) found
  unfold Number.integerText Literal.lexemesOfInt
  cases value.toInt with
  | ofNat n =>
    rw [String.toList_ofList]
    exact digits n
  | negSucc n =>
    intro file marker line rest delimited
    rw [String.toList_ofList]
    calc scan file marker line ('-' :: Nat.toDigits 10 (n + 1) ++ rest)
      _ = .token ⟨.symbol .minus, ⟨file, line⟩⟩
          (scan file marker line (Nat.toDigits 10 (n + 1) ++ rest)) :=
        scan_sign (by decide) fun _ => rfl
      _ = _ := by
        rw [digits (n + 1) file marker line rest delimited]
        rfl

/-! ### Texts -/

/-- The two characters that a text can stand between. -/
def IsQuote (delimiter : Char) : Prop :=
  delimiter = '\'' ∨ delimiter = '"'

theorem quoteDelimiter_isQuote (text : List Char) : IsQuote (Text.quoteDelimiter text) := by
  unfold Text.quoteDelimiter
  split
  · exact .inr rfl
  · exact .inl rfl

section Quoted

variable {delimiter : Char} (isQuote : IsQuote delimiter) {opened line : Nat}

/-- An escape stands for the character that it was made of. -/
theorem readString_escape {quotes : Quotes} {value rest : List Char} {letter decoded : Char}
    (known : escape? letter = some decoded) :
    readString quotes opened line value ('\\' :: letter :: rest) =
      readString quotes opened line (decoded :: value) rest := by
  rw [readString, known]

/-- A character that needs no escape is read as it is. -/
theorem readString_plain {c : Char} {value rest : List Char} (backslash : c ≠ '\\')
    (carriage : c ≠ '\r') (lineEnd : c ≠ '\n') (other : c ≠ delimiter) :
    readString ⟨delimiter, false⟩ opened line value (c :: rest) =
      readString ⟨delimiter, false⟩ opened line (c :: value) rest := by
  have goesOn : Quotes.close? ⟨delimiter, false⟩ (c :: rest) = none := by
    simp only [Quotes.close?, ne_eq, other, not_false_eq_true, if_true]
  rw [readString, if_neg carriage, goesOn]
  · simp only [lineEnd, decide_false, Bool.false_and, Bool.false_eq_true, if_false, lineAfter]
  · intro same
    exact absurd same backslash
  · intro letter after same
    exact absurd same backslash

/-- The delimiter ends a text. -/
theorem readString_close {value rest : List Char} (isQuote : IsQuote delimiter) :
    readString ⟨delimiter, false⟩ opened line value (delimiter :: rest) =
      .ok (value.reverse, line, rest) := by
  have closes : Quotes.close? ⟨delimiter, false⟩ (delimiter :: rest) = some rest := by
    simp [Quotes.close?]
  obtain rfl | rfl := isQuote <;> rw [readString, closes] <;> simp

/-- Every character is read back from how it is written. -/
theorem readString_escapeChar (isQuote : IsQuote delimiter) (c : Char) (value rest : List Char) :
    readString ⟨delimiter, false⟩ opened line value (Text.escapeChar delimiter c ++ rest) =
      readString ⟨delimiter, false⟩ opened line (c :: value) rest := by
  unfold Text.escapeChar
  split
  next same => exact readString_escape (by rw [same]; rfl)
  split
  next same => exact readString_escape (by rw [same]; rfl)
  split
  next same => exact readString_escape (by rw [same]; rfl)
  split
  next same => exact readString_escape (by rw [same]; rfl)
  split
  next same =>
    refine readString_escape ?_
    obtain rfl | rfl := isQuote <;> rw [same] <;> rfl
  next lineEnd carriage backslash other => exact readString_plain backslash carriage lineEnd other

theorem readString_escapeChars (isQuote : IsQuote delimiter) (text value rest : List Char) :
    readString ⟨delimiter, false⟩ opened line value
        (Text.escapeChars delimiter text ++ delimiter :: rest) =
      .ok (value.reverse ++ text, line, rest) := by
  induction text generalizing value with
  | nil =>
    rw [List.append_nil]
    exact readString_close isQuote
  | cons c text inductionHypothesis =>
    have cut : Text.escapeChars delimiter (c :: text) =
        Text.escapeChar delimiter c ++ Text.escapeChars delimiter text :=
      List.flatMap_cons
    rw [cut, List.append_assoc, readString_escapeChar isQuote, inductionHypothesis,
      List.reverse_cons, List.append_assoc]
    rfl

/-- What a character is written as does not start with the delimiter. -/
theorem head_escapeChar (isQuote : IsQuote delimiter) (c : Char) :
    ∃ first rest, Text.escapeChar delimiter c = first :: rest ∧ first ≠ delimiter := by
  have escaped : '\\' ≠ delimiter := by
    obtain rfl | rfl := isQuote <;> decide
  unfold Text.escapeChar
  split
  · exact ⟨_, _, rfl, escaped⟩
  split
  · exact ⟨_, _, rfl, escaped⟩
  split
  · exact ⟨_, _, rfl, escaped⟩
  split
  · exact ⟨_, _, rfl, escaped⟩
  split
  · exact ⟨_, _, rfl, escaped⟩
  next other => exact ⟨c, [], rfl, other⟩

/-- The quotes of a literal are single ones, also around an empty text. -/
theorem openQuotes_escapeChars (isQuote : IsQuote delimiter) {text rest : List Char}
    (delimited : Delimited rest) :
    openQuotes delimiter (Text.escapeChars delimiter text ++ delimiter :: rest) =
      (⟨delimiter, false⟩, Text.escapeChars delimiter text ++ delimiter :: rest) := by
  cases text with
  | nil =>
    cases rest with
    | nil => rfl
    | cons third rest =>
      have other : third ≠ delimiter := by
        rintro rfl
        have delimits := delimited third rfl
        obtain rfl | rfl := isQuote <;> exact absurd delimits (by decide)
      change openQuotes delimiter (delimiter :: third :: rest) = _
      rw [openQuotes, if_neg (by simp [other])]
      rfl
  | cons c text =>
    obtain ⟨first, after, written, other⟩ := head_escapeChar isQuote c
    have cut : Text.escapeChars delimiter (c :: text) =
        first :: (after ++ Text.escapeChars delimiter text) := by
      rw [Text.escapeChars, List.flatMap_cons, written]
      rfl
    rw [cut, List.cons_append]
    unfold openQuotes
    split
    next second third others same =>
      obtain ⟨rfl, same⟩ := List.cons.inj same
      rw [if_neg (by simp [other]), same]
    next => rfl

end Quoted

theorem lexes_quoted (text : List Char) :
    Lexes (Text.quoteChars text) [.string (String.ofList text)] := by
  intro file marker line rest delimited
  have isQuote := quoteDelimiter_isQuote text
  rw [Text.quoteChars]
  generalize Text.quoteDelimiter text = delimiter at isQuote ⊢
  have plain : isIndent delimiter = false ∧ delimiter ∉ ['#', '\n', '\r'] := by
    obtain rfl | rfl := isQuote <;> decide
  simp only [List.mem_cons, List.not_mem_nil, or_false, not_or] at plain
  obtain ⟨blank, comment, lineEnd, carriage⟩ := plain
  have success : take line delimiter (Text.escapeChars delimiter text ++ delimiter :: rest) =
      .ok ⟨.string (String.ofList text), line, rest⟩ := by
    have opens : (decide (delimiter = '\'') || decide (delimiter = '"')) = true := by
      rw [Bool.or_eq_true, decide_eq_true_eq, decide_eq_true_eq]
      exact isQuote
    rw [take, if_neg carriage, if_pos opens, openQuotes_escapeChars isQuote delimited]
    dsimp only
    rw [readString_escapeChars isQuote]
    rfl
  rw [List.cons_append, List.cons_append, List.append_assoc, List.singleton_append,
    scan_taken blank comment lineEnd success]
  rfl

/-! ### Containers -/

theorem lexes_nil : Lexes [] [] :=
  fun _ _ _ _ _ => rfl

theorem delimited_closer (bracket : Bracket) (rest : List Char) :
    Delimited (bracket.closer.spelling.toList ++ rest) := by
  cases bracket <;> exact delimited_cons (by decide)

/-- The parts of a container. -/
theorem lexes_separated {parts : List (List Char)} {lexemes : List (List Lexeme)}
    (all : List.Forall₂ Lexes parts lexemes) :
    Lexes (separated [',', ' '] parts) (separated [.symbol .comma] lexemes) := by
  induction all with
  | nil => exact lexes_nil
  | cons lexes others inductionHypothesis =>
    cases others with
    | nil => exact lexes
    | cons =>
      intro file marker line rest delimited
      have after := inductionHypothesis file marker line rest delimited
      rw [separated, List.append_assoc, List.append_assoc, List.cons_append, List.cons_append,
        List.nil_append, lexes file marker line _ (delimited_cons (by decide)), scan_comma,
        scan_blank rfl, after]
      simp only [separated, Stream.onto_append, Stream.onto_cons, Stream.onto_nil]

theorem Lexes.grouped {inner : List Char} {lexemes : List Lexeme} (bracket : Bracket)
    (lexes : Lexes inner lexemes) :
    Lexes (Literal.grouped bracket inner) (Literal.groupedLexemes bracket lexemes) := by
  intro file marker line rest delimited
  rw [Literal.grouped, List.append_assoc, List.append_assoc, scan_opener,
    lexes file marker line _ (delimited_closer bracket rest), scan_closer]
  simp only [Literal.groupedLexemes, List.cons_append, Stream.onto_append, Stream.onto_cons,
    Stream.onto_nil]

/-- The comma after a single element. -/
theorem Lexes.trailing {inner : List Char} {lexemes : List Lexeme} (elements : List Literal)
    (lexes : Lexes inner lexemes) :
    Lexes (inner ++ Literal.trailing ',' elements)
      (lexemes ++ Literal.trailing (.symbol .comma) elements) := by
  unfold Literal.trailing
  split
  next =>
    intro file marker line rest delimited
    rw [List.append_assoc, List.singleton_append,
      lexes file marker line _ (delimited_cons (by decide)), scan_comma, Stream.onto_append,
      Stream.onto_cons, Stream.onto_nil]
  next =>
    rw [List.append_nil, List.append_nil]
    exact lexes

theorem Lexes.entry {key value : List Char} {keyLexemes valueLexemes : List Lexeme}
    (keyLexes : Lexes key keyLexemes) (valueLexes : Lexes value valueLexemes) :
    Lexes (key ++ ':' :: ' ' :: value) (keyLexemes ++ .symbol .colon :: valueLexemes) := by
  intro file marker line rest delimited
  rw [List.append_assoc, List.cons_append, keyLexes file marker line _ (delimited_cons (by decide)),
    scan_colon, List.cons_append, scan_blank rfl, valueLexes file marker line rest delimited,
    Stream.onto_append, Stream.onto_cons]

/-! ### Literals -/

mutual

/-- The text of a literal falls into its lexemes. -/
theorem lexes_chars : (literal : Literal) → Lexes literal.chars literal.lexemes
  | .none => lexes_none
  | .bool value => lexes_bool value
  | .int value => lexes_int value
  | .str value => by
    have lexes := lexes_quoted value.toList
    rw [String.ofList_toList] at lexes
    exact lexes
  | .list elements => (lexes_separated (lexes_charsOf elements)).grouped .square
  | .tuple elements =>
    ((lexes_separated (lexes_charsOf elements)).trailing elements).grouped .paren
  | .dict entries => (lexes_separated (lexes_charsOfEntries entries)).grouped .brace
  | .set elements => (lexes_separated (lexes_charsOf elements)).grouped .brace

theorem lexes_charsOf : (elements : List Literal) →
    List.Forall₂ Lexes (Literal.charsOf elements) (Literal.lexemesOf elements)
  | [] => .nil
  | first :: rest => .cons (lexes_chars first) (lexes_charsOf rest)

theorem lexes_charsOfEntries : (entries : List (Literal × Literal)) →
    List.Forall₂ Lexes (Literal.charsOfEntries entries) (Literal.lexemesOfEntries entries)
  | [] => .nil
  | (key, value) :: rest =>
    .cons ((lexes_chars key).entry (lexes_chars value)) (lexes_charsOfEntries rest)

end

/-! ### Whole texts -/

theorem grouped_head (bracket : Bracket) (inner : List Char) :
    ∀ c ∈ (Literal.grouped bracket inner).head?, isIndent c = false := by
  intro c found
  cases bracket <;> cases found <;> rfl

/-- No literal starts with a blank. -/
theorem chars_head (literal : Literal) : ∀ c ∈ literal.chars.head?, isIndent c = false := by
  intro c found
  cases literal with
  | none => cases found; rfl
  | bool value => cases value <;> cases found <;> rfl
  | int value =>
    rw [Literal.chars, Number.integerText] at found
    generalize value.toInt = number at found
    cases number with
    | ofNat n =>
      rw [String.toList_ofList] at found
      have digit :=
        Nat.isDigit_of_mem_toDigits (by decide) (by decide) (List.mem_of_mem_head? found)
      exact (digit_plain digit).1
    | negSucc n =>
      rw [String.toList_ofList] at found
      cases found
      rfl
  | str value =>
    rw [Literal.chars, Text.quoteChars] at found
    cases found
    obtain quote | quote := quoteDelimiter_isQuote value.toList <;> rw [quote] <;> rfl
  | list elements => exact grouped_head _ _ c found
  | tuple elements => exact grouped_head _ _ c found
  | dict entries => exact grouped_head _ _ c found
  | set elements => exact grouped_head _ _ c found

/-- The stream of a text that is a literal. -/
theorem stream_text (file : String) (literal : Literal) :
    stream file literal.text =
      Stream.onto ⟨file, 1⟩ (.indentation "" :: (literal.lexemes ++ [.endOfLine, .endOfFile]))
        .ended := by
  have noBlanks : ([] ++ literal.chars).takeWhile isIndent = [] :=
    takeWhile_run (fun _ impossible => by cases impossible) (chars_head literal)
  have allLeft : ([] ++ literal.chars).dropWhile isIndent = literal.chars :=
    dropWhile_run (fun _ impossible => by cases impossible) (chars_head literal)
  rw [List.nil_append] at noBlanks allLeft
  have scanned := lexes_chars literal file none 1 [] delimited_nil
  rw [List.append_nil] at scanned
  have last : scan file none 1 [] = Stream.onto ⟨file, 1⟩ [.endOfLine, .endOfFile] .ended := by
    rw [scan]
    rfl
  rw [stream, streamFrom, Literal.text, String.toList_ofList, noBlanks, allLeft]
  change Stream.token ⟨.indentation "", ⟨file, 1⟩⟩ (scan file none 1 literal.chars) = _
  rw [scanned, last]
  simp only [Stream.onto_cons, Stream.onto_append]

end Lexer

end Offside
