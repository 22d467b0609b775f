/-
This file proves that parsing keeps the terminals of a text. The names and the literals of
a program, from left to right and from top to bottom, are those of its tokens, as long as no
opening brace comes right after the end of an operand. The reading of lines is followed
statement by statement, and the grouping of lines into blocks changes no line.

Without the condition the statement is false. Braces are never attached to what stands
before them, and yet take its place, so that a name or a literal there vanishes without an
error.
-/

import Offside.Proofs.Lexing.Spans
import Offside.Proofs.Literal.Parsing
import Offside.Proofs.Terminals.Reading

namespace Offside

/-! ### Statements -/

/-- The terminals of an expression that may be left out. -/
def Expr.terminalsOf? (found : Option Expr) : List Terminal :=
  found.elim [] Expr.terminals

/-- A parameter has its name and its default. -/
def Parameter.terminals (parameter : Parameter) : List Terminal :=
  .name parameter.name :: Expr.terminalsOf? parameter.default

def Simple.terminals : Simple → List Terminal
  | .expression value => value.terminals
  | .assign target value => target.terminals ++ value.terminals
  | .pass => []
  | .breakLoop => []
  | .continueLoop => []
  | .returnValue value => Expr.terminalsOf? value
  | .raiseValue value => Expr.terminalsOf? value
  | .delete target => target.terminals
  | .importModule path newName => path.map .name ++ newName.toList.map .name
  | .importNames path names => path.map .name ++ (names.getD []).map .name

mutual

/-- The names and literals of a statement from left to right and from top to bottom. -/
def Stmt.terminals : Stmt → List Terminal
  | .simple _ action => action.terminals
  | .choice _ branches otherwise => Branch.terminalsOf branches ++ Stmt.terminalsOf? otherwise
  | .whileLoop _ condition body otherwise =>
    condition.terminals ++ (Stmt.terminalsOf body ++ Stmt.terminalsOf? otherwise)
  | .forLoop _ target iterable body otherwise =>
    target.terminals ++ iterable.terminals ++ (Stmt.terminalsOf body ++ Stmt.terminalsOf? otherwise)
  | .attempt _ body handlers otherwise cleanup =>
    Stmt.terminalsOf body ++ (Handler.terminalsOf handlers ++
      (Stmt.terminalsOf? otherwise ++ Stmt.terminalsOf? cleanup))
  | .functionDef _ name parameters body =>
    .name name :: parameters.flatMap Parameter.terminals ++ Stmt.terminalsOf body
  | .classDef _ name base body =>
    .name name :: Expr.terminalsOf? base ++ Stmt.terminalsOf body

def Stmt.terminalsOf : List Stmt → List Terminal
  | [] => []
  | first :: rest => first.terminals ++ Stmt.terminalsOf rest

def Stmt.terminalsOf? : Option (List Stmt) → List Terminal
  | none => []
  | some body => Stmt.terminalsOf body

def Branch.terminalsOf : List Branch → List Terminal
  | [] => []
  | .mk _ condition body :: rest =>
    condition.terminals ++ (Stmt.terminalsOf body ++ Branch.terminalsOf rest)

def Handler.terminalsOf : List Handler → List Terminal
  | [] => []
  | .mk _ class? name body :: rest =>
    Expr.terminalsOf? class? ++ name.toList.map .name ++
      (Stmt.terminalsOf body ++ Handler.terminalsOf rest)

end

/-! ### Lines -/

def Header.terminals : Header → List Terminal
  | .ifTrue condition => condition.terminals
  | .elseIf condition => condition.terminals
  | .otherwise => []
  | .whileTrue condition => condition.terminals
  | .forEach target iterable => target.terminals ++ iterable.terminals
  | .attempt => []
  | .handle class? name => Expr.terminalsOf? class? ++ name.toList.map .name
  | .cleanup => []
  | .function name parameters => .name name :: parameters.flatMap Parameter.terminals
  | .klass name base => .name name :: Expr.terminalsOf? base

def Content.terminals : Content → List Terminal
  | .header inner => inner.terminals
  | .simple inner => inner.terminals

namespace Line

open Reading

theorem headerEnd_conserves {before : List Terminal} :
    Conserves before headerEnd fun _ => before :=
  (conserves_expect_silent (silent_symbol .colon)).bind fun _ => conserves_endOfLine

theorem handlerClass_conserves :
    Conserves [] handlerClass fun found =>
      Expr.terminalsOf? found.1 ++ found.2.toList.map Terminal.name := by
  refine conserves_isNext.bind fun isBare => ?_
  split
  · exact conserves_pure rfl
  refine (conserves_expression _).bind fun class? => ?_
  refine conserves_ifNext (silent_keyword (by simp)) ?_ ?_
  · exact conserves_identifier.bind fun name => conserves_pure rfl
  · exact conserves_pure (List.append_nil _)

/-- The targets of a loop are one target or a tuple. -/
theorem loopTarget_conserves (location : Location) (parts : List Expr × Expr) :
    Conserves (parts.1.flatMap Expr.terminals ++ parts.2.terminals) (do
      let (targets, iterable) := parts
      let target := match targets with
        | [target] => target
        | targets => .tuple location targets
      lift target.checkTarget
      return (target, iterable)) fun found => found.1.terminals ++ found.2.terminals := by
  obtain ⟨targets, iterable⟩ := parts
  refine (conserves_lift fun _ _ => rfl).bind fun _ => conserves_pure ?_
  split
  · rw [List.flatMap_cons, List.flatMap_nil, List.append_nil]
  · rw [Expr.terminals, Expr.terminalsOf_eq]

theorem loopClause_conserves :
    Conserves [] loopClause fun found => found.1.terminals ++ found.2.terminals := by
  refine conserves_here.bind fun location => ?_
  refine (conserves_commaSeparated fun _ => conserves_expression _).bind fun found => ?_
  refine conserves_ifNext (silent_keyword (by simp)) ?_ ?_
  · refine (conserves_expressionList []).frame.bind fun iterable => ?_
    exact Conserves.bind (conserves_pure rfl) (loopTarget_conserves location)
  · split
    next place last source targets same =>
      -- The source is the right side of the membership test that ends the targets.
      have split : found.1.flatMap Expr.terminals =
          (last :: targets).reverse.flatMap Expr.terminals ++ source.terminals := by
        rw [← List.reverse_reverse found.1, same]
        simp [Expr.terminals]
      rw [split]
      exact Conserves.bind (conserves_pure rfl) (loopTarget_conserves location)
    next => exact Conserves.bind conserves_fail (loopTarget_conserves location)

theorem parameter_conserves (before : List Parameter) :
    Conserves [] (parameter before) Parameter.terminals := by
  refine conserves_here.bind fun location => conserves_identifier.bind fun name => ?_
  split
  · exact conserves_fail
  refine conserves_ifNext (silent_symbol .assign) ?_ ?_
  · exact (conserves_expression _).frame.bind fun value => conserves_pure rfl
  · split
    · exact conserves_fail
    · exact conserves_pure rfl

theorem parameters_conserves :
    Conserves [] parameters fun found => found.flatMap Parameter.terminals := by
  have closed (found : List Parameter) :
      Conserves (found.flatMap Parameter.terminals) (do
        let _ ← expect (.symbol .closeParen)
        return found) fun found => found.flatMap Parameter.terminals :=
    (conserves_expect_silent (silent_symbol .closeParen)).bind fun _ => conserves_pure rfl
  refine (conserves_expect_silent (silent_symbol .openParen)).bind fun _ => ?_
  refine conserves_isNext.bind fun isEmpty => ?_
  split
  · exact Conserves.bind (conserves_pure rfl) closed
  · exact Conserves.bind (Conserves.map (conserves_commaSeparated parameter_conserves)
      fun _ => rfl) closed

theorem baseClass_conserves : Conserves [] baseClass Expr.terminalsOf? := by
  have closed (found : Option Expr) :
      Conserves (Expr.terminalsOf? found) (do
        let _ ← expect (.symbol .closeParen)
        return found) Expr.terminalsOf? :=
    (conserves_expect_silent (silent_symbol .closeParen)).bind fun _ => conserves_pure rfl
  refine conserves_ifNext (silent_symbol .openParen) ?_ (conserves_pure rfl)
  refine conserves_isNext.bind fun isEmpty => ?_
  split
  · exact Conserves.bind (conserves_pure rfl) closed
  · exact Conserves.bind (Conserves.map (conserves_expression _) fun _ => rfl) closed

theorem optionalValue_conserves : Conserves [] optionalValue Expr.terminalsOf? := by
  refine conserves_isNext.bind fun isEmpty => ?_
  split
  · exact conserves_pure rfl
  · exact (conserves_expressionList _).bind fun value => conserves_pure rfl

theorem deletion_conserves (location : Location) :
    Conserves [] (deletion location) Simple.terminals := by
  refine (conserves_expressionList _).bind fun target => ?_
  split
  · exact conserves_pure rfl
  · exact conserves_fail

theorem moduleImport_conserves : Conserves [] moduleImport Simple.terminals := by
  refine conserves_dottedName.bind fun path => ?_
  refine conserves_ifNext (silent_keyword (by simp)) ?_ (conserves_pure (List.append_nil _))
  exact conserves_identifier.bind fun name => conserves_pure rfl

theorem importedName_conserves : Conserves [] importedName fun name => [.name name] := by
  refine conserves_peek.bind fun next => ?_
  split
  · exact conserves_fail
  · exact conserves_identifier

theorem namesImport_conserves : Conserves [] namesImport Simple.terminals := by
  refine conserves_dottedName.bind fun path => ?_
  refine (conserves_expect_silent (silent_keyword (by simp))).bind fun _ => ?_
  refine conserves_ifNext (silent_symbol .times) (conserves_pure (List.append_nil _)) ?_
  have listed : Conserves [] (commaSeparated (fun _ => importedName) (fun _ => false) [])
      fun found => found.1.flatMap fun name => [.name name] :=
    conserves_commaSeparated fun _ => importedName_conserves
  refine listed.frame.bind fun found => conserves_pure (congrArg (_ ++ ·) ?_)
  exact List.map_eq_flatMap

theorem expressionOrAssignment_conserves :
    Conserves [] expressionOrAssignment Simple.terminals := by
  refine (conserves_expressionList _).bind fun first => ?_
  intro stream
  refine conservesFrom_isNext (fun head rest isToken same => ?_) (conserves_pure rfl _)
  refine ConservesFrom.lift_bind fun _ => ?_
  rw [isToken]
  refine (conservesFrom_advance_silent (silent_symbol .assign) same rest).bind fun _ => ?_
  exact (conserves_expressionList _).frame.bind fun value => conserves_pure rfl

theorem header?_conserves {word : Keyword} {rest : Reading Header}
    (found : header? word = some rest) : Conserves [] rest Header.terminals := by
  unfold header? at found
  split at found <;> cases found
  · exact (conserves_expression _).map fun _ => rfl
  · exact (conserves_expression _).map fun _ => rfl
  · exact (conserves_expression _).map fun _ => rfl
  · exact conserves_pure rfl
  · exact conserves_pure rfl
  · exact conserves_pure rfl
  · exact handlerClass_conserves.map fun _ => rfl
  · exact loopClause_conserves.map fun _ => rfl
  · exact conserves_identifier.bind fun name => parameters_conserves.frame.bind fun _ =>
      conserves_pure rfl
  · exact conserves_identifier.bind fun name => baseClass_conserves.frame.bind fun _ =>
      conserves_pure rfl

theorem statement?_conserves {location : Location} {word : Keyword} {rest : Reading Simple}
    (found : statement? location word = some rest) : Conserves [] rest Simple.terminals := by
  unfold statement? at found
  split at found <;> cases found
  · exact conserves_pure rfl
  · exact conserves_pure rfl
  · exact conserves_pure rfl
  · exact optionalValue_conserves.map fun _ => rfl
  · exact optionalValue_conserves.map fun _ => rfl
  · exact deletion_conserves location
  · exact moduleImport_conserves
  · exact namesImport_conserves

/-- A word that starts a header is no terminal. -/
theorem silent_header {word : Keyword} {rest : Reading Header} (known : header? word = some rest) :
    Silent (.keyword word) := by
  refine silent_keyword ?_
  rintro rfl
  cases known

theorem silent_statement {location : Location} {word : Keyword} {rest : Reading Simple}
    (known : statement? location word = some rest) : Silent (.keyword word) := by
  refine silent_keyword ?_
  rintro rfl
  cases known

theorem readContent_conserves (first : Token) (rest : Stream) :
    ConservesFrom (.token first rest) [] (readContent first) Content.terminals := by
  unfold readContent
  dsimp only
  split
  next reading found =>
    obtain ⟨word, isWord, known⟩ := Option.bind_eq_some_iff.mp found
    refine (conservesFrom_advance_silent (silent_header known) (Token.kind_of_keyword? isWord)
      rest).bind fun _ => ?_
    refine (header?_conserves known).bind fun header => ?_
    exact headerEnd_conserves.bind fun _ => conserves_pure rfl
  next reading _ found =>
    obtain ⟨word, isWord, known⟩ := Option.bind_eq_some_iff.mp found
    refine (conservesFrom_advance_silent (silent_statement known) (Token.kind_of_keyword? isWord)
      rest).bind fun _ => ?_
    refine (statement?_conserves known).bind fun statement => ?_
    exact conserves_endOfLine.bind fun _ => conserves_pure rfl
  next =>
    refine (expressionOrAssignment_conserves _).bind fun statement => ?_
    exact conserves_endOfLine.bind fun _ => conserves_pure rfl

theorem afterIndentation_conserves (depth : Nat) :
    Conserves [] (afterIndentation depth) fun found =>
      found.elim [] fun line => line.content.terminals := by
  intro stream
  refine conservesFrom_peek (fun head rest isToken => ?_) (conserves_pure rfl _)
  split
  next isEnd =>
    cases isEnd
    rw [isToken]
    refine (conservesFrom_advance_silent silent_endOfLine rfl rest).bind fun _ => ?_
    exact conserves_pure rfl
  next isFirst =>
    cases isFirst
    rw [isToken]
    exact (readContent_conserves _ rest).bind fun content => conserves_pure rfl
  next => exact conserves_pure rfl _

/-- The terminals of a line, if it is not blank. -/
def terminals? (line : Option Line) : List Terminal :=
  line.elim [] fun line => line.content.terminals

theorem read_passes {stream : Stream} {line : Option Line}
    {rest : { rest : Stream // rest.size < stream.size }} (done : read stream = .ok (line, rest)) :
    Passes stream rest.1 (terminals? line) := by
  unfold read at done
  split at done
  next blanks location others =>
    obtain ⟨_, -, done⟩ := Row.bind_ok done
    obtain ⟨⟨found, left⟩, contentRead, done⟩ := Row.bind_ok done
    cases done
    obtain ⟨terminals, same, passes⟩ := afterIndentation_conserves _ _ _ _ contentRead
    have indented : Passes (.token ⟨.indentation blanks, location⟩ others) others [] :=
      passes_token (by simp) others
    rw [List.nil_append] at same
    have passesAll := indented.trans passes
    rwa [← same] at passesAll
  next => cases done
  next => cases done
  next => cases done

/-- The lines of a text without a fault have the terminals of its tokens. -/
theorem terminals_of_readAll {stream : Stream} {lines : List (Option Line)}
    (done : readAll stream = (lines, none)) (closed : stream.Closed) :
    stream.fault? = none ∧
      (Row.Apart [] [] stream.tokens → stream.terminals = lines.flatMap terminals?) := by
  fun_induction readAll stream generalizing lines with
  | case1 location rest =>
    cases done
    obtain rfl : rest = .ended := closed
    exact ⟨rfl, fun _ => rfl⟩
  | case2 => cases done
  | case3 stream notEnd first rest shorter lineRead others error othersRead inductionHypothesis =>
    cases done
    obtain ⟨⟨restClosed, restFault⟩, conserves⟩ := read_passes lineRead closed
    obtain ⟨noFault, othersConserve⟩ := inductionHypothesis othersRead restClosed
    refine ⟨restFault.symm.trans noFault, fun apart => ?_⟩
    obtain ⟨restApart, same⟩ := conserves apart
    rw [same, othersConserve restApart, List.flatMap_cons]

end Line

/-! ### Blocks -/

namespace Block

/-- The terminals of lines from top to bottom. -/
def lineTerminals (lines : List Line) : List Terminal :=
  lines.flatMap fun line => line.content.terminals

theorem lineTerminals_cons (line : Line) (lines : List Line) :
    lineTerminals (line :: lines) = line.content.terminals ++ lineTerminals lines :=
  List.flatMap_cons

theorem lineTerminals_append (first second : List Line) :
    lineTerminals (first ++ second) = lineTerminals first ++ lineTerminals second :=
  List.flatMap_append

/-- Blank lines have no terminals. -/
theorem lineTerminals_filterMap (lines : List (Option Line)) :
    lineTerminals (lines.filterMap id) = lines.flatMap Line.terminals? := by
  induction lines with
  | nil => rfl
  | cons line rest inductionHypothesis =>
    rw [List.flatMap_cons, ← inductionHypothesis]
    cases line with
    | none => rfl
    | some line => exact lineTerminals_cons line _

mutual

/-- A statement has the terminals of the lines that it is laid out in. -/
theorem LaidOut.terminals {depth : Nat} : (statement : Stmt) → {lines : List Line} →
    LaidOut depth statement lines → statement.terminals = lineTerminals lines
  | .simple _ _, _, laidOut => by
    obtain rfl := laidOut
    exact (List.append_nil _).symm
  | .choice _ branches otherwise, _, laidOut => by
    obtain ⟨first, second, rfl, branchesLaidOut, clauseLaidOut⟩ := laidOut
    rw [lineTerminals_append, Stmt.terminals,
      BranchesLaidOut.terminals branches (fun _ => rfl) branchesLaidOut,
      ClauseLaidOut.terminals otherwise rfl clauseLaidOut]
  | .whileLoop _ _ body otherwise, _, laidOut => by
    obtain ⟨first, second, rfl, ⟨_, -, bodyLaidOut⟩, clauseLaidOut⟩ := laidOut
    rw [List.cons_append, lineTerminals_cons, lineTerminals_append, Stmt.terminals,
      AllLaidOut.terminals body bodyLaidOut, ClauseLaidOut.terminals otherwise rfl clauseLaidOut]
    rfl
  | .forLoop _ _ _ body otherwise, _, laidOut => by
    obtain ⟨first, second, rfl, ⟨_, -, bodyLaidOut⟩, clauseLaidOut⟩ := laidOut
    rw [List.cons_append, lineTerminals_cons, lineTerminals_append, Stmt.terminals,
      AllLaidOut.terminals body bodyLaidOut, ClauseLaidOut.terminals otherwise rfl clauseLaidOut]
    rfl
  | .attempt _ body handlers otherwise cleanup, _, laidOut => by
    obtain ⟨first, second, third, fourth, rfl, ⟨_, -, bodyLaidOut⟩, handlersLaidOut, clauseLaidOut,
      lastLaidOut⟩ := laidOut
    rw [List.cons_append, lineTerminals_cons, lineTerminals_append, lineTerminals_append,
      lineTerminals_append, Stmt.terminals, AllLaidOut.terminals body bodyLaidOut,
      HandlersLaidOut.terminals handlers handlersLaidOut,
      ClauseLaidOut.terminals otherwise rfl clauseLaidOut,
      ClauseLaidOut.terminals cleanup rfl lastLaidOut]
    rfl
  | .functionDef _ _ _ body, _, laidOut => by
    obtain ⟨first, rfl, _, -, bodyLaidOut⟩ := laidOut
    rw [lineTerminals_cons, Stmt.terminals, AllLaidOut.terminals body bodyLaidOut]
    rfl
  | .classDef _ _ _ body, _, laidOut => by
    obtain ⟨first, rfl, _, -, bodyLaidOut⟩ := laidOut
    rw [lineTerminals_cons, Stmt.terminals, AllLaidOut.terminals body bodyLaidOut]
    rfl

theorem AllLaidOut.terminals {depth : Nat} : (statements : List Stmt) → {lines : List Line} →
    AllLaidOut depth statements lines → Stmt.terminalsOf statements = lineTerminals lines
  | [], _, laidOut => by
    obtain rfl := laidOut
    rfl
  | statement :: rest, _, laidOut => by
    obtain ⟨first, others, rfl, statementLaidOut, restLaidOut⟩ := laidOut
    rw [lineTerminals_append, Stmt.terminalsOf, LaidOut.terminals statement statementLaidOut,
      AllLaidOut.terminals rest restLaidOut]

theorem ClauseLaidOut.terminals {depth : Nat} {header : Header} : (found : Option (List Stmt)) →
    {lines : List Line} → header.terminals = [] → ClauseLaidOut depth header found lines →
    Stmt.terminalsOf? found = lineTerminals lines
  | none, _, _, laidOut => by
    obtain rfl := laidOut
    rfl
  | some body, _, silent, laidOut => by
    obtain ⟨_, first, rfl, _, -, bodyLaidOut⟩ := laidOut
    rw [lineTerminals_cons, Stmt.terminalsOf?, AllLaidOut.terminals body bodyLaidOut,
      Content.terminals, silent, List.nil_append]

theorem BranchesLaidOut.terminals {depth : Nat} {header : Expr → Header} :
    (branches : List Branch) → {lines : List Line} →
    (∀ condition, (header condition).terminals = condition.terminals) →
    BranchesLaidOut depth header branches lines → Branch.terminalsOf branches = lineTerminals lines
  | [], _, _, laidOut => by
    obtain rfl := laidOut
    rfl
  | .mk _ condition body :: rest, _, same, laidOut => by
    obtain ⟨first, others, rfl, ⟨_, -, bodyLaidOut⟩, restLaidOut⟩ := laidOut
    rw [List.cons_append, lineTerminals_cons, lineTerminals_append, Branch.terminalsOf,
      AllLaidOut.terminals body bodyLaidOut,
      BranchesLaidOut.terminals rest (fun _ => rfl) restLaidOut, Content.terminals, same]

theorem HandlersLaidOut.terminals {depth : Nat} : (handlers : List Handler) → {lines : List Line} →
    HandlersLaidOut depth handlers lines → Handler.terminalsOf handlers = lineTerminals lines
  | [], _, laidOut => by
    obtain rfl := laidOut
    rfl
  | .mk _ _ _ body :: rest, _, laidOut => by
    obtain ⟨first, others, rfl, ⟨_, -, bodyLaidOut⟩, restLaidOut⟩ := laidOut
    rw [List.cons_append, lineTerminals_cons, lineTerminals_append, Handler.terminalsOf,
      AllLaidOut.terminals body bodyLaidOut, HandlersLaidOut.terminals rest restLaidOut]
    rfl

end

end Block

/-! ### Programs -/

namespace Lexer

theorem closed_scan (file : String) (marker : Option Char) (line : Nat) (text : List Char) :
    (scan file marker line text).Closed := by
  fun_induction scan file marker line text with
  | case1 => exact rfl
  | case2 _ _ _ _ _ inductionHypothesis => exact inductionHypothesis
  | case3 => trivial
  | case4 _ _ _ _ _ inductionHypothesis => exact inductionHypothesis
  | case5 _ _ _ _ _ inductionHypothesis =>
    rw [Stream.Closed, if_neg (by simp)]
    dsimp only
    split
    next uniform =>
      rw [Stream.Closed, if_neg (by simp)]
      exact inductionHypothesis
    next => trivial
  | case6 _ _ _ _ _ _ _ taken success inductionHypothesis =>
    obtain ⟨_, -, -, spells, -⟩ := spells_of_take success
    rw [Stream.Closed, if_neg]
    · exact inductionHypothesis
    · intro (isEnd : taken.lexeme = .endOfFile)
      rw [isEnd] at spells
      exact spells.writtenAs
  | case7 => trivial

theorem closed_stream (file text : String) : (stream file text).Closed := by
  unfold stream streamFrom
  dsimp only
  split
  · exact closed_scan _ _ _ _
  · trivial

end Lexer

/-- The terminals of a program are those of the tokens of its text, if no opening brace in it comes
right after the end of an operand. -/
theorem Program.terminals_of_parse {file source : String} {program : Program}
    (parsed : parse file source = .ok program) :
    ∃ tokens, Lexer.tokenize file source = .ok tokens ∧
      (bracesApart 0 false tokens = true →
        Stmt.terminalsOf program = tokens.flatMap fun token => token.lexeme.terminals) := by
  unfold parse at parsed
  split at parsed
  next => cases parsed
  next lines read =>
    split at parsed
    next statements grouped =>
      cases parsed
      obtain ⟨laidOut, -⟩ := Block.group_eq_ok.mp grouped
      obtain ⟨noFault, conserves⟩ :=
        Line.terminals_of_readAll read (Lexer.closed_stream file source)
      refine ⟨(Lexer.stream file source).tokens, ?_, fun apart => ?_⟩
      · rw [Lexer.tokenize, noFault]
      · have start : Row.Apart [] [] (Lexer.stream file source).tokens :=
          ⟨⟨0, false, apart, Nat.le_refl _, id⟩, fun _ impossible => by cases impossible⟩
        rw [Block.AllLaidOut.terminals _ laidOut, Block.lineTerminals_filterMap, ← conserves start]
        rfl
    next => cases parsed

/-- A dict in braces that stand alone. -/
theorem Program.terminals_of_parse_dict :
    ∃ program tokens, parse "main" "\x7b'k': [1, None]\x7d" = .ok program ∧
      Lexer.tokenize "main" "\x7b'k': [1, None]\x7d" = .ok tokens ∧
      bracesApart 0 false tokens = true ∧
      Stmt.terminalsOf program = [.string "k", .integer 1, .none] := by
  let literal : Literal := .dict [(.str "k", .list [.int 1, .none])]
  have wellFormed : literal.WellFormed := by
    simp [literal, Literal.WellFormed, Literal.WellFormedEntries, Literal.WellFormedAll,
      Literal.Hashable]
    decide
  have text : literal.text = "\x7b'k': [1, None]\x7d" := by cbv
  have streamed := Lexer.stream_text "main" literal
  have parsed := Program.parse_text "main" wellFormed
  rw [text] at streamed parsed
  obtain ⟨tokens, tokenized, conserves⟩ := terminals_of_parse parsed
  have isTokens : tokens = (Lexer.stream "main" "\x7b'k': [1, None]\x7d").tokens := by
    rw [Lexer.tokenize, streamed] at tokenized
    rw [streamed]
    cases tokenized
    rfl
  have apart : bracesApart 0 false tokens = true := by
    rw [isTokens, streamed]
    cbv
  refine ⟨_, tokens, parsed, tokenized, apart, (conserves apart).trans ?_⟩
  rw [isTokens, streamed]
  cbv

end Offside
