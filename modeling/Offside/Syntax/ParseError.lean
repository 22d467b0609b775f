/-
This file lists what can be wrong with a program whose tokens are in order, and
how each fault is worded. Faults of layout, where a line is indented in a way
that no block explains, are told apart from all other faults of grammar.

Reading a source text fails either in its characters or in its grammar; both
kinds of failure together are a `SourceError`.
-/

import Offside.Source.LexError
import Offside.Source.Token

namespace Offside

/-- A fault of grammar. Tokens that a message names are given by their display. -/
inductive ParseFault where
  -- Tokens out of place
  | expected (kind : Kind) (found : String)
  | expectedExpression (found : String)
  | expectedExpressionAfter (text : String)
  | unexpected (found : String)
  | unmatchedCloser (closer : Symbol)
  | mismatchedCloser (closer : Symbol) (opener : Symbol) (line : Nat)
  | neverClosed (opener : Symbol)
  | unexpectedInGroup (found : String)
  -- Operands
  | integerTooLarge (digits : String)
  | invalidNumber (digits : String)
  | expectedAttributeName (found : String)
  | dotWithoutObject
  | operandBefore (operator : String)
  | operandAfter (operator : String)
  | missingOperator
  | missingParentheses
  | emptyExpression
  -- Bracket groups
  | emptyElement (bracket : Bracket)
  | emptyArgument
  | argumentNameNotIdentifier
  | positionalAfterNamed
  | strayAssignment
  | emptySubscript
  | tooManyBounds
  | noComprehensionOutput
  | noComprehensionCondition
  | noComprehensionMembership
  | malformedEntry
  -- Statements
  | cannotAssign (description : String)
  | cannotDelete (description : String)
  | noLoopSource
  | duplicateParameter (name : String)
  | parameterWithoutDefault (name : String)
  | starNotAlone
  -- Blocks
  | unexpectedIndent
  | expectedBlock (keyword : Keyword) (line : Nat)
  | unmatchedUnindent
  | strayClause (keyword : Keyword)
  | outsideLoop (keyword : Keyword)
  | returnOutsideFunction
  | bareExceptNotLast
  | elseWithoutExcept
  | tryAlone
deriving Repr, DecidableEq

/-- The fault is one of layout. -/
def ParseFault.isLayout : ParseFault → Bool
  | .unexpectedIndent => true
  | .expectedBlock .. => true
  | .unmatchedUnindent => true
  | _ => false

def ParseFault.kind (fault : ParseFault) : String :=
  if fault.isLayout then "IndentationError" else "SyntaxError"

open Text (quote) in
def ParseFault.reason : ParseFault → String
  | .expected kind found => "expected " ++ quote kind.name ++ ", found " ++ quote found
  | .expectedExpression found => "expected expression, found " ++ quote found
  | .expectedExpressionAfter text => "expected expression after " ++ quote text
  | .unexpected found => "invalid syntax: unexpected " ++ quote found
  | .unmatchedCloser closer => "unmatched " ++ quote closer.spelling
  | .mismatchedCloser closer opener line =>
    "closing " ++ quote closer.spelling ++ " does not match opening " ++ quote opener.spelling ++
      " on line " ++ toString line
  | .neverClosed opener => quote opener.spelling ++ " was never closed"
  | .unexpectedInGroup found => "unexpected " ++ quote found
  | .integerTooLarge digits => "integer literal " ++ digits ++ " is too large"
  | .invalidNumber digits => "invalid number " ++ digits
  | .expectedAttributeName found => "expected attribute name after \".\", found " ++ quote found
  | .dotWithoutObject => "invalid syntax: \".\" without an object"
  | .operandBefore operator => "expected operand before " ++ quote operator
  | .operandAfter operator => "expected operand after " ++ quote operator
  | .missingOperator => "invalid syntax: two expressions without an operator"
  | .missingParentheses => "invalid syntax: did you mean a tuple? Add parentheses"
  | .emptyExpression => "invalid syntax"
  | .emptyElement bracket => "invalid syntax: empty element in " ++ quote bracket.pair
  | .emptyArgument => "invalid syntax: empty argument"
  | .argumentNameNotIdentifier => "keyword argument name must be an identifier"
  | .positionalAfterNamed => "positional argument follows keyword argument"
  | .strayAssignment => "invalid syntax: unexpected \"=\""
  | .emptySubscript => "expected index between \"[]\""
  | .tooManyBounds => "a slice takes at most three positions"
  | .noComprehensionOutput => "list comprehension needs an output expression"
  | .noComprehensionCondition => "expected condition after \"if\""
  | .noComprehensionMembership => "expected \"target in iterable\" in list comprehension"
  | .malformedEntry => "every dict display entry needs the form \"key: value\""
  | .cannotAssign description => "cannot assign to " ++ description
  | .cannotDelete description => "cannot delete " ++ description
  | .noLoopSource => "expected \"of\" or \"in\" in for statement"
  | .duplicateParameter name => "duplicate argument " ++ quote name ++ " in function definition"
  | .parameterWithoutDefault name =>
    "non-default argument " ++ quote name ++ " follows default argument"
  | .starNotAlone => "\"*\" must be the only name imported"
  | .unexpectedIndent => "unexpected indent"
  | .expectedBlock keyword line =>
    "expected an indented block after " ++ quote keyword.spelling ++ " statement on line " ++
      toString line
  | .unmatchedUnindent => "unindent does not match any outer indentation level"
  | .strayClause keyword =>
    "invalid syntax: " ++ quote keyword.spelling ++ " without a matching block"
  | .outsideLoop keyword => quote keyword.spelling ++ " outside loop"
  | .returnOutsideFunction => "\"return\" outside function"
  | .bareExceptNotLast => "default \"except:\" must be last"
  | .elseWithoutExcept => "\"else\" in a try statement requires an \"except\" clause"
  | .tryAlone => "expected \"except\" or \"finally\" block"

/-- A fault of grammar and the line that it is reported on. Only an expression without any part
has no line to report. -/
structure ParseError where
  fault : ParseFault
  location : Option Location
deriving Repr, DecidableEq

def ParseError.message (error : ParseError) : String :=
  error.fault.kind ++ ": " ++ error.fault.reason

/-- Why a source text is not a program. -/
inductive SourceError where
  | lex (error : LexError)
  | parse (error : ParseError)
deriving Repr, DecidableEq

def SourceError.kind : SourceError → String
  | .lex error => error.fault.kind
  | .parse error => error.fault.kind

def SourceError.message : SourceError → String
  | .lex error => error.message
  | .parse error => error.message

def SourceError.location? : SourceError → Option Location
  | .lex error => some error.location
  | .parse error => error.location

end Offside
