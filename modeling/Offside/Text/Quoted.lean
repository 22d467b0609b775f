/-
This file writes a text as a string literal of the language. The literal stands
between single quotes unless the text holds a single quote and no double quote;
inside, the backslash, the closing quote and the three control characters with a
short escape are escaped and everything else stands as it is. Reading the
literal back gives the text, because each escape is one that the lexer decodes
and no bare line break or carriage return is left.
-/

namespace Offside.Text

/-- One character inside a literal with the given delimiter. -/
def escapeChar (delimiter c : Char) : List Char :=
  if c = '\t' then ['\\', 't']
  else if c = '\n' then ['\\', 'n']
  else if c = '\r' then ['\\', 'r']
  else if c = '\\' then ['\\', '\\']
  else if c = delimiter then ['\\', c]
  else [c]

/-- The inside of a literal with the given delimiter. -/
def escapeChars (delimiter : Char) (text : List Char) : List Char :=
  text.flatMap (escapeChar delimiter)

/-- The delimiter that needs the fewer escapes: the double quote exactly when the text holds a
single quote and no double quote. -/
def quoteDelimiter (text : List Char) : Char :=
  if text.contains '\'' && !text.contains '"' then '"' else '\''

/-- The literal, as characters. -/
def quoteChars (text : List Char) : List Char :=
  let delimiter := quoteDelimiter text
  delimiter :: escapeChars delimiter text ++ [delimiter]

/-- A text as a string literal. -/
def quote (text : String) : String :=
  String.ofList (quoteChars text.toList)

end Offside.Text
