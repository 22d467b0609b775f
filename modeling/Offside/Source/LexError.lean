/-
This file lists what can be wrong with the characters of a source text, before
any grammar is involved, and how each fault is reported. A report has a kind, by
which tools recognise it, and a reason for the reader.
-/

import Offside.Source.Location
import Offside.Text.Shown

namespace Offside

/-- A fault in the characters of a source text. -/
inductive LexFault where
  /-- A line is indented with the other blank than the file used first. -/
  | mixedIndentation
  | carriageReturn
  | carriageReturnInString
  | lineEndInString
  | unknownEscape (c : Char)
  | escapeAtEnd
  /-- The text ends inside a string that starts with these quotes. -/
  | unterminatedString (opening : String)
  /-- The remainder of the line starts with no token. -/
  | noToken (remainder : String)
  | malformedNumber (digits : String)
deriving Repr, DecidableEq

def LexFault.kind : LexFault → String
  | .mixedIndentation => "MixedIndentation"
  | .carriageReturn => "CarriageReturnDetected"
  | .carriageReturnInString => "CarriageReturnDetected"
  | .lineEndInString => "ParseStringFailed"
  | .unknownEscape _ => "ParseStringFailed"
  | .escapeAtEnd => "UnterminatedString"
  | .unterminatedString _ => "UnterminatedString"
  | .noToken _ => "NoLexMatch"
  | .malformedNumber _ => "MalformedNumber"

def LexFault.reason : LexFault → String
  | .mixedIndentation => "indentation mixes tabs and spaces"
  | .carriageReturn => "carriage return (CR) characters are not allowed"
  | .carriageReturnInString => "carriage return in string"
  | .lineEndInString => "line ended inside a single-line string"
  | .unknownEscape c => "backslash followed by " ++ Text.shown (String.singleton c)
  | .escapeAtEnd => "string backslash escape interrupted by end of file"
  | .unterminatedString opening => "end of file reached in a string starting with " ++ opening
  | .noToken remainder => "no token matches " ++ Text.shown remainder
  | .malformedNumber digits => "more than one \".\" in number " ++ digits

/-- A fault and the line on which it was noticed. -/
structure LexError where
  fault : LexFault
  location : Location
deriving Repr, DecidableEq

def LexError.message (error : LexError) : String :=
  error.fault.kind ++ ": " ++ error.fault.reason

end Offside
