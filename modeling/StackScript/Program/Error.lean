import StackScript.Text.Quoted
import StackScript.Token.Basic

/-!
# Syntax errors

An error names the place where reading had to stop, as a byte offset.
-/

namespace StackScript

/-- Why a source is not a program. -/
inductive SyntaxError where
  | unexpectedToken (expected found : String) (offset : Nat)
  | invalidInteger (literal : String) (offset : Nat)
  | unterminatedString (offset : Nat)
  | illegalCharacter (c : Char) (offset : Nat)
  deriving DecidableEq

namespace SyntaxError

/-- The text of a syntax error. -/
def message : SyntaxError → String
  | unexpectedToken expected found offset =>
    "expected " ++ expected ++ ", found " ++ found ++ " at offset " ++ toString offset
  | invalidInteger literal offset =>
    "could not parse " ++ literal ++ " as integer at offset " ++ toString offset
  | unterminatedString offset => "unterminated string at offset " ++ toString offset
  | illegalCharacter c offset =>
    "illegal character " ++ Text.quoteChar c ++ " at offset " ++ toString offset

/-- The byte offset that a syntax error points at. -/
def offset : SyntaxError → Nat
  | unexpectedToken _ _ offset => offset
  | invalidInteger _ offset => offset
  | unterminatedString offset => offset
  | illegalCharacter _ offset => offset

end SyntaxError

/-- How a message shows a lexeme: a text literal stands between quotes, as its contents are. -/
def Lexeme.describe : Lexeme → String
  | integer digits => digits
  | text value => "\"" ++ value ++ "\""
  | name id => id
  | keyword word => word.spelling
  | .mark m => m.spelling
  | unclosedText => "unterminated string"
  | illegal c => Text.quoteChar c

/-- How a message shows the end of the source. -/
def endOfInput : String := "end of input"

end StackScript
