import StackScript.Program.Error
import StackScript.Program.Grammar
import StackScript.Token.Scan

/-!
# Reading programs from source text

A reader holds the tokens of a source that are still to be read. The grammar sees their lexemes
only; the length of what it leaves tells the reader where it stopped.
-/

namespace StackScript

/-- How a message shows what is missing. -/
def Expected.describe : Expected → String
  | expression => "expression"
  | name => "identifier"
  | .mark m => m.spelling

/-- The tokens still to be read, and the byte offset of the end of the source. -/
structure Reader where
  tokens : List Token
  stop : Nat

namespace Reader

/-- All tokens of a source. -/
def ofSource (source : String) : Reader :=
  ⟨(Cursor.ofSource source).tokens, source.utf8ByteSize⟩

/-- What the tokens say. -/
def lexemes (reader : Reader) : List Lexeme :=
  reader.tokens.map Token.lexeme

/-- The last `count` tokens. -/
def last (reader : Reader) (count : Nat) : Reader :=
  { reader with tokens := reader.tokens.drop (reader.tokens.length - count) }

/-- The error for a complaint about the first token. Text without an end and characters that start
no token are errors of their own, whatever was missing. -/
def explain (reader : Reader) : Complaint → SyntaxError
  | .tooLarge digits => .invalidInteger digits (reader.tokens.head?.elim reader.stop (·.span.start))
  | .missing expected =>
    match reader.tokens with
    | [] => .unexpectedToken expected.describe endOfInput reader.stop
    | token :: _ =>
      match token.lexeme with
      | .unclosedText => .unterminatedString token.span.start
      | .illegal c => .illegalCharacter c token.span.start
      | found => .unexpectedToken expected.describe found.describe token.span.start

/-- Read a form of the grammar. The reader goes on where reading stopped, after a failure too. -/
def read (reader : Reader) (form : List Lexeme → Outcome α) : Except SyntaxError α × Reader :=
  match form reader.lexemes with
  | .ok value rest => (.ok value, reader.last rest.length)
  | .error complaint rest =>
    let stopped := reader.last rest.length
    (.error (stopped.explain complaint), stopped)

/-- Read one statement. -/
def statement (reader : Reader) : Except SyntaxError Stmt × Reader :=
  reader.read fun ts => (Parse.statement ts).val

/-- Read one expression. -/
def expression (reader : Reader) : Except SyntaxError Expr × Reader :=
  reader.read fun ts => (Parse.expression ts).val

/-- Read statements up to the end. -/
def program (reader : Reader) : Except SyntaxError Program × Reader :=
  reader.read Parse.program

end Reader

/-- The program that a source is. -/
def Program.parse (source : String) : Except SyntaxError Program :=
  (Reader.ofSource source).program.1

end StackScript
