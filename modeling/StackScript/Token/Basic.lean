/-!
# Tokens

A token says what was read and where it stands: the byte offsets of its first character and of the
place behind its last one. The end of the source is no token; it is the place where the list of
tokens ends.
-/

namespace StackScript

/-- A reserved word. -/
inductive Keyword where
  | function
  | binding
  | truth
  | falsity
  | condition
  | alternative
  | result
  deriving DecidableEq

namespace Keyword

/-- All reserved words. -/
def all : List Keyword :=
  [function, binding, truth, falsity, condition, alternative, result]

/-- The text of a reserved word. -/
def spelling : Keyword → String
  | function => "fn"
  | binding => "let"
  | truth => "true"
  | falsity => "false"
  | condition => "if"
  | alternative => "else"
  | result => "return"

/-- The reserved word with a given text. -/
def ofSpelling? (text : String) : Option Keyword :=
  all.find? fun word => word.spelling == text

/-- A text is that of a reserved word exactly when the word is found for it. -/
theorem ofSpelling?_eq_some_iff {text : String} {word : Keyword} :
    ofSpelling? text = some word ↔ word.spelling = text := by
  constructor
  · intro h
    simpa using List.find?_some h
  · rintro rfl
    cases word <;> decide

end Keyword

/-- An operator, a bracket or a separator. -/
inductive Mark where
  | assign
  | plus
  | minus
  | bang
  | star
  | slash
  | less
  | greater
  | equal
  | notEqual
  | comma
  | semicolon
  | colon
  | openParen
  | closeParen
  | openBrace
  | closeBrace
  | openBracket
  | closeBracket
  deriving DecidableEq

/-- The text of a mark. -/
def Mark.spelling : Mark → String
  | assign => "="
  | plus => "+"
  | minus => "-"
  | bang => "!"
  | star => "*"
  | slash => "/"
  | less => "<"
  | greater => ">"
  | equal => "=="
  | notEqual => "!="
  | comma => ","
  | semicolon => ";"
  | colon => ":"
  | openParen => "("
  | closeParen => ")"
  | openBrace => "\x7b"
  | closeBrace => "\x7d"
  | openBracket => "["
  | closeBracket => "]"

/-- What a token says. -/
inductive Lexeme where
  | integer (digits : String)
  | text (value : String)
  | name (id : String)
  | keyword (word : Keyword)
  | mark (mark : Mark)
  | unclosedText
  | illegal (c : Char)
  deriving DecidableEq

/-- A range of byte offsets of the source. -/
structure Span where
  start : Nat
  stop : Nat
  deriving DecidableEq

namespace Span

/-- The number of bytes in a range. -/
def length (span : Span) : Nat :=
  span.stop - span.start

/-- A range that ends where it starts holds no byte. -/
def isEmpty (span : Span) : Bool :=
  span.start = span.stop

end Span

/-- A lexeme and its place in the source. -/
structure Token where
  lexeme : Lexeme
  span : Span
  deriving DecidableEq

end StackScript
