import StackScript.Text.Alphabet
import StackScript.Text.Bytes
import StackScript.Token.Basic

/-!
# Reading tokens

A token begins at the first character that is neither blank nor part of a comment, and takes as
many characters as its class allows. A reading function returns how many characters it takes, so
the characters of a token and what is left are always `take` and `drop` of the same list.

## Implementation notes

The readers of layout and of text carry what they have read so far, and the list of tokens is
built in reverse: all three are loops, whatever the length of the source. The scanner asks of a
character only what its alphabet says of it.
-/

namespace StackScript

namespace Lexeme

variable [Text.Alphabet]

/-- The number of leading characters that are blank or belong to a comment, added to `taken`.
A comment starts with two slashes and ends with the line. -/
def layoutLength : (inComment : Bool) → (taken : Nat) → List Char → Nat
  | _, taken, [] => taken
  | true, taken, c :: cs => layoutLength (c != '\n') (taken + 1) cs
  | false, taken, '/' :: '/' :: cs => layoutLength true (taken + 2) cs
  | false, taken, c :: cs =>
    if Text.isBlank c then layoutLength false (taken + 1) cs else taken

/-- The character that stands for `c` after a backslash. -/
def unescape (c : Char) : Char :=
  if c = 'n' then '\n' else if c = 't' then '\t' else if c = 'r' then '\r' else c

/-- The rest of a text literal behind its opening quote: the text `value` read so far, in reverse,
the number of characters `taken` for it, and the characters that follow. -/
def readText (value : List Char) (taken : Nat) : List Char → Lexeme × Nat
  | [] => (unclosedText, taken)
  | '"' :: _ => (text (String.ofList value.reverse), taken + 1)
  | ['\\'] => (unclosedText, taken + 1)
  | '\\' :: c :: cs => readText (unescape c :: value) (taken + 2) cs
  | c :: cs => readText (c :: value) (taken + 1) cs

/-- A mark that grows by a second character when an equals sign follows. -/
def beforeEqual (single double : Mark) : List Char → Lexeme × Nat
  | '=' :: _ => (mark double, 1)
  | _ => (mark single, 0)

/-- A reserved word, or else a name. -/
def ofWord (word : String) : Lexeme :=
  match Keyword.ofSpelling? word with
  | some reserved => keyword reserved
  | none => name word

/-- The characters of a class at the front of a list, as a lexeme that starts with `c`. -/
def readRun (ofRun : String → Lexeme) (inRun : Char → Bool) (c : Char) (cs : List Char) :
    Lexeme × Nat :=
  let run := cs.takeWhile inRun
  (ofRun (String.ofList (c :: run)), run.length)

/-- The lexeme that starts with `c`, and how many of the following characters it takes. -/
def read (c : Char) (cs : List Char) : Lexeme × Nat :=
  if c = '\x7b' then (mark .openBrace, 0)
  else if c = '\x7d' then (mark .closeBrace, 0)
  else if c = '(' then (mark .openParen, 0)
  else if c = ')' then (mark .closeParen, 0)
  else if c = '[' then (mark .openBracket, 0)
  else if c = ']' then (mark .closeBracket, 0)
  else if c = ';' then (mark .semicolon, 0)
  else if c = ',' then (mark .comma, 0)
  else if c = ':' then (mark .colon, 0)
  else if c = '+' then (mark .plus, 0)
  else if c = '-' then (mark .minus, 0)
  else if c = '*' then (mark .star, 0)
  else if c = '/' then (mark .slash, 0)
  else if c = '<' then (mark .less, 0)
  else if c = '>' then (mark .greater, 0)
  else if c = '=' then beforeEqual .assign .equal cs
  else if c = '!' then beforeEqual .bang .notEqual cs
  else if c = '"' then readText [] 0 cs
  else if c.isDigit then readRun integer Char.isDigit c cs
  else if Text.isIdentifierStart c then readRun ofWord Text.isIdentifierPart c cs
  else (illegal c, 0)

end Lexeme

/-- A place in a source: the bytes in front of it, and the characters behind. -/
structure Cursor where
  offset : Nat
  rest : List Char

namespace Cursor

/-- The start of a source. -/
def ofSource (source : String) : Cursor :=
  ⟨0, source.toList⟩

/-- The place behind the next `count` characters. -/
def advance (cursor : Cursor) (count : Nat) : Cursor :=
  ⟨cursor.offset + Text.byteLength (cursor.rest.take count), cursor.rest.drop count⟩

@[simp] theorem rest_advance (cursor : Cursor) (count : Nat) :
    (cursor.advance count).rest = cursor.rest.drop count := rfl

variable [Text.Alphabet]

/-- The place behind the layout. -/
def skipLayout (cursor : Cursor) : Cursor :=
  cursor.advance (Lexeme.layoutLength false 0 cursor.rest)

/-- The next token and the place behind it, if there is a token before the end of the source. -/
def next? (cursor : Cursor) : Option (Token × Cursor) :=
  let start := cursor.skipLayout
  match start.rest with
  | [] => none
  | c :: cs =>
    let (lexeme, more) := Lexeme.read c cs
    let stop := start.advance (more + 1)
    some (⟨lexeme, ⟨start.offset, stop.offset⟩⟩, stop)

/-- Every token takes at least one character. -/
theorem length_lt_of_next? {cursor stop : Cursor} {token : Token}
    (h : cursor.next? = some (token, stop)) : stop.rest.length < cursor.rest.length := by
  simp only [next?] at h
  split at h
  · simp at h
  · next c cs hrest =>
      simp only [Option.some.injEq, Prod.mk.injEq] at h
      have hlength : cs.length + 1 ≤ cursor.rest.length := by
        have := congrArg List.length hrest
        simp only [skipLayout, rest_advance, List.length_drop, List.length_cons] at this
        omega
      rw [← h.2]
      simp only [rest_advance, hrest, List.length_drop, List.length_cons]
      omega

/-- The tokens from a place to the end of the source, behind those `found` so far in reverse. -/
def tokensOnto (found : List Token) (cursor : Cursor) : List Token :=
  match _ : cursor.next? with
  | none => found.reverse
  | some (token, stop) => tokensOnto (token :: found) stop
termination_by cursor.rest.length
decreasing_by exact length_lt_of_next? ‹_›

/-- The tokens from a place to the end of the source. -/
def tokens (cursor : Cursor) : List Token :=
  cursor.tokensOnto []

theorem tokensOnto_none {cursor : Cursor} (h : cursor.next? = none) (found : List Token) :
    cursor.tokensOnto found = found.reverse := by
  rw [tokensOnto]
  split <;> simp_all

theorem tokensOnto_some {cursor stop : Cursor} {token : Token}
    (h : cursor.next? = some (token, stop)) (found : List Token) :
    cursor.tokensOnto found = stop.tokensOnto (token :: found) := by
  rw [tokensOnto]
  split
  · simp_all
  · rename_i heq
    rw [h] at heq
    cases heq
    rfl

/-- What was found before stands in front, whatever it is. -/
theorem tokensOnto_eq_append (found : List Token) (cursor : Cursor) :
    cursor.tokensOnto found = found.reverse ++ cursor.tokens := by
  unfold tokens
  match h : cursor.next? with
  | none => simp [tokensOnto_none h]
  | some (token, stop) =>
      rw [tokensOnto_some h, tokensOnto_some h, tokensOnto_eq_append (token :: found) stop,
        tokensOnto_eq_append [token] stop]
      simp
termination_by cursor.rest.length
decreasing_by all_goals exact length_lt_of_next? h

theorem tokens_of_none {cursor : Cursor} (h : cursor.next? = none) : cursor.tokens = [] := by
  simp [tokens, tokensOnto_none h]

theorem tokens_of_some {cursor stop : Cursor} {token : Token}
    (h : cursor.next? = some (token, stop)) : cursor.tokens = token :: stop.tokens := by
  simp [tokens, tokensOnto_some h, tokensOnto_eq_append [token] stop]

end Cursor

end StackScript
