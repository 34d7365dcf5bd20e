import StackScript.Console.Completion

/-!
# Highlighting

A line falls into words, text literals and single characters, and each of these is shown in its own
style. A text literal ends with the next quote, even behind a backslash, or with the line.
-/

namespace StackScript.Console

/-- A part of a line that is shown in one style. -/
inductive Piece where
  | word (cs : List Char)
  | text (cs : List Char)
  | single (c : Char)
  deriving DecidableEq

/-- The characters of a part. -/
def Piece.chars : Piece → List Char
  | word cs => cs
  | text cs => cs
  | single c => [c]

/-- A character of a word. -/
def isWordPart (c : Char) : Bool :=
  Text.isAlphanumeric c || c = '_'

/-- The number of characters of a text literal behind its opening quote. -/
def textLength (cs : List Char) : Nat :=
  let inner := (cs.takeWhile (· ≠ '"')).length
  if inner < cs.length then inner + 1 else inner

/-- The parts of a line. -/
def pieces (cs : List Char) : List Piece :=
  match cs with
  | [] => []
  | c :: cs =>
    if isWordPart c then
      let more := (cs.takeWhile isWordPart).length
      .word (c :: cs.take more) :: pieces (cs.drop more)
    else if c = '"' then
      let more := textLength cs
      .text (c :: cs.take more) :: pieces (cs.drop more)
    else .single c :: pieces cs
termination_by cs.length
decreasing_by all_goals simp only [List.length_drop, List.length_cons]; omega

/-- No character of a line is lost or added. -/
theorem flatMap_chars_pieces (cs : List Char) : (pieces cs).flatMap Piece.chars = cs := by
  fun_induction pieces cs with
  | case1 => rfl
  | case2 c cs _ more ih => simp [Piece.chars, ih]
  | case3 cs _ more ih => simp [Piece.chars, ih]
  | case4 c cs _ _ ih => simp [Piece.chars, ih]

variable [Palette]

/-- A word in the style of its class. -/
def styledWord (word : String) : String :=
  if keywords.contains word then paint .bold (paint .magenta word)
  else if literals.contains word then paint .blue word
  else if (Builtin.ofName? word).isSome then paint .cyan word
  else if word.toList.all Char.isDigit then paint .yellow word
  else word

/-- A single character in the style of its class. A dot is part of a command if the line starts
with one. -/
def styledChar (isCommand : Bool) (c : Char) : String :=
  if "()[]\x7b\x7d".toList.contains c then paint .yellow c.toString
  else if "+-*/=<>!".toList.contains c then paint .cyan c.toString
  else if c = '.' && isCommand then paint .magenta c.toString
  else c.toString

/-- A part of a line in its style. -/
def Piece.styled (isCommand : Bool) : Piece → String
  | word cs => styledWord (String.ofList cs)
  | text cs => paint .green (String.ofList cs)
  | single c => styledChar isCommand c

/-- A line in its styles. -/
def highlight (line : String) : String :=
  String.join ((pieces line.toList).map (Piece.styled (line.toList.head? = some '.')))

end StackScript.Console
