import StackScript.Builtin
import StackScript.Console.Command
import StackScript.Console.Style
import StackScript.Text.Alphanumeric
import StackScript.Text.Bytes

/-!
# Completions and hints

The word under the cursor runs back to the last separator in front of it. Its start is taken to lie
one byte behind the start of the separator, which is inside the separator if that is longer than one
byte; there the line cannot be cut, and no word is found.
-/

namespace StackScript.Console

/-- The words of the language that the console highlights as such. -/
def keywords : List String := ["fn", "let", "if", "else", "return"]

/-- The literals that are words. -/
def literals : List String := ["true", "false"]

/-- The word of a command, without the description of its argument. -/
def commandWord (command : String) : String :=
  String.ofList (command.toList.takeWhile (!Text.isBlank ·))

/-- All words that can be completed. -/
def words : List String :=
  keywords ++ literals ++ Builtin.all.map Builtin.name ++
    Command.descriptions.map fun (command, _) => commandWord command

/-- A character that ends the word in front of the cursor. -/
def isSeparator (c : Char) : Bool :=
  !Text.isAlphanumeric c && c != '_' && c != '.'

/-- The byte offset at which the word at the end of a text is taken to start. -/
def wordStart (front : List Char) : Nat :=
  let word := front.reverse.takeWhile (!isSeparator ·)
  match front.reverse.drop word.length with
  | [] => 0
  | _ :: before => Text.byteLength before + 1

/-- The word at the end of a text, if the text can be cut where the word is taken to start. -/
def lastWord? (front : List Char) : Option (List Char) :=
  (Text.cutAt? front (wordStart front)).map Prod.snd

/-- What is left of a word of the console behind the characters in front. -/
def remainder? (front : List Char) (word : String) : Option String :=
  if front.isPrefixOf word.toList then some (String.ofList (word.toList.drop front.length))
  else none

/-- The words that the word at the end of a text can grow to, each with what has to be added. -/
def completions? (front : List Char) : Option (List (String × String)) :=
  (lastWord? front).map fun word =>
    if word.isEmpty then []
    else words.filterMap fun candidate => (remainder? word candidate).map (candidate, ·)

/-- What the first longer word adds to the word at the end of a line, if that is longer than one
byte. -/
def hint? [Palette] (line : List Char) : Option (Option String) :=
  (lastWord? line).map fun word =>
    if Text.byteLength word < 2 then none
    else
      (words.filterMap (remainder? word)).find? (· ≠ "") |>.map (paint .dimmed)

/-- What the console offers for a line with the cursor at a byte offset: where to insert and what,
or nothing if the line cannot be cut. -/
structure Completion where
  start : Nat
  candidates : List (String × String)

/-- The completions for a line with the cursor at a byte offset. -/
def complete? (line : String) (cursor : Nat) : Option Completion := do
  let (front, _) ← Text.cutAt? line.toList cursor
  let candidates ← completions? front
  return ⟨cursor, candidates⟩

/-- The hint for a line with the cursor at a byte offset: there is one only at the end. -/
def hintAt? [Palette] (line : String) (cursor : Nat) : Option (Option String) :=
  if cursor < line.utf8ByteSize then some none else hint? line.toList

end StackScript.Console
