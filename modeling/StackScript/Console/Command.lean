import StackScript.Text.Alphabet

/-!
# Console commands

A line that starts with a dot and a known word is a command; what follows the word is its argument.
-/

namespace StackScript.Console

/-- A command of the console. -/
inductive Command where
  | help
  | exit
  | clear
  | version
  | load
  | bytecode
  deriving DecidableEq

namespace Command

/-- The command that a word in lowercase letters stands for. -/
def ofWord? (word : String) : Option Command :=
  match word with
  | "help" | "h" | "?" => some help
  | "exit" | "quit" | "q" => some exit
  | "clear" | "cls" => some clear
  | "version" | "v" => some version
  | "load" | "l" => some load
  | "bytecode" | "bc" => some bytecode
  | _ => none

/-- The command of a line, and its argument, if there is one. The case of ASCII letters does not
matter; no other letter has a lowercase form in any of the words. -/
def parse (line : String) : Option (Command × Option String) :=
  match Text.trim line.toList with
  | '.' :: cs => do
    let word := cs.takeWhile (!Text.isBlank ·)
    let argument := Text.trim (cs.drop word.length)
    let command ← ofWord? (String.ofList (word.map Char.toLower))
    return (command, if argument.isEmpty then none else some (String.ofList argument))
  | _ => none

/-- What the help says of each command. -/
def descriptions : List (String × String) :=
  [(".help", "Show this help message"),
    (".exit", "Exit the REPL"),
    (".clear", "Clear the screen"),
    (".version", "Show version information"),
    (".load <file>", "Load and execute a Quill file"),
    (".bytecode <code>", "Show the bytecode compiled for <code>")]

end Command

end StackScript.Console
