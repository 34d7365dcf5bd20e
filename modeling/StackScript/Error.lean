import StackScript.Assembly.Error
import StackScript.Machine.Error
import StackScript.Program.Error

/-!
# Errors

What goes wrong with a program goes wrong on one of four ways: in reading its file, in parsing, in
compiling or in running it.
-/

namespace StackScript

/-- Why a file has no text. -/
inductive ReadError where
  | notFound
  | isDirectory
  | notDirectory
  | notText
  deriving DecidableEq

/-- The text of a failure to read. -/
def ReadError.message : ReadError → String
  | notFound => "No such file or directory (os error 2)"
  | isDirectory => "Is a directory (os error 21)"
  | notDirectory => "Not a directory (os error 20)"
  | notText => "stream did not contain valid UTF-8"

/-- Why a program has no value. -/
inductive Error where
  | parse (error : SyntaxError)
  | compile (error : CompileError)
  | runtime (error : RuntimeError)
  | read (error : ReadError)
  deriving DecidableEq

namespace Error

/-- The kind of an error, as its message names it. -/
def kind : Error → String
  | parse _ => "SyntaxError"
  | compile _ => "CompileError"
  | runtime _ => "RuntimeError"
  | read _ => "IOError"

/-- The text of an error without its kind. -/
def cause : Error → String
  | parse error => error.message
  | compile error => error.message
  | runtime error => error.message
  | read error => error.message

/-- The text of an error. -/
def message (error : Error) : String :=
  error.kind ++ ": " ++ error.cause

end Error

end StackScript
