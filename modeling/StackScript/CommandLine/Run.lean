import StackScript.CommandLine.Options
import StackScript.Console.Loop

/-!
# The command line program

The program evaluates code from its arguments, or a file, or else runs the console.
-/

namespace StackScript.CommandLine

open Console (Written)

/-- What the program writes and the code that it exits with. -/
structure Result where
  exit : Nat
  written : Written := {}

/-- The files that the program sees. -/
structure Files (m : Type → Type) where
  exists? : String → m Bool
  read : String → m (Except ReadError String)

/-- The name and the version. -/
def versionLine : String :=
  "quill " ++ Console.versionText

/-- The options at a glance. -/
def usage : String :=
  "Usage: quill [OPTIONS] [FILE]\n\nOptions:\n" ++
    "  -e, --eval <CODE>       Evaluate code and print its value\n" ++
    "  -d, --disassemble       Print the bytecode instead of running it\n" ++
    "  -v, --verbose...        Log more\n" ++
    "      --stack-size <N>    Slots of the value stack\n" ++
    "      --max-frames <N>    Depth of calls\n" ++
    "  -h, --help              Print help\n" ++
    "  -V, --version           Print version"

variable [Console.Palette]

/-- The result of a listing. -/
def list (compiled : Except Error Bytecode) : Result :=
  ⟨if compiled.isOk then 0 else 1, Console.showListing compiled⟩

/-- The result of an evaluation. -/
def finish (onValue : Value → Written) (evaluation : Evaluation) : Result :=
  { exit := match evaluation.verdict with
      | .value _ => 0
      | _ => 1
    written := Console.showEvaluation onValue evaluation }

/-- Evaluate code, or list its bytecode. A value other than null is shown. -/
def runCode (options : Options) (code : String) : Result :=
  let session : Session := { limits := options.limits }
  if options.disassemble then list (session.compile code)
  else
    finish (fun value => if value.isNull then {} else .line value.render) (session.eval code).1

/-- Evaluate a text that has been read, or list its bytecode. Its value is not shown. -/
def runText (options : Options) (text : Except ReadError String) : Result :=
  let session : Session := { limits := options.limits }
  if options.disassemble then list ((text.mapError .read).bind session.compile)
  else finish (fun _ => {}) (session.evalText text).1

/-- Evaluate a file, or list its bytecode. -/
def runFile [Monad m] (files : Files m) (options : Options) (path : String) : m Result := do
  if ← files.exists? path then return runText options (← files.read path)
  else
    return { exit := 1
             written := Console.complain ("file not found '" ++ Console.paint .cyan path ++ "'") }

/-- Run the program on its arguments and its environment. The console runs if neither code nor a
file is given. -/
def run [Monad m] (files : Files m) (console : Limits → m Written) (arguments : List String)
    (environment : String → Option String) : m Result := do
  match Options.parse arguments environment with
  | .error .version => return { exit := 0, written := .line versionLine }
  | .error .help => return { exit := 0, written := .line usage }
  | .error .misuse => return { exit := 2, written := .errorLine usage }
  | .ok options =>
    match options.code, options.file with
    | some code, _ => return runCode options code
    | none, some path => runFile files options path
    | none, none => return { exit := 0, written := ← console options.limits }

/-- The files of a folder in memory. -/
def Files.ofFolder (folder : Folder) : Files Id where
  exists? path := folder.holds path
  read path := folder.read path

/-- Run the program in a folder in memory, with input that comes in bytes. -/
def runInFolder (folder : Folder) (input : ByteArray) (arguments : List String)
    (environment : String → Option String) : Result :=
  Id.run <| run (Files.ofFolder folder)
    (fun limits => Console.runOnBytes (m := Id) folder.read limits input) arguments environment

end StackScript.CommandLine
