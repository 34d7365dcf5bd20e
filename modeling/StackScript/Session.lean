import StackScript.Assembly.Compile
import StackScript.Error
import StackScript.Machine.Run
import StackScript.Program.Reader

/-!
# Sessions

A session evaluates one source after the other. Names and constants that a source defines stay for
the next ones once it has compiled; the values of globals stay whether its run succeeds or fails.
A source that does not compile leaves nothing behind.
-/

namespace StackScript

/-- What became of a program: a value, an error, or neither within its number of steps. -/
inductive Verdict where
  | value (value : Value)
  | error (error : Error)
  | unfinished

/-- What became of a program, and what it wrote. -/
structure Evaluation where
  verdict : Verdict
  output : String := ""

/-- The evaluation that a run amounts to. Its value is the last one discarded by the program
itself. -/
def Run.evaluation : Run → Evaluation
  | .finished machine => ⟨.value machine.lastPopped, machine.output⟩
  | .failed error machine => ⟨.error (.runtime error), machine.output⟩
  | .unfinished machine => ⟨.unfinished, machine.output⟩

/-- What earlier sources have left. -/
structure Session where
  limits : Limits := {}
  assembly : Assembly := Assembly.initial
  globals : Array Value := #[]

namespace Session

/-- The bytecode of a source, and the assembly for the next one. -/
def compileSource (assembly : Assembly) (source : String) :
    Except Error (Bytecode × Assembly) := do
  let program ← (Program.parse source).mapError .parse
  (program.compile assembly).mapError .compile

/-- The bytecode that a source would have now. -/
def compile (session : Session) (source : String) : Except Error Bytecode :=
  (compileSource session.assembly source).map Prod.fst

/-- Evaluate a program. -/
def evalProgram (session : Session) (program : Program) (steps : Nat := manySteps) :
    Evaluation × Session :=
  match program.compile session.assembly with
  | .error error => (⟨.error (.compile error), ""⟩, session)
  | .ok (bytecode, assembly) =>
    let run := (Machine.start bytecode session.limits session.globals).run steps
    (run.evaluation, { session with assembly, globals := run.machine.globals })

/-- Evaluate a source. -/
def eval (session : Session) (source : String) (steps : Nat := manySteps) : Evaluation × Session :=
  match Program.parse source with
  | .error error => (⟨.error (.parse error), ""⟩, session)
  | .ok program => session.evalProgram program steps

/-- Evaluate the text of a file, if it could be read. -/
def evalText (session : Session) (text : Except ReadError String) (steps : Nat := manySteps) :
    Evaluation × Session :=
  match text with
  | .ok source => session.eval source steps
  | .error error => (⟨.error (.read error), ""⟩, session)

/-- Evaluate the texts of several files, one after the other. -/
def evalTexts (session : Session) (texts : List (Except ReadError String))
    (steps : Nat := manySteps) : List Evaluation × Session :=
  match texts with
  | [] => ([], session)
  | text :: texts =>
    let (evaluation, session) := session.evalText text steps
    let (evaluations, session) := session.evalTexts texts steps
    (evaluation :: evaluations, session)

end Session

namespace Bytecode

/-- The bytecode of a source by itself. -/
def ofSource (source : String) : Except Error Bytecode :=
  ({} : Session).compile source

/-- Run bytecode by itself. -/
def evaluate (bytecode : Bytecode) (limits : Limits) (steps : Nat := manySteps) : Evaluation :=
  ((Machine.start bytecode limits #[]).run steps).evaluation

end Bytecode

end StackScript
