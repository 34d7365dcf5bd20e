import StackScript.Console.Highlight
import StackScript.Console.Input
import StackScript.Session
import StackScript.Value.Printer

/-!
# The console

The console answers one event of the line editor after the other: it runs commands, evaluates
sources and shows values and errors.

## Implementation notes

Files are read by a function that the caller gives, so that the same console runs on a real file
system and in memory.
-/

namespace StackScript.Console

/-- The version of the language. -/
def versionText : String := "0.1.0"

/-- Text written to the two output streams. -/
structure Written where
  out : String := ""
  err : String := ""

namespace Written

/-- One text behind another, on each stream. -/
def append (first second : Written) : Written :=
  ⟨first.out ++ second.out, first.err ++ second.err⟩

instance : Append Written := ⟨append⟩

/-- A line on the first stream. -/
def line (text : String) : Written :=
  { out := text ++ "\n" }

/-- A line on the second stream. -/
def errorLine (text : String) : Written :=
  { err := text ++ "\n" }

end Written

variable [Palette]

/-- A value in the colour of its type. -/
def styledValue (value : Value) : String :=
  match value with
  | .null => paint .blue value.render
  | .boolean _ | .integer _ => paint .yellow value.render
  | .text _ => paint .green value.renderNested
  | .array _ | .hash _ => paint .cyan value.render
  | .closure _ _ | .builtin _ | .function _ => paint .magenta value.render

/-- An error with its kind in red. -/
def showError (error : Error) : Written :=
  .errorLine (paint .bold (paint .red error.kind) ++ ": " ++ error.cause)

/-- A complaint of the console itself. -/
def complain (text : String) : Written :=
  .errorLine (paint .bold (paint .red "Error") ++ ": " ++ text)

/-- What a program wrote, and what becomes of its verdict. -/
def showEvaluation (onValue : Value → Written) (evaluation : Evaluation) : Written :=
  { out := evaluation.output } ++
    match evaluation.verdict with
    | .value value => onValue value
    | .error error => showError error
    | .unfinished => {}

/-- What the console writes before the first event. -/
def banner : Written :=
  .line "" ++
    .line ("  " ++ paint .bold (paint .brightCyan "Quill") ++ " " ++ paint .dimmed "v" ++ " " ++
      paint .brightYellow versionText) ++
    .line ("  " ++ paint .dimmed "Type" ++ " " ++ paint .cyan ".help" ++ " " ++
      paint .dimmed "for available commands") ++
    .line ""

/-- The text in front of the line that is typed. -/
def prompt : String :=
  paint .bold (paint .brightGreen "quill>") ++ " "

/-- What the console writes when it ends. -/
def farewell : Written :=
  .line ""

/-- A line of the help. -/
def helpLine (style : Style) (name description : String) : Written :=
  .line ("  " ++ paint style (padded 18 name) ++ " " ++ paint .dimmed description)

/-- The help. -/
def help : Written :=
  .line "" ++ .line (paint .bold (paint .white "REPL Commands:")) ++ .line "" ++
    (Command.descriptions.map fun (name, description) => helpLine .cyan name description).foldl
      (· ++ ·) {} ++
    .line "" ++ .line (paint .bold (paint .white "Keyboard Shortcuts:")) ++ .line "" ++
    helpLine .yellow "Ctrl+C" "Cancel current input" ++
    helpLine .yellow "Ctrl+D" "Exit REPL" ++
    helpLine .yellow "Tab" "Autocomplete" ++
    .line ""

/-- The complaint about a command without its argument. -/
def missingArgument (command what : String) : Written :=
  complain (paint .cyan command ++ " " ++ paint .dimmed ("requires " ++ what))

/-- The listing of a source, or the error that it has no bytecode. -/
def showListing (compiled : Except Error Bytecode) : Written :=
  match compiled with
  | .ok bytecode => { out := bytecode.listing }
  | .error error => showError error

/-- What the line editor is offered for a line. -/
structure Advice where
  highlighted : String
  hint : Option (Option String)
  completion : Option Completion
  incomplete : Bool

/-- What is offered for a line with the cursor at a byte offset. -/
def advise (text : String) (cursor : Nat) : Advice :=
  ⟨highlight text, hintAt? text cursor, complete? text cursor, isIncomplete text⟩

/-- The answer to an event: what is written, the session after it, what the line editor is offered,
and whether the console ends. -/
structure Response where
  written : Written := {}
  session : Session
  advice : Option Advice := none
  ends : Bool := false

/-- Evaluate a source and show its value. -/
def evaluate (session : Session) (source : Except ReadError String) : Response :=
  let (evaluation, session) := session.evalText source
  { written := showEvaluation (fun value => .line (styledValue value)) evaluation, session }

/-- Run a command. -/
def runCommand [Monad m] (read : String → m (Except ReadError String)) (session : Session)
    (command : Command) (argument : Option String) : m Response := do
  match command, argument with
  | .help, _ => return { written := help, session }
  | .exit, _ => return { session, ends := true }
  | .clear, _ => return { written := { out := "\x1b[2J\x1b[H" }, session }
  | .version, _ =>
    let name := paint .bold (paint .brightCyan "Quill")
    return { written := .line (name ++ ": " ++ paint .yellow versionText), session }
  | .load, none => return { written := missingArgument ".load" "a file path", session }
  | .load, some path => return evaluate session (← read path)
  | .bytecode, none => return { written := missingArgument ".bytecode" "some code", session }
  | .bytecode, some code => return { written := showListing (session.compile code), session }

/-- Answer an event. -/
def respond [Monad m] (read : String → m (Except ReadError String)) (session : Session) :
    Event → m Response
  | .line text => do
    let source := String.ofList (Text.trim text.toList)
    if source.isEmpty then return { session }
    match Command.parse source with
    | some (command, argument) => runCommand read session command argument
    | none => return evaluate session (.ok source)
  | .interrupt => return { written := .line (paint .dimmed "^C"), session }
  | .endOfInput => return { written := .line (paint .dimmed "^D"), session, ends := true }
  | .failure description => return { written := complain description, session, ends := true }
  | .ask text cursor => return { session, advice := some (advise text cursor) }

/-- What the console has written and advised so far, and the events that it has not seen. -/
structure Transcript where
  written : Written := {}
  advice : List Advice := []
  unread : List Event := []

/-- Answer events until the console ends. When they are used up, the input ends. -/
def answer [Monad m] (read : String → m (Except ReadError String)) (session : Session)
    (transcript : Transcript) : List Event → m Transcript
  | [] => do
    let response ← respond read session .endOfInput
    return { transcript with written := transcript.written ++ response.written }
  | event :: events => do
    let response ← respond read session event
    let transcript :=
      { transcript with
        written := transcript.written ++ response.written
        advice := transcript.advice ++ response.advice.toList }
    if response.ends then return { transcript with unread := events }
    else answer read response.session transcript events

/-- Run the console on events, from its banner to its farewell. -/
def run [Monad m] (read : String → m (Except ReadError String)) (limits : Limits)
    (events : List Event) : m Transcript := do
  let transcript ← answer read { limits } { written := banner } events
  return { transcript with written := transcript.written ++ farewell }

/-- What the console writes for input that comes in bytes. -/
def runOnBytes [Monad m] (read : String → m (Except ReadError String)) (limits : Limits)
    (input : ByteArray) : m Written := do
  let transcript ← run read limits (eventsOf (rawLines input))
  return transcript.written

end StackScript.Console
