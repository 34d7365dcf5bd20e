import StackScript.CommandLine.Run

/-!
# Entry point

Everything that the program decides is decided elsewhere. This module reads files and input, and
writes what it is told to.
-/

open StackScript StackScript.Console

/-- The text of a file of the file system. -/
def readTextFile (path : String) : IO (Except ReadError String) := do
  try
    return Folder.decodeText (← IO.FS.readBinFile path)
  catch
    | .inappropriateType _ 20 _ => return .error .notDirectory
    | .inappropriateType _ _ _ => return .error .isDirectory
    | _ => return .error .notFound

/-- A path leads to a file or a directory. -/
def pathLeadsSomewhere (path : String) : IO Bool := do
  match ← readTextFile path with
  | .error .notFound | .error .notDirectory => return false
  | _ => return true

/-- Write to both output streams at once. -/
def writeOut (written : Written) : IO Unit := do
  let out ← IO.getStdout
  out.putStr written.out
  out.flush
  (← IO.getStderr).putStr written.err

/-- The event that the next lines of the standard input amount to. -/
partial def nextEvent (text : String) : IO Event := do
  let line ← try (← IO.getStdin).getLine catch _ => return .failure notTextDescription
  if line.isEmpty then return .endOfInput
  match rawLines line.toUTF8 with
  | [raw] =>
    match gather text [raw] with
    | (.endOfInput, _) => nextEvent (text ++ line)
    | (event, _) => return event
  | _ => return .endOfInput

/-- Answer events from the standard input until the console ends. -/
partial def converse (session : Session) : IO Unit := do
  if ← (← IO.getStdin).isTty then writeOut { out := prompt }
  let response ← respond readTextFile session (← nextEvent "")
  writeOut response.written
  if !response.ends then converse response.session

/-- The program. -/
def main (arguments : List String) : IO UInt32 := do
  let stackSize ← IO.getEnv "QUILL_STACK_SIZE"
  let maxFrames ← IO.getEnv "QUILL_MAX_FRAMES"
  let environment := fun name =>
    if name = "QUILL_STACK_SIZE" then stackSize
    else if name = "QUILL_MAX_FRAMES" then maxFrames
    else none
  let console := fun limits => do
    writeOut banner
    converse { limits }
    return farewell
  let result ← CommandLine.run ⟨pathLeadsSomewhere, readTextFile⟩ console arguments environment
  writeOut result.written
  return UInt32.ofNat result.exit
