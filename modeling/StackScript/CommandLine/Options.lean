import StackScript.Machine.Basic

/-!
# Command line options

Arguments are read from left to right. What cannot be read, and an option given twice that is to be
given once, ends reading at once; so does a request for the version or for help.
-/

namespace StackScript.CommandLine

/-- What the arguments ask for. -/
structure Options where
  file : Option String := none
  code : Option String := none
  disassemble : Bool := false
  verbosity : Nat := 0
  stackSize : Option Nat := none
  maxFrames : Option Nat := none
  deriving DecidableEq

/-- Why no program is run. -/
inductive Stop where
  | version
  | help
  | misuse
  deriving DecidableEq

/-- An option with a value. -/
inductive Valued where
  | code
  | stackSize
  | maxFrames
  deriving DecidableEq

/-- The largest size that can be asked for. -/
def maxSize : Nat := 18446744073709551615

/-- A size in decimal digits, with or without a plus sign. -/
def size? (text : String) : Option Nat :=
  let digits := match text.toList with
    | '+' :: cs => cs
    | cs => cs
  if digits.isEmpty || !digits.all Char.isDigit then none
  else
    let value := digits.foldl (fun value digit => 10 * value + (digit.toNat - '0'.toNat)) 0
    if value ≤ maxSize then some value else none

/-- A size that an option gives, or misuse. -/
def size (text : String) : Except Stop Nat :=
  match size? text with
  | some value => .ok value
  | none => .error .misuse

namespace Options

/-- Set what may be set once. -/
def setOnce (old : Option α) (value : α) : Except Stop (Option α) :=
  match old with
  | none => .ok (some value)
  | some _ => .error .misuse

/-- Take the value of an option. -/
def take (options : Options) (option : Valued) (value : String) : Except Stop Options := do
  match option with
  | .code => return { options with code := ← setOnce options.code value }
  | .stackSize => return { options with stackSize := ← setOnce options.stackSize (← size value) }
  | .maxFrames => return { options with maxFrames := ← setOnce options.maxFrames (← size value) }

/-- Take an argument that is no option: there may be one file, with a name. -/
def takeFile (options : Options) (name : String) : Except Stop Options := do
  if name.isEmpty then throw .misuse
  return { options with file := ← setOnce options.file name }

/-- Ask for a listing, once. -/
def takeDisassemble (options : Options) : Except Stop Options :=
  if options.disassemble then .error .misuse else .ok { options with disassemble := true }

/-- Ask for more log lines. -/
def takeVerbose (options : Options) : Options :=
  { options with verbosity := options.verbosity + 1 }

/-- The options after some arguments, and the option that waits for its value in the next one. -/
abbrev Pending := Options × Option Valued

/-- Take the letters of a group of short options. A letter with a value takes what follows it,
without an equals sign in front, or waits for the next argument. -/
def takeLetters (options : Options) : List Char → Except Stop Pending
  | [] => .ok (options, none)
  | 'd' :: cs => do (← options.takeDisassemble).takeLetters cs
  | 'v' :: cs => options.takeVerbose.takeLetters cs
  | 'V' :: _ => .error .version
  | 'h' :: _ => .error .help
  | ['e'] => .ok (options, some .code)
  | 'e' :: '=' :: cs => do return (← options.take .code (String.ofList cs), none)
  | 'e' :: cs => do return (← options.take .code (String.ofList cs), none)
  | _ => .error .misuse

/-- The option with a value that has a long name. -/
def valued? (name : String) : Option Valued :=
  match name with
  | "eval" => some .code
  | "stack-size" => some .stackSize
  | "max-frames" => some .maxFrames
  | _ => none

/-- Take a long option, with the value behind its equals sign if there is one. -/
def takeLong (options : Options) (name : String) (value : Option String) :
    Except Stop Pending := do
  match valued? name, value with
  | some option, some value => return (← options.take option value, none)
  | some option, none => return (options, some option)
  | none, some _ => throw .misuse
  | none, none =>
    match name with
    | "disassemble" => return (← options.takeDisassemble, none)
    | "verbose" => return (options.takeVerbose, none)
    | "version" => throw .version
    | "help" => throw .help
    | _ => throw .misuse

/-- Take the next argument. An option that waits for a value gets none that looks like an
option. -/
def takeArgument (pending : Pending) (argument : String) : Except Stop Pending := do
  let (options, waiting) := pending
  match argument.toList with
  | '-' :: '-' :: cs =>
    if waiting.isSome then throw .misuse
    let name := cs.takeWhile (· ≠ '=')
    let value := (cs.drop name.length).tail?.map String.ofList
    options.takeLong (String.ofList name) value
  | '-' :: c :: cs =>
    if waiting.isSome then throw .misuse
    options.takeLetters (c :: cs)
  | _ =>
    match waiting with
    | some option => return (← options.take option argument, none)
    | none => return (← options.takeFile argument, none)

/-- Take all arguments. Behind two hyphens by themselves all of them are files. -/
def takeAll (pending : Pending) : List String → Except Stop Options
  | [] => if pending.2.isSome then .error .misuse else .ok pending.1
  | argument :: arguments => do
    if argument = "--" then
      if pending.2.isSome then throw .misuse
      arguments.foldlM takeFile pending.1
    else takeAll (← takeArgument pending argument) arguments

/-- Take the sizes that no argument has set from the environment. Code and a file exclude each
other. -/
def complete (options : Options) (environment : String → Option String) :
    Except Stop Options := do
  let fromEnvironment (given : Option Nat) (name : String) : Except Stop (Option Nat) :=
    match given, environment name with
    | none, some text => some <$> size text
    | _, _ => return given
  let stackSize ← fromEnvironment options.stackSize "QUILL_STACK_SIZE"
  let maxFrames ← fromEnvironment options.maxFrames "QUILL_MAX_FRAMES"
  if options.code.isSome && options.file.isSome then throw .misuse
  return { options with stackSize, maxFrames }

/-- The options that arguments and environment give. -/
def parse (arguments : List String) (environment : String → Option String) :
    Except Stop Options := do
  (← takeAll ({}, none) arguments).complete environment

/-- The limits that are asked for. -/
def limits (options : Options) : Limits :=
  { stackSize := options.stackSize.getD ({} : Limits).stackSize
    maxFrames := options.maxFrames.getD ({} : Limits).maxFrames }

end Options

end StackScript.CommandLine
