import StackScript.Error

/-!
# Reports of errors

A report gives an error in a form for programs: the names of its kinds, from the widest to the
narrowest, and its data. The data of most errors have names.
-/

namespace StackScript

/-- A datum of an error. -/
inductive Report.Datum where
  | number (value : Nat)
  | text (value : String)
  | character (value : Char)

/-- The text of a datum. -/
def Report.Datum.render : Report.Datum → String
  | number value => toString value
  | text value => Text.quote value
  | character value => Text.quoteChar value

/-- The data of an error. -/
inductive Report.Data where
  | none
  | single (datum : Report.Datum)
  | named (data : List (String × Report.Datum))

/-- The kinds of an error and its data. -/
structure Report where
  kinds : List String
  data : Report.Data

namespace Report

/-- The text of data behind the name of the narrowest kind. -/
def Data.render : Data → String
  | none => ""
  | single datum => "(" ++ datum.render ++ ")"
  | named data =>
    let fields := data.map fun (name, datum) => name ++ ": " ++ datum.render
    " \x7b " ++ String.intercalate ", " fields ++ " \x7d"

/-- The report of an error of a narrower kind, as one of a wider kind. -/
def inside (kind : String) (report : Report) : Report :=
  { report with kinds := kind :: report.kinds }

/-- The names of the kinds, with dots between them. -/
def path (report : Report) : String :=
  String.intercalate "." report.kinds

/-- The text of a report: each kind holds the next one between parentheses. -/
def render (report : Report) : String :=
  String.intercalate "(" report.kinds ++ report.data.render ++
    String.ofList (List.replicate (report.kinds.length - 1) ')')

end Report

open Report.Data in
/-- The report of a syntax error. -/
def SyntaxError.report : SyntaxError → Report
  | unexpectedToken expected found offset =>
    ⟨["UnexpectedToken"],
      named [("expected", .text expected), ("found", .text found), ("offset", .number offset)]⟩
  | invalidInteger literal offset =>
    ⟨["InvalidInteger"], named [("literal", .text literal), ("offset", .number offset)]⟩
  | unterminatedString offset => ⟨["UnterminatedString"], named [("offset", .number offset)]⟩
  | illegalCharacter c offset =>
    ⟨["IllegalCharacter"], named [("ch", .character c), ("offset", .number offset)]⟩

open Report.Data in
/-- The report of an error of an instruction stream. -/
def CodeError.report : CodeError → Report
  | unknownOpcode byte => ⟨["UnknownOpcode"], single (.number byte)⟩
  | operandCount op expected got =>
    ⟨["OperandCount"],
      named [("op", .text op), ("expected", .number expected), ("got", .number got)]⟩
  | operandOutOfRange op value width =>
    ⟨["OperandOutOfRange"],
      named [("op", .text op), ("value", .number value), ("width", .number width)]⟩
  | truncated offset => ⟨["Truncated"], named [("offset", .number offset)]⟩

open Report.Data in
/-- The report of a compile error. -/
def CompileError.report : CompileError → Report
  | undefinedVariable name => ⟨["UndefinedVariable"], single (.text name)⟩
  | unknownOperator operator => ⟨["UnknownOperator"], single (.text operator)⟩
  | invalidAssignment name => ⟨["InvalidAssignment"], single (.text name)⟩
  | unhashableLiteral key => ⟨["UnhashableLiteral"], single (.text key)⟩
  | code error => error.report.inside "Code"

open Report.Data in
/-- The report of a runtime error. -/
def RuntimeError.report : RuntimeError → Report
  | typeMismatch left op right =>
    ⟨["TypeMismatch"], named [("left", .text left), ("op", .text op), ("right", .text right)]⟩
  | unknownOperator operation => ⟨["UnknownOperator"], single (.text operation)⟩
  | divisionByZero => ⟨["DivisionByZero"], none⟩
  | notCallable type => ⟨["NotCallable"], single (.text type)⟩
  | wrongArgumentCount want got =>
    ⟨["WrongArgumentCount"], named [("want", .number want), ("got", .number got)]⟩
  | unhashableKey type => ⟨["UnhashableKey"], single (.text type)⟩
  | indexNotSupported operation => ⟨["IndexNotSupported"], single (.text operation)⟩
  | notAFunction value => ⟨["NotAFunction"], single (.text value)⟩
  | invalidOperand op operand =>
    ⟨["InvalidOperand"], named [("op", .text op), ("operand", .number operand)]⟩
  | stackOverflow => ⟨["StackOverflow"], none⟩
  | stackUnderflow => ⟨["StackUnderflow"], none⟩
  | frameOverflow limit => ⟨["FrameOverflow"], single (.number limit)⟩
  | frameUnderflow => ⟨["FrameUnderflow"], none⟩
  | returnOutsideFunction => ⟨["ReturnOutsideFunction"], none⟩
  | unknownOpcode byte => ⟨["UnknownOpcode"], single (.number byte)⟩
  | truncatedInstruction offset => ⟨["TruncatedInstruction"], single (.number offset)⟩
  | builtin name message =>
    ⟨["Builtin"], named [("name", .text name), ("message", .text message)]⟩

/-- The report of an error. -/
def Error.report : Error → Report
  | parse error => error.report.inside "Syntax"
  | compile error => error.report.inside "Compile"
  | runtime error => error.report.inside "Runtime"
  | read _ => ⟨["Io"], .none⟩

end StackScript
