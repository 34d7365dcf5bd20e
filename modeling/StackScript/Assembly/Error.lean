import StackScript.Code.Error

/-!
# Compile errors
-/

namespace StackScript

/-- Why a program has no bytecode. -/
inductive CompileError where
  | undefinedVariable (name : String)
  | unknownOperator (operator : String)
  | invalidAssignment (name : String)
  | unhashableLiteral (key : String)
  | code (error : CodeError)
  deriving DecidableEq

/-- The text of a compile error. -/
def CompileError.message : CompileError → String
  | undefinedVariable name => "undefined variable " ++ name
  | unknownOperator operator => "unknown operator " ++ operator
  | invalidAssignment name => "cannot assign to " ++ name
  | unhashableLiteral key => "unusable as hash key: " ++ key
  | code error => error.message

end StackScript
