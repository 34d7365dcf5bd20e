/-!
# Runtime errors
-/

namespace StackScript

/-- Why a program stops before its end. Types, operators and instructions are given by their
names. -/
inductive RuntimeError where
  | typeMismatch (left op right : String)
  | unknownOperator (operation : String)
  | divisionByZero
  | notCallable (type : String)
  | wrongArgumentCount (want got : Nat)
  | unhashableKey (type : String)
  | indexNotSupported (operation : String)
  | notAFunction (value : String)
  | invalidOperand (op : String) (operand : Nat)
  | stackOverflow
  | stackUnderflow
  | frameOverflow (limit : Nat)
  | frameUnderflow
  | returnOutsideFunction
  | unknownOpcode (byte : Nat)
  | truncatedInstruction (offset : Nat)
  | builtin (name message : String)
  deriving DecidableEq

/-- The text of a runtime error. -/
def RuntimeError.message : RuntimeError → String
  | typeMismatch left op right => "type mismatch: " ++ left ++ " " ++ op ++ " " ++ right
  | unknownOperator operation => "unknown operator: " ++ operation
  | divisionByZero => "division by zero"
  | notCallable type => "calling non-function: " ++ type
  | wrongArgumentCount want got =>
    "wrong number of arguments: want=" ++ toString want ++ ", got=" ++ toString got
  | unhashableKey type => "unusable as hash key: " ++ type
  | indexNotSupported operation => "index operator not supported: " ++ operation
  | notAFunction value => "not a function: " ++ value
  | invalidOperand op operand => "invalid operand " ++ toString operand ++ " for " ++ op
  | stackOverflow => "stack overflow"
  | stackUnderflow => "stack underflow"
  | frameOverflow limit => "maximum call depth of " ++ toString limit ++ " exceeded"
  | frameUnderflow => "frame stack underflow"
  | returnOutsideFunction => "return outside function"
  | unknownOpcode byte => "unknown opcode " ++ toString byte
  | truncatedInstruction offset => "truncated instruction at offset " ++ toString offset
  | builtin name message => name ++ ": " ++ message

end StackScript
