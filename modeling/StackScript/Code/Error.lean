/-!
# Errors of instruction streams
-/

namespace StackScript

/-- Why bytes are no instruction, or why an instruction cannot be written in bytes. Opcodes are
given by their names. -/
inductive CodeError where
  | unknownOpcode (byte : Nat)
  | operandCount (op : String) (expected got : Nat)
  | operandOutOfRange (op : String) (value width : Nat)
  | truncated (offset : Nat)
  deriving DecidableEq

/-- The text of an error. -/
def CodeError.message : CodeError → String
  | unknownOpcode byte => "opcode " ++ toString byte ++ " undefined"
  | operandCount op expected got =>
    op ++ " expects " ++ toString expected ++ " operand(s), got " ++ toString got
  | operandOutOfRange op value width =>
    "operand " ++ toString value ++ " of " ++ op ++ " does not fit in " ++ toString width ++
      " byte(s)"
  | truncated offset => "instruction at offset " ++ toString offset ++ " is truncated"

end StackScript
