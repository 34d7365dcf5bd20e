import StackScript.Code.Listing
import StackScript.Value.Basic

/-!
# Bytecode

A compiled program is the instruction stream of its statements and the pool of constants that the
instructions refer to by their index. Compiled functions are constants.
-/

namespace StackScript

/-- A compiled program. -/
structure Bytecode where
  code : Code := #[]
  constants : Array Value := #[]

namespace Bytecode

/-- The listing of a constant, if it is a function. -/
def constantListing (index : Nat) : Value → String
  | .function fn =>
    "\nconstant " ++ toString index ++ ": fn/" ++ toString fn.parameters ++ " locals=" ++
      toString fn.locals ++ "\n" ++ fn.code.listing
  | _ => ""

/-- The listing of the main stream, and behind it that of every function of the pool. -/
def listing (bytecode : Bytecode) : String :=
  bytecode.code.listing ++
    String.join (bytecode.constants.toList.mapIdx constantListing)

end Bytecode

end StackScript
