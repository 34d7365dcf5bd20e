import StackScript.Value.Printer

/-!
# Applying builtin functions

A builtin takes values and gives a value. What `print` writes is a function of its arguments apart
from that.
-/

namespace StackScript.Builtin

/-- Why a builtin does not take its arguments. -/
inductive Misuse where
  | argumentCount (got want : Nat)
  | noLength (type : String)
  | notArray (builtin : Builtin) (type : String)
  deriving DecidableEq

/-- The text of a misuse. -/
def Misuse.message : Misuse → String
  | argumentCount got want =>
    "wrong number of arguments. got=" ++ toString got ++ ", want=" ++ toString want
  | noLength type => "argument to `len` not supported, got " ++ type
  | notArray b type => "argument to `" ++ b.name ++ "` must be ARRAY, got " ++ type

/-- The elements of an array that a builtin is given. -/
def elements (builtin : Builtin) : ValueOver C → Except Misuse (List (ValueOver C))
  | .array elements => .ok elements
  | value => .error (.notArray builtin value.typeName)

/-- The only argument of a builtin. -/
def oneArgument : List V → Except Misuse V
  | [value] => .ok value
  | values => .error (.argumentCount values.length 1)

/-- The two arguments of a builtin. -/
def twoArguments : List V → Except Misuse (V × V)
  | [left, right] => .ok (left, right)
  | values => .error (.argumentCount values.length 2)

/-- The value of a builtin for some arguments. The number of arguments is checked before any of
them is looked at. Arrays never change: `rest` and `push` give new ones. -/
def apply (builtin : Builtin) (arguments : List (ValueOver C)) : Except Misuse (ValueOver C) := do
  match builtin with
  | len =>
    match ← oneArgument arguments with
    | .text value => return .integer (Int64.ofNat value.length)
    | .array elements => return .integer (Int64.ofNat elements.length)
    | value => throw (.noLength value.typeName)
  | print => return .null
  | first =>
    let elements ← builtin.elements (← oneArgument arguments)
    return elements.head?.getD .null
  | last =>
    let elements ← builtin.elements (← oneArgument arguments)
    return elements.getLast?.getD .null
  | rest =>
    match ← builtin.elements (← oneArgument arguments) with
    | [] => return .null
    | _ :: tail => return .array tail
  | push =>
    let (collection, value) ← twoArguments arguments
    let elements ← builtin.elements collection
    return .array (elements ++ [value])

/-- What a builtin writes: `print` writes a line for each argument. -/
def printed (builtin : Builtin) (arguments : List (ValueOver C)) : String :=
  match builtin with
  | print => String.join (arguments.map fun value => value.render ++ "\n")
  | _ => ""

end StackScript.Builtin
