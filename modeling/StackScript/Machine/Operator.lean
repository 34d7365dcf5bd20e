import StackScript.Machine.Error
import StackScript.Value.Basic

/-!
# Operators on values

Integers have 64 bits with a sign, and arithmetic on them wraps around. Values of different types
are never compared, not even for equality.
-/

namespace StackScript

/-- The error of an operator that is not defined for two values. -/
def operatorError (symbol : String) (left right : ValueOver C) : RuntimeError :=
  if left.typeName = right.typeName then
    .unknownOperator (left.typeName ++ " " ++ symbol ++ " " ++ right.typeName)
  else .typeMismatch left.typeName symbol right.typeName

/-- An operator that computes. -/
inductive Arithmetic where
  | add
  | subtract
  | multiply
  | divide
  deriving DecidableEq

namespace Arithmetic

/-- The spelling of an operator. -/
def symbol : Arithmetic → String
  | add => "+"
  | subtract => "-"
  | multiply => "*"
  | divide => "/"

/-- The result for two integers. Division goes toward zero. -/
def onIntegers : Arithmetic → Int64 → Int64 → Except RuntimeError Int64
  | add, m, n => .ok (m + n)
  | subtract, m, n => .ok (m - n)
  | multiply, m, n => .ok (m * n)
  | divide, m, n => if n = 0 then .error .divisionByZero else .ok (m / n)

/-- The result for two values: texts can be added, and integers computed with. -/
def apply (op : Arithmetic) : ValueOver C → ValueOver C → Except RuntimeError (ValueOver C)
  | .integer m, .integer n => (op.onIntegers m n).map .integer
  | .text s, .text t =>
    if op = add then .ok (.text (s ++ t))
    else .error (operatorError op.symbol (.text s : ValueOver C) (.text t))
  | left, right => .error (operatorError op.symbol left right)

end Arithmetic

/-- An operator that compares. -/
inductive Comparison where
  | equal
  | notEqual
  | greater
  deriving DecidableEq

namespace Comparison

/-- The spelling of an operator. -/
def symbol : Comparison → String
  | equal => "=="
  | notEqual => "!="
  | greater => ">"

/-- The result for two values of which it is known only whether they are equal. -/
def ofEquality? : Comparison → Bool → Option Bool
  | equal, same => some same
  | notEqual, same => some !same
  | greater, _ => none

/-- The result for two values: integers have an order, and texts, booleans and null can be told
apart. -/
def test? (op : Comparison) : ValueOver C → ValueOver C → Option Bool
  | .integer m, .integer n =>
    match op with
    | greater => some (m > n)
    | op => op.ofEquality? (m == n)
  | .text s, .text t => op.ofEquality? (s == t)
  | .boolean b, .boolean c => op.ofEquality? (b == c)
  | .null, .null => op.ofEquality? true
  | _, _ => none

/-- The result for two values, or an error. -/
def apply (op : Comparison) (left right : ValueOver C) : Except RuntimeError (ValueOver C) :=
  match op.test? left right with
  | some result => .ok (.boolean result)
  | none => .error (operatorError op.symbol left right)

end Comparison

namespace ValueOver

/-- The negated value of an integer. -/
def negate : ValueOver C → Except RuntimeError (ValueOver C)
  | integer value => .ok (integer (-value))
  | value => .error (.unknownOperator ("-" ++ value.typeName))

/-- Keys and values in turn, as entries. A key without a value is left out. -/
def pairUp : List (ValueOver C) → Except RuntimeError (List (Key × ValueOver C))
  | key :: value :: values =>
    match key.key? with
    | none => .error (.unhashableKey key.typeName)
    | some k => do
      let entries ← pairUp values
      return (k, value) :: entries
  | _ => .ok []

/-- The hash of keys and values given in turn. -/
def hashOf (values : List (ValueOver C)) : Except RuntimeError (ValueOver C) :=
  (pairUp values).map ofEntries

/-- The element of a collection at a position, or null if there is none. -/
def element : ValueOver C → ValueOver C → Except RuntimeError (ValueOver C)
  | array elements, integer position =>
    if position < 0 then .ok null else .ok (elements[position.toNatClampNeg]?.getD null)
  | hash entries, position =>
    match position.key? with
    | none => .error (.unhashableKey position.typeName)
    | some key => .ok ((entries.lookup key).getD null)
  | collection, position =>
    .error (.indexNotSupported (collection.typeName ++ "[" ++ position.typeName ++ "]"))

end ValueOver

end StackScript
