import StackScript.Value.Basic

/-!
# Equality of values

Values are equal when their contents are. Functions have an identity instead: a function equals
itself and no other, whatever its code.
-/

namespace StackScript.Value

mutual

/-- Two values, made one independently of the other, are equal. -/
def same : Value → Value → Bool
  | .null, .null => true
  | .integer m, .integer n => m == n
  | .boolean b, .boolean c => b == c
  | .text s, .text t => s == t
  | .array xs, .array ys => allSame xs ys
  | .hash xs, .hash ys => entriesSame xs ys
  | .builtin b, .builtin c => b == c
  | _, _ => false

/-- Two lists of values are equal, element by element. -/
def allSame : List Value → List Value → Bool
  | [], [] => true
  | x :: xs, y :: ys => same x y && allSame xs ys
  | _, _ => false

/-- Two lists of entries are equal, entry by entry. -/
def entriesSame : List (Key × Value) → List (Key × Value) → Bool
  | [], [] => true
  | (k, x) :: xs, (l, y) :: ys => k == l && same x y && entriesSame xs ys
  | _, _ => false

end

/-- Which of several values, each made once, equal which. -/
def equalities (values : List Value) : List (List Bool) :=
  values.zipIdx.map fun (x, i) => values.zipIdx.map fun (y, j) => i == j || same x y

end StackScript.Value
