import StackScript.Builtin.Apply
import StackScript.Machine.Operator
import StackScript.Scope

/-!
# Core programs

A core program is a program whose names stand for places and whose operands stand in the order in
which they are evaluated. A comparison with `<` is one with `>` that has its operands exchanged, the
keys and values of a hash literal are a list of operands, and a block ends in the expression whose
value it yields, if there is one.
-/

namespace StackScript

/-- A computation that may fail gives a result only if its parts do. -/
theorem Except.bind_eq_ok_iff {x : Except ε α} {f : α → Except ε β} {b : β} :
    x >>= f = .ok b ↔ ∃ a, x = .ok a ∧ f a = .ok b := by
  cases x with
  | error error => simp [bind, Except.bind]
  | ok a => simp [bind, Except.bind]

theorem Except.exists_of_isOk {x : Except ε α} (h : x.isOk = true) : ∃ a, x = .ok a := by
  cases x with
  | error error => cases h
  | ok a => exact ⟨a, rfl⟩

namespace Core

/-- An operation on one value. -/
inductive Unary where
  | negate
  | not
  deriving DecidableEq

/-- An operation on two values. -/
inductive Binary where
  | arithmetic (op : Arithmetic)
  | comparison (op : Comparison)
  | element
  deriving DecidableEq

/-- An operation that takes any number of values together. -/
inductive Collection where
  | array
  | hash
  deriving DecidableEq

/-- The result of an operation on one value. -/
def Unary.apply : Unary → ValueOver C → Except RuntimeError (ValueOver C)
  | negate, value => value.negate
  | not, value => .ok (.boolean !value.isTruthy)

/-- The result of an operation on two values. -/
def Binary.apply : Binary → ValueOver C → ValueOver C → Except RuntimeError (ValueOver C)
  | arithmetic op, left, right => op.apply left right
  | comparison op, left, right => op.apply left right
  | element, collection, position => collection.element position

/-- The collection of values. The values of a hash are its keys and their values in turn. -/
def Collection.apply : Collection → List (ValueOver C) → Except RuntimeError (ValueOver C)
  | array, elements => .ok (.array elements)
  | hash, elements => ValueOver.hashOf elements

mutual

/-- An expression. A function knows the number of its local slots, and where the function around it
keeps the values that it captures. -/
inductive Expr where
  | integer (value : Int64)
  | text (value : String)
  | boolean (value : Bool)
  | name (symbol : Symbol)
  | unary (op : Unary) (argument : Expr)
  | binary (op : Binary) (left right : Expr)
  | condition (test : Expr) (consequent alternative : Block)
  | function (name : Option String) (parameters locals : Nat) (captures : List Symbol)
    (body : Block)
  | call (callee : Expr) (arguments : List Expr)
  | collect (kind : Collection) (elements : List Expr)

/-- A statement. -/
inductive Stmt where
  | store (symbol : Symbol) (value : Expr)
  | discard (value : Expr)
  | returnValue (value : Expr)
  | returnNull

/-- Statements in order that yield the value of a last expression, or null if they end in none. -/
inductive Block where
  | null
  | value (result : Expr)
  | next (stmt : Stmt) (rest : Block)

end

/-- The block of some statements: a last statement that discards a value yields it. -/
def Block.ofStmts : List Stmt → Block
  | [] => .null
  | [.discard last] => .value last
  | stmt :: stmts => .next stmt (ofStmts stmts)

theorem Block.ofStmts_cons {stmts : List Stmt} (stmt : Stmt) (h : stmts ≠ []) :
    ofStmts (stmt :: stmts) = .next stmt (ofStmts stmts) := by
  cases stmts with
  | nil => exact absurd rfl h
  | cons next rest => cases stmt <;> rfl

theorem Block.ofStmts_single {stmt : Stmt} (h : ∀ value, stmt ≠ .discard value) :
    ofStmts [stmt] = .next stmt .null := by
  cases stmt with
  | discard value => exact absurd rfl (h value)
  | store symbol value => rfl
  | returnValue value => rfl
  | returnNull => rfl

end Core

end StackScript
