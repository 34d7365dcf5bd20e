/-!
# Programs

A program is a list of statements. A block is one too: statements between braces, the body of a
function or a branch of a condition. Everything that has a value is an expression, conditions and
functions included.
-/

namespace StackScript

/-- An operator in front of its operand. -/
inductive UnaryOp where
  | minus
  | plus
  | not
  deriving DecidableEq

/-- The spelling of a unary operator. -/
def UnaryOp.symbol : UnaryOp → String
  | minus => "-"
  | plus => "+"
  | not => "!"

/-- An operator between its operands. -/
inductive BinaryOp where
  | add
  | subtract
  | multiply
  | divide
  | less
  | greater
  | equal
  | notEqual
  deriving DecidableEq

/-- The spelling of a binary operator. -/
def BinaryOp.symbol : BinaryOp → String
  | add => "+"
  | subtract => "-"
  | multiply => "*"
  | divide => "/"
  | less => "<"
  | greater => ">"
  | equal => "=="
  | notEqual => "!="

mutual

/-- An expression. A condition without `else` has no alternative, and a function has the name of
the binding whose value it is. -/
inductive Expr where
  | name (id : String)
  | integer (value : Int64)
  | text (value : String)
  | boolean (value : Bool)
  | unary (op : UnaryOp) (argument : Expr)
  | binary (op : BinaryOp) (left right : Expr)
  | condition (test : Expr) (consequent : List Stmt) (alternative : Option (List Stmt))
  | function (name : Option String) (params : List String) (body : List Stmt)
  | call (callee : Expr) (arguments : List Expr)
  | array (elements : List Expr)
  | hash (pairs : List (Expr × Expr))
  | index (object position : Expr)

/-- A statement. -/
inductive Stmt where
  | binding (name : String) (value : Expr)
  | assign (name : String) (value : Expr)
  | result (value : Option Expr)
  | expr (value : Expr)

end

/-- The statements of a function body or of a branch. -/
abbrev Block := List Stmt

/-- A program is a list of statements. -/
abbrev Program := List Stmt

/-- A function literal that is the value of a binding takes the name of the binding. -/
def Expr.named (name : String) : Expr → Expr
  | function _ params body => function (some name) params body
  | value => value

end StackScript
