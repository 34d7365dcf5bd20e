import StackScript.Proofs.Core.Basic

/-!
# Properties of core programs that pass from parts to wholes

Properties of expressions, statements and blocks that hold of a whole whenever they hold of its
parts hold of everything.
-/

namespace StackScript.Core

/-- Three properties pass from the parts of expressions, statements and blocks to the wholes. -/
structure Compositional (P : Expr → Prop) (Q : Stmt → Prop) (R : Block → Prop) : Prop where
  integer : ∀ value, P (.integer value)
  text : ∀ value, P (.text value)
  boolean : ∀ value, P (.boolean value)
  name : ∀ symbol, P (.name symbol)
  unary : ∀ op argument, P argument → P (.unary op argument)
  binary : ∀ op left right, P left → P right → P (.binary op left right)
  condition : ∀ test consequent alternative, P test → R consequent → R alternative →
    P (.condition test consequent alternative)
  function : ∀ name parameters locals captures body, R body →
    P (.function name parameters locals captures body)
  call : ∀ callee arguments, P callee → (∀ expr ∈ arguments, P expr) → P (.call callee arguments)
  collect : ∀ kind elements, (∀ expr ∈ elements, P expr) → P (.collect kind elements)
  store : ∀ symbol value, P value → Q (.store symbol value)
  discard : ∀ value, P value → Q (.discard value)
  returnValue : ∀ value, P value → Q (.returnValue value)
  returnNull : Q .returnNull
  null : R .null
  value : ∀ result, P result → R (.value result)
  next : ∀ stmt rest, Q stmt → R rest → R (.next stmt rest)

namespace Compositional

variable {P : Expr → Prop} {Q : Stmt → Prop} {R : Block → Prop}

mutual

/-- The property of expressions holds of every expression. -/
theorem expression (h : Compositional P Q R) : ∀ expr : Expr, P expr
  | .integer value => h.integer value
  | .text value => h.text value
  | .boolean value => h.boolean value
  | .name symbol => h.name symbol
  | .unary op argument => h.unary op argument (expression h argument)
  | .binary op left right => h.binary op left right (expression h left) (expression h right)
  | .condition test consequent alternative =>
      h.condition test consequent alternative (expression h test) (block h consequent)
        (block h alternative)
  | .function name parameters locals captures body =>
      h.function name parameters locals captures body (block h body)
  | .call callee arguments =>
      h.call callee arguments (expression h callee) (expressions h arguments)
  | .collect kind elements => h.collect kind elements (expressions h elements)
termination_by structural expr => expr

/-- The property of expressions holds of every expression of a list. -/
theorem expressions (h : Compositional P Q R) : ∀ exprs : List Expr, ∀ expr ∈ exprs, P expr
  | [] => List.forall_mem_nil P
  | first :: rest => List.forall_mem_cons.mpr ⟨expression h first, expressions h rest⟩

/-- The property of statements holds of every statement. -/
theorem statement (h : Compositional P Q R) : ∀ stmt : Stmt, Q stmt
  | .store symbol value => h.store symbol value (expression h value)
  | .discard value => h.discard value (expression h value)
  | .returnValue value => h.returnValue value (expression h value)
  | .returnNull => h.returnNull

/-- The property of blocks holds of every block. -/
theorem block (h : Compositional P Q R) : ∀ block : Block, R block
  | .null => h.null
  | .value result => h.value result (expression h result)
  | .next stmt rest => h.next stmt rest (statement h stmt) (block h rest)

end

end Compositional

end StackScript.Core
