import StackScript.Program.Basic

/-!
# Properties that pass from parts to wholes

A property of expressions and one of statements that hold of a whole whenever they hold of its parts
hold of everything.
-/

namespace StackScript

/-- Two properties pass from the parts of expressions and statements to the wholes. -/
structure Compositional (P : Expr → Prop) (Q : Stmt → Prop) : Prop where
  name : ∀ id, P (.name id)
  integer : ∀ value, P (.integer value)
  text : ∀ value, P (.text value)
  boolean : ∀ value, P (.boolean value)
  unary : ∀ op argument, P argument → P (.unary op argument)
  binary : ∀ op left right, P left → P right → P (.binary op left right)
  condition : ∀ test consequent alternative, P test → (∀ stmt ∈ consequent, Q stmt) →
    (∀ block ∈ alternative, ∀ stmt ∈ block, Q stmt) → P (.condition test consequent alternative)
  function : ∀ name params body, (∀ stmt ∈ body, Q stmt) → P (.function name params body)
  call : ∀ callee arguments, P callee → (∀ expr ∈ arguments, P expr) → P (.call callee arguments)
  array : ∀ elements, (∀ expr ∈ elements, P expr) → P (.array elements)
  hash : ∀ pairs, (∀ pair ∈ pairs, P pair.1 ∧ P pair.2) → P (.hash pairs)
  index : ∀ object position, P object → P position → P (.index object position)
  binding : ∀ name value, P value → Q (.binding name value)
  assign : ∀ name value, P value → Q (.assign name value)
  returnValue : ∀ value, P value → Q (.result (some value))
  returnNull : Q (.result none)
  expr : ∀ value, P value → Q (.expr value)

namespace Compositional

variable {P : Expr → Prop} {Q : Stmt → Prop}

mutual

/-- The property of expressions holds of every expression. -/
theorem expression (h : Compositional P Q) : ∀ expr : Expr, P expr
  | .name id => h.name id
  | .integer value => h.integer value
  | .text value => h.text value
  | .boolean value => h.boolean value
  | .unary op argument => h.unary op argument (expression h argument)
  | .binary op left right => h.binary op left right (expression h left) (expression h right)
  | .condition test consequent alternative =>
      h.condition test consequent alternative (expression h test) (statements h consequent)
        (optional h alternative)
  | .function name params body => h.function name params body (statements h body)
  | .call callee arguments =>
      h.call callee arguments (expression h callee) (expressions h arguments)
  | .array elements => h.array elements (expressions h elements)
  | .hash entries => h.hash entries (pairs h entries)
  | .index object position => h.index object position (expression h object) (expression h position)
termination_by structural expr => expr

/-- The property of expressions holds of every expression of a list. -/
theorem expressions (h : Compositional P Q) : ∀ exprs : List Expr, ∀ expr ∈ exprs, P expr
  | [] => List.forall_mem_nil P
  | first :: rest => List.forall_mem_cons.mpr ⟨expression h first, expressions h rest⟩

/-- The property of expressions holds of both sides of every pair of a list. -/
theorem pairs (h : Compositional P Q) :
    ∀ pairs : List (Expr × Expr), ∀ pair ∈ pairs, P pair.1 ∧ P pair.2
  | [] => List.forall_mem_nil _
  | (key, value) :: rest =>
      List.forall_mem_cons.mpr ⟨⟨expression h key, expression h value⟩, pairs h rest⟩

/-- The property of statements holds of every statement. -/
theorem statement (h : Compositional P Q) : ∀ stmt : Stmt, Q stmt
  | .binding name value => h.binding name value (expression h value)
  | .assign name value => h.assign name value (expression h value)
  | .result (some value) => h.returnValue value (expression h value)
  | .result none => h.returnNull
  | .expr value => h.expr value (expression h value)

/-- The property of statements holds of every statement of a list. -/
theorem statements (h : Compositional P Q) : ∀ stmts : List Stmt, ∀ stmt ∈ stmts, Q stmt
  | [] => List.forall_mem_nil Q
  | first :: rest => List.forall_mem_cons.mpr ⟨statement h first, statements h rest⟩

/-- The property of statements holds of every statement of a list that may be missing. -/
theorem optional (h : Compositional P Q) :
    ∀ optional : Option (List Stmt), ∀ block ∈ optional, ∀ stmt ∈ block, Q stmt
  | none => fun _ hm => nomatch hm
  | some stmts => fun _ hm => Option.mem_some.mp hm ▸ statements h stmts

end

end Compositional

end StackScript
