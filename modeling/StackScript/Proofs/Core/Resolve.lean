import StackScript.Assembly.Compile
import StackScript.Proofs.Core.Basic

/-!
# Resolving names

Resolving a program looks every name up in the scope that the program has reached at that point, in
the order in which the operands are evaluated, and leaves the scope for what follows. Nothing is
evaluated: both branches of a condition bind their names, and so does the body of a function that is
never called.
-/

namespace StackScript

namespace Scope

/-- The symbol of a name, or an error. -/
def find (scope : Scope) (name : String) : Except CompileError (Symbol × Scope) :=
  match scope.lookup name with
  | (some symbol, scope) => .ok (symbol, scope)
  | (none, _) => .error (.undefinedVariable name)

/-- The symbol of a name that can be assigned to, or an error. -/
def findVariable (scope : Scope) (name : String) : Except CompileError (Symbol × Scope) := do
  let (symbol, scope) ← scope.find name
  match symbol.place with
  | .global | .local => return (symbol, scope)
  | .builtin | .free | .function => throw (.invalidAssignment name)

/-- Something that reads operands in a scope, and may fail. -/
abbrev Step := Scope → Except CompileError (List Core.Expr × Scope)

/-- Read operands one after the other. -/
def inTurn : List Step → Step
  | [], scope => .ok ([], scope)
  | step :: steps, scope => do
    let (operands, scope) ← step scope
    let (others, scope) ← inTurn steps scope
    return (operands ++ others, scope)

end Scope

/-- The operation of a binary operator, whose operands may have to change places. -/
def BinaryOp.operation : BinaryOp → Core.Binary
  | add => .arithmetic .add
  | subtract => .arithmetic .subtract
  | multiply => .arithmetic .multiply
  | divide => .arithmetic .divide
  | less => .comparison .greater
  | greater => .comparison .greater
  | equal => .comparison .equal
  | notEqual => .comparison .notEqual

mutual

/-- Resolve the names of an expression. -/
def Expr.resolve (expr : Expr) (scope : Scope) : Except CompileError (Core.Expr × Scope) :=
  match expr with
  | .integer value => .ok (.integer value, scope)
  | .text value => .ok (.text value, scope)
  | .boolean value => .ok (.boolean value, scope)
  | .name id => do
    let (symbol, scope) ← scope.find id
    return (.name symbol, scope)
  | .unary .plus _ => .error (.unknownOperator UnaryOp.plus.symbol)
  | .unary .minus argument => do
    let (argument, scope) ← argument.resolve scope
    return (.unary .negate argument, scope)
  | .unary .not argument => do
    let (argument, scope) ← argument.resolve scope
    return (.unary .not argument, scope)
  | .binary .less left right => do
    let (right, scope) ← right.resolve scope
    let (left, scope) ← left.resolve scope
    return (.binary (.comparison .greater) right left, scope)
  | .binary op left right => do
    let (left, scope) ← left.resolve scope
    let (right, scope) ← right.resolve scope
    return (.binary op.operation left right, scope)
  | .condition test consequent alternative => do
    let (test, scope) ← test.resolve scope
    let (consequent, scope) ← Stmt.resolveAll consequent scope
    let (alternative, scope) ← Stmt.resolveAlternative alternative scope
    return (.condition test (.ofStmts consequent) (.ofStmts alternative), scope)
  | .function name params body => do
    let (stmts, inner) ← Stmt.resolveAll body (scope.enterFunction name params)
    let table := inner.table
    return (.function name params.length table.definitions table.free (.ofStmts stmts),
      inner.leave?.getD inner)
  | .call callee arguments => do
    let (callee, scope) ← callee.resolve scope
    let (arguments, scope) ← Expr.resolveAll arguments scope
    return (.call callee arguments, scope)
  | .array elements => do
    let (elements, scope) ← Expr.resolveAll elements scope
    return (.collect .array elements, scope)
  | .hash pairs =>
    match pairs.find? fun pair => pair.1.isUnhashable with
    | some (key, _) => .error (.unhashableLiteral key.render)
    | none => do
      let steps := (Expr.resolvePairs pairs).mergeSort fun a b => textLe a.1 b.1
      let (elements, scope) ← Scope.inTurn (steps.map Prod.snd) scope
      return (.collect .hash elements, scope)
  | .index object position => do
    let (object, scope) ← object.resolve scope
    let (position, scope) ← position.resolve scope
    return (.binary .element object position, scope)
termination_by structural expr

/-- Resolve the names of several expressions. -/
def Expr.resolveAll (exprs : List Expr) (scope : Scope) :
    Except CompileError (List Core.Expr × Scope) :=
  match exprs with
  | [] => .ok ([], scope)
  | expr :: exprs => do
    let (expr, scope) ← expr.resolve scope
    let (exprs, scope) ← Expr.resolveAll exprs scope
    return (expr :: exprs, scope)

/-- The steps that resolve the pairs of a hash literal, each with the text of its key. -/
def Expr.resolvePairs (pairs : List (Expr × Expr)) : List (String × Scope.Step) :=
  match pairs with
  | [] => []
  | (key, value) :: pairs =>
    (key.render, fun scope => do
      let (key, scope) ← key.resolve scope
      let (value, scope) ← value.resolve scope
      return ([key, value], scope)) :: Expr.resolvePairs pairs

/-- Resolve the names of a statement. A binding binds its name behind its value. -/
def Stmt.resolve (stmt : Stmt) (scope : Scope) : Except CompileError (Core.Stmt × Scope) :=
  match stmt with
  | .expr value => do
    let (value, scope) ← value.resolve scope
    return (.discard value, scope)
  | .binding name value => do
    let (value, scope) ← value.resolve scope
    let (symbol, scope) := scope.define name
    return (.store symbol value, scope)
  | .assign name value => do
    let (value, scope) ← value.resolve scope
    let (symbol, scope) ← scope.findVariable name
    return (.store symbol value, scope)
  | .result (some value) => do
    let (value, scope) ← value.resolve scope
    return (.returnValue value, scope)
  | .result none => .ok (.returnNull, scope)

/-- Resolve the names of several statements. -/
def Stmt.resolveAll (stmts : List Stmt) (scope : Scope) :
    Except CompileError (List Core.Stmt × Scope) :=
  match stmts with
  | [] => .ok ([], scope)
  | stmt :: stmts => do
    let (stmt, scope) ← stmt.resolve scope
    let (stmts, scope) ← Stmt.resolveAll stmts scope
    return (stmt :: stmts, scope)

/-- Resolve the names of the second branch of a condition, which is empty if it is not there. -/
def Stmt.resolveAlternative (alternative : Option (List Stmt)) (scope : Scope) :
    Except CompileError (List Core.Stmt × Scope) :=
  match alternative with
  | none => .ok ([], scope)
  | some block => Stmt.resolveAll block scope

end

/-- The names of statements are resolved in the scope that those before them leave. -/
theorem Stmt.resolveAll_append {front back : List Stmt} {scope middle later : Scope}
    {first second : List Core.Stmt} (hf : Stmt.resolveAll front scope = .ok (first, middle))
    (hb : Stmt.resolveAll back middle = .ok (second, later)) :
    Stmt.resolveAll (front ++ back) scope = .ok (first ++ second, later) := by
  induction front generalizing scope first with
  | nil =>
      obtain ⟨rfl, rfl⟩ : [] = first ∧ scope = middle := Prod.mk.inj (Except.ok.inj hf)
      exact hb
  | cons stmt front ih =>
      obtain ⟨⟨core, next⟩, hstmt, hf⟩ := Except.bind_eq_ok_iff.mp hf
      obtain ⟨⟨rest, last⟩, hrest, hf⟩ := Except.bind_eq_ok_iff.mp hf
      obtain ⟨rfl, rfl⟩ : core :: rest = first ∧ last = middle := Prod.mk.inj (Except.ok.inj hf)
      simp [Stmt.resolveAll, hstmt, ih hrest, bind, Except.bind, pure, Except.pure]

/-- The names of statements are resolved if those of the first and then those of the others are. -/
theorem Stmt.exists_of_resolveAll_append {front back : List Stmt} {scope later : Scope}
    {cores : List Core.Stmt} (h : Stmt.resolveAll (front ++ back) scope = .ok (cores, later)) :
    ∃ first second middle, Stmt.resolveAll front scope = .ok (first, middle) ∧
      Stmt.resolveAll back middle = .ok (second, later) ∧ cores = first ++ second := by
  induction front generalizing scope cores with
  | nil => exact ⟨[], cores, scope, rfl, h, rfl⟩
  | cons stmt front ih =>
      obtain ⟨⟨core, next⟩, hstmt, h⟩ := Except.bind_eq_ok_iff.mp h
      obtain ⟨⟨rest, last⟩, hrest, h⟩ := Except.bind_eq_ok_iff.mp h
      obtain ⟨rfl, rfl⟩ : core :: rest = cores ∧ last = later := Prod.mk.inj (Except.ok.inj h)
      obtain ⟨first, second, middle, hfront, hback, rfl⟩ := ih hrest
      refine ⟨core :: first, second, middle, ?_, hback, rfl⟩
      simp [Stmt.resolveAll, hstmt, hfront, bind, Except.bind, pure, Except.pure]

/-- The step that resolves a pair of a hash literal. -/
def Expr.resolvePair (pair : Expr × Expr) : Scope.Step := fun scope => do
  let (key, scope) ← pair.1.resolve scope
  let (value, scope) ← pair.2.resolve scope
  return ([key, value], scope)

theorem Expr.resolvePairs_eq_map (pairs : List (Expr × Expr)) :
    Expr.resolvePairs pairs = pairs.map fun pair => (pair.1.render, resolvePair pair) := by
  induction pairs with
  | nil => rfl
  | cons pair pairs ih => rw [List.map_cons, ← ih]; rfl

/-- Steps for the pairs of a hash literal come in the order of the pairs. -/
theorem Expr.mergeSort_steps (step : Expr × Expr → α) (pairs : List (Expr × Expr)) :
    ((pairs.map fun pair => (pair.1.render, step pair)).mergeSort fun a b => textLe a.1 b.1) =
      (pairs.mergeSort fun a b => textLe a.1.render b.1.render).map
        fun pair => (pair.1.render, step pair) :=
  let keyed := fun pair : Expr × Expr => (pair.1.render, step pair)
  (List.map_mergeSort (f := keyed) fun _ _ _ _ => rfl).symm

end StackScript
