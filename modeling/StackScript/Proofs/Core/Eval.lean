import StackScript.Proofs.Core.Resolve

/-!
# The meaning of programs

Programs are evaluated by walking over their resolved trees. Nothing here knows of instructions, a
stack or limits. A closure is the block of its function and the values of its captured names at the
time it was made; a call puts its arguments into the first local slots and null into the others, and
ends with a return or with the value of the block.

## Implementation notes

The fuel bounds the depth of calls, which is the only way in which a program can go on for ever: the
evaluator is given what it means to enter a function, and recurs over the tree alone.
-/

namespace StackScript.Core

/-- A value whose functions are blocks. -/
abbrev Datum := ValueOver Block

/-- What all calls share: the globals, the value that the program itself has discarded last, and
what has been written. -/
structure World where
  globals : Nat → Datum := fun _ => .null
  discarded : Datum := .null
  output : String := ""

/-- The world and the local slots of the running call. -/
structure State extends World where
  locals : List Datum := []

/-- Whose code is running: the program's own, or that of a closure. -/
inductive Activation where
  | program
  | call (fn : FunctionOver Block) (free : List Datum)

/-- Why an evaluation gives no value to what surrounds it. -/
inductive Interrupt where
  | returned (value : Datum)
  | failed (error : RuntimeError)
  | outOfFuel

/-- An evaluation. When it is interrupted, what it has done before stays done. -/
abbrev Eval := EStateM Interrupt State

/-- What it means to enter a function with its captured values and its arguments. -/
abbrev Enter := FunctionOver Block → (free arguments : List Datum) → Eval Datum

/-- The value that a symbol stands for. -/
def Activation.read (self : Activation) (state : State) (symbol : Symbol) : Datum :=
  match symbol.place, self with
  | .global, _ => state.globals symbol.index
  | .local, _ => state.locals[symbol.index]?.getD .null
  | .builtin, _ => ((Builtin.ofIndex? symbol.index).map .builtin).getD .null
  | .free, .call _ free => free[symbol.index]?.getD .null
  | .function, .call fn free => .closure fn free
  | .free, .program | .function, .program => .null

/-- The state with another value in the slot of a symbol. -/
def State.write (state : State) (symbol : Symbol) (value : Datum) : State :=
  match symbol.place with
  | .global =>
    { state with globals := fun index => if index = symbol.index then value else state.globals index }
  | .local => { state with locals := state.locals.set symbol.index value }
  | .builtin | .free | .function => state

/-- The state after a statement has discarded a value. It is remembered outside of functions. -/
def Activation.discard (self : Activation) (value : Datum) (state : State) : State :=
  match self with
  | .program => { state with discarded := value }
  | .call _ _ => state

/-- The result of an operation, or its error. -/
def ofExcept : Except RuntimeError Datum → Eval Datum
  | .ok value => return value
  | .error error => throw (.failed error)

/-- Apply a value to arguments. The number of arguments is checked first. -/
def apply (enter : Enter) : Datum → List Datum → Eval Datum
  | .closure fn free, arguments =>
    if arguments.length = fn.parameters then enter fn free arguments
    else throw (.failed (.wrongArgumentCount fn.parameters arguments.length))
  | .builtin builtin, arguments =>
    match builtin.apply arguments with
    | .error misuse => throw (.failed (.builtin builtin.name misuse.message))
    | .ok value => do
      modify fun state => { state with output := state.output ++ builtin.printed arguments }
      return value
  | value, _ => throw (.failed (.notCallable value.typeName))

mutual

/-- The value of an expression. -/
def Expr.eval (enter : Enter) (self : Activation) (expr : Expr) : Eval Datum :=
  match expr with
  | .integer value => return .integer value
  | .text value => return .text value
  | .boolean value => return .boolean value
  | .name symbol => return self.read (← get) symbol
  | .unary op argument => do
    let value ← argument.eval enter self
    ofExcept (op.apply value)
  | .binary op left right => do
    let left ← left.eval enter self
    let right ← right.eval enter self
    ofExcept (op.apply left right)
  | .condition test consequent alternative => do
    let value ← test.eval enter self
    if value.isTruthy then consequent.eval enter self else alternative.eval enter self
  | .function name parameters locals captures body => do
    let state ← get
    return .closure ⟨name, body, locals, parameters⟩ (captures.map (self.read state))
  | .call callee arguments => do
    let callee ← callee.eval enter self
    let arguments ← Expr.evalAll enter self arguments
    apply enter callee arguments
  | .collect kind elements => do
    let elements ← Expr.evalAll enter self elements
    ofExcept (kind.apply elements)
termination_by structural expr

/-- The values of several expressions, evaluated one after the other. -/
def Expr.evalAll (enter : Enter) (self : Activation) (exprs : List Expr) : Eval (List Datum) :=
  match exprs with
  | [] => return []
  | expr :: exprs => do
    let value ← expr.eval enter self
    let values ← Expr.evalAll enter self exprs
    return value :: values

/-- Run a statement. -/
def Stmt.exec (enter : Enter) (self : Activation) (stmt : Stmt) : Eval Unit :=
  match stmt with
  | .store symbol value => do
    let value ← value.eval enter self
    modify (·.write symbol value)
  | .discard value => do
    let value ← value.eval enter self
    modify (self.discard value)
  | .returnValue value => do
    let value ← value.eval enter self
    throw (.returned value)
  | .returnNull => throw (.returned .null)

/-- The value of a block. -/
def Block.eval (enter : Enter) (self : Activation) (block : Block) : Eval Datum :=
  match block with
  | .null => return .null
  | .value result => result.eval enter self
  | .next stmt rest => do
    stmt.exec enter self
    rest.eval enter self

end

/-- Enter a function at most so many calls deep. A return ends the call with its value, and the
caller has its local slots back. -/
def enter : (fuel : Nat) → Enter
  | 0, _, _, _ => throw .outOfFuel
  | fuel + 1, fn, free, arguments => fun state =>
    let locals := arguments ++ List.replicate (fn.locals - arguments.length) .null
    match fn.code.eval (enter fuel) (.call fn free) { state with locals } with
    | .ok value final => .ok value { final with locals := state.locals }
    | .error (.returned value) final => .ok value { final with locals := state.locals }
    | .error interrupt final => .error interrupt final

/-- Run the statements of a program. -/
def execAll (enter : Enter) : List Stmt → Eval Unit
  | [] => return ()
  | stmt :: stmts => do
    stmt.exec enter .program
    execAll enter stmts

/-- How a program ends. -/
inductive Ending where
  | finished
  | failed (error : RuntimeError)
  | outOfFuel

/-- How statements end as a program, and the world that they leave. A program cannot return. -/
def run (fuel : Nat) (stmts : List Stmt) (world : World) : Ending × World :=
  match execAll (enter fuel) stmts { world with locals := [] } with
  | .ok () state => (.finished, state.toWorld)
  | .error (.returned _) state => (.failed .returnOutsideFunction, state.toWorld)
  | .error (.failed error) state => (.failed error, state.toWorld)
  | .error .outOfFuel state => (.outOfFuel, state.toWorld)

end StackScript.Core

namespace StackScript

/-- How a program ends that goes on in a scope and a world, and the world that it leaves, if its
names can be resolved. -/
def Program.meaning (fuel : Nat) (program : Program) (scope : Scope) (world : Core.World := {}) :
    Except CompileError (Core.Ending × Core.World) := do
  let (stmts, _) ← Stmt.resolveAll program scope
  return Core.run fuel stmts world

end StackScript
