import StackScript.Assembly.Basic
import StackScript.Program.Printer
import StackScript.Value.Printer

/-!
# Compiling programs

The code of an expression leaves one value on the stack, and that of a statement none. A comparison
with `<` is one with `>` whose operands are taken in the other order, and the pairs of a hash
literal are taken in the order of the text of their keys.

## Implementation notes

The code of a hash literal depends on the order of its pairs. Each pair is therefore first turned
into the step that compiles it, and these steps are sorted.
-/

namespace StackScript

/-- A jump whose target is not yet known has this operand. -/
def unknownTarget : Nat := 9999

/-- A literal that is never a key of a hash. -/
def Expr.isUnhashable : Expr → Bool
  | function _ _ _ | array _ | hash _ => true
  | _ => false

/-- The opcode for a binary operator, whose operands may have to change places. -/
def BinaryOp.opcode : BinaryOp → Opcode
  | add => .add
  | subtract => .subtract
  | multiply => .multiply
  | divide => .divide
  | less => .greater
  | greater => .greater
  | equal => .equal
  | notEqual => .notEqual

/-- Something to do to an assembly that may fail. -/
abbrev Assembly.Step := Assembly → Except CompileError Assembly

/-- Steps with a text to sort by, one after the other in the order of the texts. -/
def Assembly.inOrder (steps : List (String × Step)) (assembly : Assembly) :
    Except CompileError Assembly :=
  (steps.mergeSort fun a b => textLe a.1 b.1).foldlM (fun assembly step => step.2 assembly) assembly

mutual

/-- Append the code of an expression. -/
def Expr.compile (expr : Expr) (assembly : Assembly) : Except CompileError Assembly :=
  match expr with
  | .integer value => assembly.emitConstant (.integer value)
  | .text value => assembly.emitConstant (.text value)
  | .boolean true => assembly.emit .pushTrue []
  | .boolean false => assembly.emit .pushFalse []
  | .name id => do
    let (symbol, assembly) ← assembly.lookup id
    assembly.load symbol
  | .unary .plus _ => .error (.unknownOperator UnaryOp.plus.symbol)
  | .unary .minus argument => do
    let assembly ← argument.compile assembly
    assembly.emit .negate []
  | .unary .not argument => do
    let assembly ← argument.compile assembly
    assembly.emit .not []
  | .binary .less left right => do
    let assembly ← right.compile assembly
    let assembly ← left.compile assembly
    assembly.emit .greater []
  | .binary op left right => do
    let assembly ← left.compile assembly
    let assembly ← right.compile assembly
    assembly.emit op.opcode []
  | .condition test consequent alternative => do
    let assembly ← test.compile assembly
    let toAlternative := assembly.position
    let assembly ← assembly.emit .jumpUnless [unknownTarget]
    let start := assembly.position
    let assembly ← Stmt.compileAll consequent assembly
    let assembly ← assembly.endBranch start
    let toEnd := assembly.position
    let assembly ← assembly.emit .jump [unknownTarget]
    let assembly ← assembly.patch toAlternative assembly.position
    let assembly ← Stmt.compileAlternative alternative assembly
    assembly.patch toEnd assembly.position
  | .function name params body => do
    let outer := assembly.buffer
    let assembly ← Stmt.compileAll body (assembly.enterFunction name params)
    let assembly ← assembly.endFunction
    assembly.leaveFunction outer name params
  | .call callee arguments => do
    let assembly ← callee.compile assembly
    let assembly ← Expr.compileAll arguments assembly
    assembly.emit .call [arguments.length]
  | .array elements => do
    let assembly ← Expr.compileAll elements assembly
    assembly.emit .array [elements.length]
  | .hash pairs =>
    match pairs.find? fun pair => pair.1.isUnhashable with
    | some (key, _) => .error (.unhashableLiteral key.render)
    | none => do
      let assembly ← Assembly.inOrder (Expr.compilePairs pairs) assembly
      assembly.emit .hash [pairs.length * 2]
  | .index object position => do
    let assembly ← object.compile assembly
    let assembly ← position.compile assembly
    assembly.emit .index []
termination_by structural expr

/-- Append the code of several expressions. -/
def Expr.compileAll (exprs : List Expr) (assembly : Assembly) : Except CompileError Assembly :=
  match exprs with
  | [] => .ok assembly
  | expr :: exprs => do
    let assembly ← expr.compile assembly
    Expr.compileAll exprs assembly

/-- The steps that append the code of the pairs of a hash literal, each with the text of its key. -/
def Expr.compilePairs (pairs : List (Expr × Expr)) : List (String × Assembly.Step) :=
  match pairs with
  | [] => []
  | (key, value) :: pairs =>
    (key.render, fun assembly => do
      let assembly ← key.compile assembly
      value.compile assembly) :: Expr.compilePairs pairs

/-- Append the code of a statement. -/
def Stmt.compile (stmt : Stmt) (assembly : Assembly) : Except CompileError Assembly :=
  match stmt with
  | .expr value => do
    let assembly ← value.compile assembly
    assembly.emit .pop []
  | .binding name value => do
    let assembly ← value.compile assembly
    assembly.storeBinding name
  | .assign name value => do
    let assembly ← value.compile assembly
    assembly.storeVariable name
  | .result (some value) => do
    let assembly ← value.compile assembly
    assembly.emit .returnValue []
  | .result none => assembly.emit .returnNull []

/-- Append the code of several statements. -/
def Stmt.compileAll (stmts : List Stmt) (assembly : Assembly) : Except CompileError Assembly :=
  match stmts with
  | [] => .ok assembly
  | stmt :: stmts => do
    let assembly ← stmt.compile assembly
    Stmt.compileAll stmts assembly

/-- Append the code of the second branch of a condition, whose value is null if it is not there. -/
def Stmt.compileAlternative (alternative : Option (List Stmt)) (assembly : Assembly) :
    Except CompileError Assembly :=
  match alternative with
  | none => assembly.emit .pushNull []
  | some block => do
    let start := assembly.position
    let assembly ← Stmt.compileAll block assembly
    assembly.endBranch start

end

/-- The bytecode of a program, and the assembly in which the next program can be compiled. -/
def Program.compile (program : Program) (assembly : Assembly) :
    Except CompileError (Bytecode × Assembly) := do
  let assembly ← Stmt.compileAll program assembly
  return (⟨assembly.buffer.code, assembly.constants⟩, { assembly with buffer := {} })

end StackScript
