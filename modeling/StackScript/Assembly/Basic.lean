import StackScript.Assembly.Error
import StackScript.Bytecode
import StackScript.Code.Buffer
import StackScript.Scope

/-!
# Assembling bytecode

An assembly is bytecode under construction: the constants so far, the names in scope, and the
instructions of the function that is being compiled. Constants and the names of the outermost table
outlive a program, so that a later one can use what an earlier one has defined.
-/

namespace StackScript

/-- Bytecode under construction. -/
structure Assembly where
  constants : Array Value := #[]
  scope : Scope := {}
  buffer : Buffer := {}

namespace Assembly

/-- An assembly in which nothing but the builtins is defined. -/
def initial : Assembly where
  scope := Builtin.all.foldl (fun scope builtin =>
    (scope.defineBuiltin builtin.index builtin.name).2) {}

/-- The offset of the next instruction. -/
def position (assembly : Assembly) : Nat :=
  assembly.buffer.code.size

/-- Append an instruction. -/
def emit (assembly : Assembly) (op : Opcode) (operands : List Nat) :
    Except CompileError Assembly :=
  match Instruction.encode ⟨op, operands⟩ with
  | .ok bytes => .ok { assembly with buffer := assembly.buffer.push op bytes }
  | .error error => .error (.code error)

/-- Change bytes that have been emitted. -/
def edit (assembly : Assembly) (change : Buffer → Except CodeError Buffer) :
    Except CompileError Assembly :=
  match change assembly.buffer with
  | .ok buffer => .ok { assembly with buffer }
  | .error error => .error (.code error)

/-- Give the instruction at a position another operand. -/
def patch (assembly : Assembly) (position operand : Nat) : Except CompileError Assembly :=
  assembly.edit (·.patch position operand)

/-- Add a constant behind the others. -/
def addConstant (assembly : Assembly) (value : Value) : Nat × Assembly :=
  (assembly.constants.size, { assembly with constants := assembly.constants.push value })

/-- Append an instruction that loads a new constant. -/
def emitConstant (assembly : Assembly) (value : Value) : Except CompileError Assembly :=
  let (index, assembly) := assembly.addConstant value
  assembly.emit .constant [index]

/-- Append an instruction that loads what a name stands for. -/
def load (assembly : Assembly) (symbol : Symbol) : Except CompileError Assembly :=
  match symbol.place with
  | .global => assembly.emit .getGlobal [symbol.index]
  | .local => assembly.emit .getLocal [symbol.index]
  | .builtin => assembly.emit .getBuiltin [symbol.index]
  | .free => assembly.emit .getFree [symbol.index]
  | .function => assembly.emit .currentClosure []

/-- Look a name up. -/
def lookup (assembly : Assembly) (name : String) : Except CompileError (Symbol × Assembly) :=
  match assembly.scope.lookup name with
  | (some symbol, scope) => .ok (symbol, { assembly with scope })
  | (none, _) => .error (.undefinedVariable name)

/-- Append an instruction that stores the value of a new binding. -/
def storeBinding (assembly : Assembly) (name : String) : Except CompileError Assembly :=
  let (symbol, scope) := assembly.scope.define name
  let op := if symbol.place = .global then .setGlobal else .setLocal
  { assembly with scope }.emit op [symbol.index]

/-- Append an instruction that stores a new value of a variable. -/
def storeVariable (assembly : Assembly) (name : String) : Except CompileError Assembly := do
  let (symbol, assembly) ← assembly.lookup name
  match symbol.place with
  | .global => assembly.emit .setGlobal [symbol.index]
  | .local => assembly.emit .setLocal [symbol.index]
  | .builtin | .free | .function => .error (.invalidAssignment name)

/-- Leave the value of a branch that starts at a position: that of its last instruction, if this
would discard one, and otherwise null. -/
def endBranch (assembly : Assembly) (start : Nat) : Except CompileError Assembly :=
  if assembly.position > start && assembly.buffer.lastIs .pop then
    .ok { assembly with buffer := assembly.buffer.removeLastPop }
  else assembly.emit .pushNull []

/-- Start the code of a function, with its own name and its parameters in scope. -/
def enterFunction (assembly : Assembly) (name : Option String) (params : List String) : Assembly :=
  { assembly with scope := assembly.scope.enterFunction name params, buffer := {} }

/-- End the code of a function: it returns the value that its last instruction would discard, or
null if it does not return by itself. -/
def endFunction (assembly : Assembly) : Except CompileError Assembly := do
  let assembly ← assembly.edit Buffer.popToReturn
  if assembly.buffer.lastIs .returnValue || assembly.buffer.lastIs .returnNull then return assembly
  else assembly.emit .returnNull []

/-- Go back to the code around a function and append the instructions that make a closure of it. -/
def leaveFunction (assembly : Assembly) (outer : Buffer) (name : Option String)
    (params : List String) : Except CompileError Assembly := do
  let code := assembly.buffer.code
  let (table, scope) := assembly.scope.leave
  let assembly ← table.free.foldlM load { assembly with buffer := outer, scope }
  let (index, assembly) :=
    assembly.addConstant (.function ⟨name, code, table.definitions, params.length⟩)
  assembly.emit .closure [index, table.free.length]

end Assembly

end StackScript
