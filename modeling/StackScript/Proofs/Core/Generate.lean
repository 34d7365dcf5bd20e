import StackScript.Proofs.Code.Stream
import StackScript.Proofs.Core.Basic

/-!
# Generating code

The code of a core program is a list of instructions that depends on two numbers alone: the offset
at which it will stand and the number of constants before its own. No instruction is ever changed
once it is there, since the targets of jumps are computed from the sizes of the branches.

## Implementation notes

A generator gives the code and the constants of a part of a program. Generators are put one behind
the other with `++`, which hands the second one the offset and the number of constants that the
first one has reached.
-/

namespace StackScript

namespace Symbol

/-- The instruction that loads what a symbol stands for. -/
def load (symbol : Symbol) : Instruction :=
  match symbol.place with
  | .global => ⟨.getGlobal, [symbol.index]⟩
  | .local => ⟨.getLocal, [symbol.index]⟩
  | .builtin => ⟨.getBuiltin, [symbol.index]⟩
  | .free => ⟨.getFree, [symbol.index]⟩
  | .function => ⟨.currentClosure, []⟩

/-- The instruction that stores a value in the slot of a symbol. -/
def store (symbol : Symbol) : Instruction :=
  ⟨if symbol.place = .global then .setGlobal else .setLocal, [symbol.index]⟩

end Symbol

namespace Core

open Instruction

/-- The opcode of an operation on one value. -/
def Unary.opcode : Unary → Opcode
  | negate => .negate
  | not => .not

/-- The opcode of an operation on two values. -/
def Binary.opcode : Binary → Opcode
  | arithmetic .add => .add
  | arithmetic .subtract => .subtract
  | arithmetic .multiply => .multiply
  | arithmetic .divide => .divide
  | comparison .equal => .equal
  | comparison .notEqual => .notEqual
  | comparison .greater => .greater
  | element => .index

/-- The opcode that takes values together. -/
def Collection.opcode : Collection → Opcode
  | array => .array
  | hash => .hash

/-- A constant. The code of a function is still a list of instructions. -/
inductive Constant where
  | integer (value : Int64)
  | text (value : String)
  | function (fn : FunctionOver (List Instruction))

/-- A function with its code in bytes. -/
def assembled (fn : FunctionOver (List Instruction)) : Function :=
  { fn with code := Code.ofInstructions fn.code }

/-- A constant as a value of the machine. -/
def Constant.toValue : Constant → Value
  | integer value => .integer value
  | text value => .text value
  | function fn => .function (assembled fn)

/-- The instructions of a part of a program, and the constants that it adds. -/
structure Fragment where
  code : List Instruction := []
  constants : List Constant := []

namespace Fragment

/-- Every instruction has bytes, in the fragment and in the functions among its constants. -/
structure Encodable (fragment : Fragment) : Prop where
  code : ∀ instruction ∈ fragment.code, instruction.Encodable
  functions : ∀ fn, .function fn ∈ fragment.constants →
    ∀ instruction ∈ fn.code, instruction.Encodable

theorem Encodable.append {front back : Fragment} (hf : front.Encodable) (hb : back.Encodable) :
    Encodable ⟨front.code ++ back.code, front.constants ++ back.constants⟩ where
  code := List.forall_mem_append.mpr ⟨hf.code, hb.code⟩
  functions fn hm := by
    rcases List.mem_append.mp hm with hm | hm
    · exact hf.functions fn hm
    · exact hb.functions fn hm

theorem Encodable.left {front back : Fragment}
    (h : Encodable ⟨front.code ++ back.code, front.constants ++ back.constants⟩) :
    front.Encodable where
  code := (List.forall_mem_append.mp h.code).1
  functions fn hm := h.functions fn (List.mem_append_left _ hm)

theorem Encodable.right {front back : Fragment}
    (h : Encodable ⟨front.code ++ back.code, front.constants ++ back.constants⟩) :
    back.Encodable where
  code := (List.forall_mem_append.mp h.code).2
  functions fn hm := h.functions fn (List.mem_append_right _ hm)

end Fragment

/-- What gives a fragment for the offset of its code and the number of constants before it. -/
def Generator := (start pool : Nat) → Fragment

namespace Generator

/-- No code. -/
def empty : Generator := fun _ _ => {}

/-- One instruction. -/
def single (instruction : Instruction) : Generator := fun _ _ => ⟨[instruction], []⟩

/-- A new constant, and the instruction that loads it. -/
def constant (value : Constant) : Generator := fun _ pool => ⟨[⟨.constant, [pool]⟩], [value]⟩

instance : Append Generator where
  append first second := fun start pool =>
    let front := first start pool
    let back := second (start + sizes front.code) (pool + front.constants.length)
    ⟨front.code ++ back.code, front.constants ++ back.constants⟩

/-- A choice between two branches by the value on top of the stack. -/
def branches (consequent alternative : Generator) : Generator := fun start pool =>
  let first := consequent (start + 3) pool
  let middle := start + 3 + sizes first.code + 3
  let second := alternative middle (pool + first.constants.length)
  ⟨⟨.jumpUnless, [middle]⟩ :: first.code ++
      ⟨.jump, [middle + sizes second.code]⟩ :: second.code,
    first.constants ++ second.constants⟩

/-- A new function, and the instructions that make a closure of it. Its code has a stream of its
own, and its constants come before it. -/
def closure (name : Option String) (parameters locals : Nat) (captures : List Symbol)
    (body : Generator) : Generator := fun _ pool =>
  let inner := body 0 pool
  ⟨captures.map Symbol.load ++ [⟨.closure, [pool + inner.constants.length, captures.length]⟩],
    inner.constants ++ [.function ⟨name, inner.code, locals, parameters⟩]⟩

theorem append_apply (first second : Generator) (start pool : Nat) :
    (first ++ second) start pool =
      ⟨(first start pool).code ++ (second (start + sizes (first start pool).code)
          (pool + (first start pool).constants.length)).code,
        (first start pool).constants ++ (second (start + sizes (first start pool).code)
          (pool + (first start pool).constants.length)).constants⟩ :=
  rfl

/-- The fragment of two branches is the jump over the first one, the first one, the jump over the
second one, and the second one. -/
theorem branches_apply (first second : Generator) (start pool : Nat) :
    ∃ middle last, branches first second start pool =
      ((single ⟨.jumpUnless, [middle]⟩ ++ first) ++ (single ⟨.jump, [last]⟩ ++ second)) start pool ∧
      middle = start + 3 + sizes (first (start + 3) pool).code + 3 ∧
      last = middle + sizes (second middle
        (pool + (first (start + 3) pool).constants.length)).code := by
  refine ⟨_, _, ?_, rfl, rfl⟩
  have hunless (target : Nat) : Instruction.size ⟨.jumpUnless, [target]⟩ = 3 := rfl
  have hjump (target : Nat) : Instruction.size ⟨.jump, [target]⟩ = 3 := rfl
  simp [branches, append_apply, single, hunless, hjump, Nat.add_assoc]

end Generator

/-- The statement leaves the function. -/
def Stmt.returns : Stmt → Bool
  | .returnValue _ | .returnNull => true
  | .store _ _ | .discard _ => false

/-- The block has no statement. -/
def Block.isNull : Block → Bool
  | .null => true
  | .value _ | .next _ _ => false

mutual

/-- The code of an expression, which leaves one value on the stack. -/
def Expr.generate (expr : Expr) : Generator :=
  match expr with
  | .integer value => .constant (.integer value)
  | .text value => .constant (.text value)
  | .boolean value => .single ⟨if value then .pushTrue else .pushFalse, []⟩
  | .name symbol => .single symbol.load
  | .unary op argument => argument.generate ++ .single ⟨op.opcode, []⟩
  | .binary op left right => left.generate ++ right.generate ++ .single ⟨op.opcode, []⟩
  | .condition test consequent alternative =>
    test.generate ++ .branches consequent.generate alternative.generate
  | .function name parameters locals captures body =>
    .closure name parameters locals captures body.generateBody
  | .call callee arguments =>
    callee.generate ++ Expr.generateAll arguments ++ .single ⟨.call, [arguments.length]⟩
  | .collect kind elements =>
    Expr.generateAll elements ++ .single ⟨kind.opcode, [elements.length]⟩
termination_by structural expr

/-- The code of several expressions, which leaves their values on the stack. -/
def Expr.generateAll (exprs : List Expr) : Generator :=
  match exprs with
  | [] => .empty
  | expr :: exprs => expr.generate ++ Expr.generateAll exprs

/-- The code of a statement, which leaves the stack as it was. -/
def Stmt.generate (stmt : Stmt) : Generator :=
  match stmt with
  | .store symbol value => value.generate ++ .single symbol.store
  | .discard value => value.generate ++ .single ⟨.pop, []⟩
  | .returnValue value => value.generate ++ .single ⟨.returnValue, []⟩
  | .returnNull => .single ⟨.returnNull, []⟩

/-- The code of a branch, which leaves the value of the block on the stack. -/
def Block.generate (block : Block) : Generator :=
  match block with
  | .null => .single ⟨.pushNull, []⟩
  | .value result => result.generate
  | .next stmt rest => stmt.generate ++ rest.generate

/-- The code of the body of a function, which returns the value of the block. -/
def Block.generateBody (block : Block) : Generator :=
  match block with
  | .null => .single ⟨.returnNull, []⟩
  | .value result => result.generate ++ .single ⟨.returnValue, []⟩
  | .next stmt rest =>
    if stmt.returns && rest.isNull then stmt.generate else stmt.generate ++ rest.generateBody

end

/-- The code of statements one after the other. -/
def Stmt.generateAll : List Stmt → Generator
  | [] => .empty
  | stmt :: stmts => stmt.generate ++ generateAll stmts

end Core

end StackScript
