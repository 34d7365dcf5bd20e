/-!
# Opcodes

An instruction is a byte for its opcode and, behind it, operands of fixed widths. The byte of an
opcode is its place in the list of all opcodes.
-/

namespace StackScript

/-- The number of bytes of an operand. -/
inductive Width where
  | byte
  | word
  deriving DecidableEq

/-- A byte holds one byte, and a word two. -/
def Width.size : Width → Nat
  | byte => 1
  | word => 2

/-- What an instruction does. -/
inductive Opcode where
  | constant
  | add
  | pop
  | subtract
  | multiply
  | divide
  | pushTrue
  | pushFalse
  | equal
  | notEqual
  | greater
  | negate
  | not
  | jumpUnless
  | jump
  | pushNull
  | getGlobal
  | setGlobal
  | array
  | hash
  | index
  | call
  | returnValue
  | returnNull
  | getLocal
  | setLocal
  | getBuiltin
  | closure
  | getFree
  | currentClosure
  deriving DecidableEq

namespace Opcode

/-- All opcodes, in the order of their bytes. -/
def all : List Opcode :=
  [constant, add, pop, subtract, multiply, divide, pushTrue, pushFalse, equal, notEqual, greater,
    negate, not, jumpUnless, jump, pushNull, getGlobal, setGlobal, array, hash, index, call,
    returnValue, returnNull, getLocal, setLocal, getBuiltin, closure, getFree, currentClosure]

/-- The byte of an opcode. -/
def toByte (op : Opcode) : UInt8 :=
  UInt8.ofNat op.ctorIdx

/-- The opcode of a byte. -/
def ofByte? (byte : UInt8) : Option Opcode :=
  all[byte.toNat]?

/-- The name of an opcode in a listing. -/
def mnemonic : Opcode → String
  | constant => "Constant"
  | add => "Add"
  | pop => "Pop"
  | subtract => "Sub"
  | multiply => "Mul"
  | divide => "Div"
  | pushTrue => "True"
  | pushFalse => "False"
  | equal => "Equal"
  | notEqual => "NotEqual"
  | greater => "GreaterThan"
  | negate => "Minus"
  | not => "Bang"
  | jumpUnless => "JumpNotTruthy"
  | jump => "Jump"
  | pushNull => "Null"
  | getGlobal => "GetGlobal"
  | setGlobal => "SetGlobal"
  | array => "Array"
  | hash => "Hash"
  | index => "Index"
  | call => "Call"
  | returnValue => "ReturnValue"
  | returnNull => "Return"
  | getLocal => "GetLocal"
  | setLocal => "SetLocal"
  | getBuiltin => "GetBuiltin"
  | closure => "Closure"
  | getFree => "GetFree"
  | currentClosure => "CurrentClosure"

/-- The opcode with a given name. -/
def ofMnemonic? (name : String) : Option Opcode :=
  all.find? fun op => op.mnemonic == name

/-- The widths of the operands of an opcode. -/
def widths : Opcode → List Width
  | constant | jumpUnless | jump | getGlobal | setGlobal | array | hash => [.word]
  | call | getLocal | setLocal | getBuiltin | getFree => [.byte]
  | closure => [.word, .byte]
  | _ => []

/-- The number of bytes of an instruction, its opcode and its operands. -/
def size (op : Opcode) : Nat :=
  op.widths.foldl (fun bytes width => bytes + width.size) 1

theorem size_pos (op : Opcode) : 0 < op.size := by
  cases op <;> decide

@[simp] theorem ofByte?_toByte (op : Opcode) : ofByte? op.toByte = some op := by
  cases op <;> rfl

/-- An opcode is found for its own byte only. -/
theorem toByte_of_ofByte? {byte : UInt8} {op : Opcode} (h : ofByte? byte = some op) :
    op.toByte = byte := by
  have hnodup : all.Nodup := by decide
  have hlt : op.toByte.toNat < all.length := by cases op <;> decide
  have hsame : all[op.toByte.toNat]? = all[byte.toNat]? := (ofByte?_toByte op).trans h.symm
  exact UInt8.toNat_inj.mp ((List.getElem?_inj hlt hnodup).mp hsame)

/-- Two opcodes with the same byte are the same. -/
theorem toByte_injective {op op' : Opcode} (h : op.toByte = op'.toByte) : op = op' := by
  have := congrArg ofByte? h
  simpa using this

/-- A byte beyond the last opcode is no opcode. -/
theorem ofByte?_eq_none_iff {byte : UInt8} : ofByte? byte = none ↔ 30 ≤ byte.toNat := by
  simp [ofByte?, all]

end Opcode

end StackScript
