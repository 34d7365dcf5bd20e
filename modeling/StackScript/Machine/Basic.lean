import StackScript.Bytecode
import StackScript.Machine.Error

/-!
# The machine

The machine runs instruction streams on a stack of fixed size. A call opens a frame: its local slots
start at the base of the frame, and the value that was called lies in the slot below. There is
always a frame to run; the program's own frame has no callers.

## Implementation notes

Taking a value off the stack only moves the top; the slot keeps what it holds. A function that takes
off more than it put on can therefore uncover old values, which is why the whole stack is part of
the state.
-/

namespace StackScript

/-- How much a program may use. -/
structure Limits where
  stackSize : Nat := 2048
  maxFrames : Nat := 1024
  globalsSize : Nat := 65536
  deriving DecidableEq

/-- A running call: the closure, the offset of its next instruction and its first local slot. -/
structure Frame where
  fn : Function
  free : List Value := []
  next : Nat := 0
  base : Nat := 0

/-- The state of a machine. The slots of the stack below `top` are in use. -/
structure Machine where
  limits : Limits
  constants : Array Value
  stack : Array Value
  top : Nat := 0
  globals : Array Value
  frame : Frame
  callers : List Frame := []
  lastPopped : Value := .null
  output : String := ""

namespace Machine

/-- A machine about to run a program, with the global values that earlier programs have left. -/
def start (bytecode : Bytecode) (limits : Limits) (globals : Array Value) : Machine where
  limits := limits
  constants := bytecode.constants
  stack := Array.replicate limits.stackSize .null
  globals := globals ++ Array.replicate (limits.globalsSize - globals.size) .null
  frame := { fn := ⟨none, bytecode.code, 0, 0⟩ }

/-- The value on top of the stack. -/
def topValue? (machine : Machine) : Option Value :=
  if machine.top = 0 then none else machine.stack[machine.top - 1]?

/-- The number of frames, the program's own included. -/
def depth (machine : Machine) : Nat :=
  machine.callers.length + 1

end Machine

/-- An action of a machine. When it fails, what it has done before stays done. -/
abbrev Act := EStateM RuntimeError Machine

namespace Act

/-- Put a value on the stack. -/
def push (value : Value) : Act Unit := do
  let machine ← get
  if machine.top < machine.stack.size then
    set { machine with
      stack := machine.stack.setIfInBounds machine.top value
      top := machine.top + 1 }
  else throw .stackOverflow

/-- Take a value off the stack. -/
def pop : Act Value := do
  let machine ← get
  if machine.top = 0 then throw .stackUnderflow
  let value := machine.stack[machine.top - 1]?.getD .null
  set { machine with top := machine.top - 1 }
  return value

/-- Take several values off the stack, the lowest first. -/
def popMany (count : Nat) : Act (List Value) := do
  let machine ← get
  if machine.top < count then throw .stackUnderflow
  let start := machine.top - count
  let values := (machine.stack.extract start machine.top).toList
  set { machine with top := start }
  return values

/-- Go on at an offset of the running stream. -/
def jump (offset : Nat) : Act Unit :=
  modify fun machine => { machine with frame := { machine.frame with next := offset } }

/-- The opcode of the next instruction, if the stream goes on, and past it. -/
def fetch : Act (Option Opcode) := do
  let frame := (← get).frame
  match frame.fn.code[frame.next]? with
  | none => return none
  | some byte =>
    match Opcode.ofByte? byte with
    | none => throw (.unknownOpcode byte.toNat)
    | some op =>
      jump (frame.next + 1)
      return some op

/-- The next operand, and past it. -/
def operand (width : Width) : Act Nat := do
  let frame := (← get).frame
  match width.read frame.fn.code frame.next with
  | .error _ => throw (.truncatedInstruction frame.next)
  | .ok value =>
    jump (frame.next + width.size)
    return value

/-- The stack slot of a local of the running function. It has to be in use. -/
def localSlot (index : Nat) : Act Nat := do
  let machine ← get
  let slot := machine.frame.base + index
  if slot < machine.top then return slot else throw (.invalidOperand "local" slot)

end Act

end StackScript
