import StackScript.Code.Instruction

/-!
# Instruction buffers

A stream under construction remembers its last two instructions: the last one may still be taken
back or turned into another, and the one before it is then the last.
-/

namespace StackScript

namespace Code

/-- The stream with some bytes overwritten, as far as the stream reaches. -/
def write (code : Code) (position : Nat) : List UInt8 → Code
  | [] => code
  | byte :: bytes => write (code.setIfInBounds position byte) (position + 1) bytes

/-- The stream with some bytes overwritten, all of which have to lie inside. -/
def replace (code : Code) (position : Nat) (bytes : List UInt8) : Except CodeError Code :=
  if position + bytes.length ≤ code.size then .ok (code.write position bytes)
  else .error (.truncated position)

@[simp] theorem size_write (code : Code) (position : Nat) (bytes : List UInt8) :
    (code.write position bytes).size = code.size := by
  induction bytes generalizing code position with
  | nil => rfl
  | cons byte bytes ih => simp [write, ih]

end Code

/-- An opcode and the offset at which it was emitted. -/
structure Emitted where
  op : Opcode
  position : Nat
  deriving DecidableEq

/-- A stream under construction, with its last two instructions. -/
structure Buffer where
  code : Code := #[]
  last : Option Emitted := none
  previous : Option Emitted := none

namespace Buffer

/-- Append the bytes of an instruction. -/
def push (buffer : Buffer) (op : Opcode) (bytes : List UInt8) : Buffer :=
  let position := buffer.code.size
  { code := buffer.code ++ bytes, last := some ⟨op, position⟩, previous := buffer.last }

/-- The last instruction has this opcode. -/
def lastIs (buffer : Buffer) (op : Opcode) : Bool :=
  buffer.last.any (·.op == op)

/-- Take the last instruction back if it discards a value. -/
def removeLastPop (buffer : Buffer) : Buffer :=
  match buffer.last with
  | some ⟨.pop, position⟩ =>
    { code := buffer.code.shrink position, last := buffer.previous, previous := none }
  | _ => buffer

/-- Overwrite some bytes. -/
def replace (buffer : Buffer) (position : Nat) (bytes : List UInt8) : Except CodeError Buffer := do
  let code ← buffer.code.replace position bytes
  return { buffer with code }

/-- Let the last instruction return the value that it would discard. -/
def popToReturn (buffer : Buffer) : Except CodeError Buffer :=
  match buffer.last with
  | some ⟨.pop, position⟩ => do
    let buffer ← buffer.replace position [Opcode.returnValue.toByte]
    return { buffer with last := some ⟨.returnValue, position⟩ }
  | _ => .ok buffer

/-- The stream whose last instruction returns the value that it would discard. A stream that cannot be
changed stays as it is. -/
def returnLastPop (buffer : Buffer) : Buffer :=
  match buffer.popToReturn with
  | .ok buffer => buffer
  | .error _ => buffer

/-- Give the instruction at a position another operand. Which instruction it is, its byte says. -/
def patch (buffer : Buffer) (position operand : Nat) : Except CodeError Buffer := do
  let byte ← Width.byte.read buffer.code position
  let op ← Instruction.opcode (UInt8.ofNat byte)
  let bytes ← Instruction.encode ⟨op, [operand]⟩
  buffer.replace position bytes

end Buffer

end StackScript
