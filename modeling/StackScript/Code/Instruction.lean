import StackScript.Code.Error
import StackScript.Code.Opcode

/-!
# Instructions in bytes

Operands are written with the high byte first. Writing checks the number of operands before the
size of any of them; reading fails at the offset of the part that is cut off.
-/

namespace StackScript

/-- A stream of instructions in bytes. -/
abbrev Code := Array UInt8

/-- An opcode and its operands. -/
structure Instruction where
  op : Opcode
  operands : List Nat
  deriving DecidableEq

namespace Width

/-- The bytes of a value that fits. -/
def encode? : Width → Nat → Option (List UInt8)
  | byte, value => if value < 256 then some [UInt8.ofNat value] else none
  | word, value =>
    if value < 65536 then some [UInt8.ofNat (value / 256), UInt8.ofNat value] else none

/-- The value at an offset. -/
def read (code : Code) (offset : Nat) : Width → Except CodeError Nat
  | byte =>
    match code[offset]? with
    | some value => .ok value.toNat
    | none => .error (.truncated offset)
  | word =>
    match code[offset]?, code[offset + 1]? with
    | some high, some low => .ok (256 * high.toNat + low.toNat)
    | _, _ => .error (.truncated offset)

/-- The values at an offset, one behind the other. -/
def readAll (code : Code) (offset : Nat) : List Width → Except CodeError (List Nat)
  | [] => .ok []
  | width :: widths => do
    let value ← width.read code offset
    let values ← readAll code (offset + width.size) widths
    return value :: values

end Width

namespace Instruction

/-- The number of bytes of an instruction. -/
def size (instruction : Instruction) : Nat :=
  instruction.op.size

/-- The bytes of operands of given widths. -/
def encodeOperands (op : Opcode) : List Width → List Nat → Except CodeError (List UInt8)
  | width :: widths, value :: values => do
    match width.encode? value with
    | none => throw (.operandOutOfRange op.mnemonic value width.size)
    | some bytes =>
      let rest ← encodeOperands op widths values
      return bytes ++ rest
  | _, _ => return []

/-- The bytes of an instruction. -/
def encode (instruction : Instruction) : Except CodeError (List UInt8) := do
  let ⟨op, operands⟩ := instruction
  if operands.length ≠ op.widths.length then
    throw (.operandCount op.mnemonic op.widths.length operands.length)
  let bytes ← encodeOperands op op.widths operands
  return op.toByte :: bytes

/-- The opcode of a byte, or an error. -/
def opcode (byte : UInt8) : Except CodeError Opcode :=
  match Opcode.ofByte? byte with
  | some op => .ok op
  | none => .error (.unknownOpcode byte.toNat)

/-- The instruction at an offset. -/
def decode (code : Code) (offset : Nat) : Except CodeError Instruction := do
  let byte ← Width.byte.read code offset
  let op ← opcode (UInt8.ofNat byte)
  let operands ← Width.readAll code (offset + 1) op.widths
  return ⟨op, operands⟩

end Instruction

end StackScript
