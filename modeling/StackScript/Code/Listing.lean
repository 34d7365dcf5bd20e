import StackScript.Code.Instruction

/-!
# Listings

A sweep decodes one instruction behind the other. It ends at the end of the stream, or at the first
offset at which no instruction can be decoded. A listing is the text of a sweep, a line each.
-/

namespace StackScript

/-- An instruction and the offset of its first byte. -/
structure Located where
  offset : Nat
  instruction : Instruction

namespace Code

/-- The instructions from an offset on, behind those `found` before in reverse, and why decoding
stopped before the end, if it did. -/
def sweepOnto (code : Code) (found : List Located) (offset : Nat) :
    List Located × Option CodeError :=
  if offset < code.size then
    match Instruction.decode code offset with
    | .ok instruction =>
      sweepOnto code (⟨offset, instruction⟩ :: found) (offset + instruction.size)
    | .error error => (found.reverse, some error)
  else (found.reverse, none)
termination_by code.size - offset
decreasing_by
  have := instruction.op.size_pos
  simp only [Instruction.size]
  omega

/-- All instructions of a stream, and why decoding stopped before the end, if it did. -/
def sweep (code : Code) : List Located × Option CodeError :=
  sweepOnto code [] 0

/-- A number in at least four digits. -/
def fourDigits (n : Nat) : String :=
  let digits := toString n
  String.ofList (List.replicate (4 - digits.length) '0') ++ digits

/-- The line of an instruction: its offset, its name and its operands. -/
def line (located : Located) : String :=
  fourDigits located.offset ++ " " ++ located.instruction.op.mnemonic ++
    String.join (located.instruction.operands.map fun operand => " " ++ toString operand) ++ "\n"

/-- The listing of a stream. -/
def listing (code : Code) : String :=
  let (found, stopped) := sweep code
  let lines := String.join (found.map line)
  match stopped with
  | none => lines
  | some error => lines ++ "ERROR: " ++ error.message ++ "\n"

end Code

end StackScript
