import Mathlib.Algebra.GroupWithZero.Nat
import StackScript.Code.Listing

/-!
# Streams that are instruction lists

A stream carries a list of instructions at an offset if decoding finds one behind the other there.
The bytes of encoded instructions carry these instructions, wherever they stand, and the sweep over
a stream that is made of nothing else finds them all.
-/

namespace StackScript

namespace Instruction

/-- The bytes of an instruction, if it has any. -/
def bytes (instruction : Instruction) : List UInt8 :=
  match instruction.encode with
  | .ok bytes => bytes
  | .error _ => []

/-- An instruction whose operands are as many as its opcode takes, and fit. -/
def Encodable (instruction : Instruction) : Prop :=
  instruction.encode = .ok instruction.bytes

theorem encodable_of_encode {instruction : Instruction} {bytes : List UInt8}
    (h : instruction.encode = .ok bytes) : instruction.Encodable ∧ instruction.bytes = bytes := by
  simp [Encodable, Instruction.bytes, h]

/-- An instruction that has bytes has as many operands as its opcode takes. -/
theorem Encodable.length_operands {instruction : Instruction} (h : instruction.Encodable) :
    instruction.operands.length = instruction.op.widths.length := by
  obtain ⟨op, operands⟩ := instruction
  apply Decidable.byContradiction
  intro hl
  simp [Encodable, encode, hl, bind, Except.bind, throw, throwThe, MonadExceptOf.throw] at h

/-- The bytes of an instruction start with that of its opcode. -/
theorem Encodable.head?_bytes {instruction : Instruction} (h : instruction.Encodable) :
    instruction.bytes.head? = some instruction.op.toByte := by
  have hl := h.length_operands
  obtain ⟨op, operands⟩ := instruction
  unfold Encodable at h
  generalize bytes ⟨op, operands⟩ = bytes at h ⊢
  cases ho : encodeOperands op op.widths operands with
  | error error => simp [encode, hl, ho, bind, Except.bind] at h
  | ok tail =>
      obtain rfl : op.toByte :: tail = bytes := by
        simpa [encode, hl, ho, bind, Except.bind, pure, Except.pure] using h
      rfl

/-- The number of bytes of several instructions. -/
def sizes (instructions : List Instruction) : Nat :=
  (instructions.map size).sum

@[simp] theorem sizes_nil : sizes [] = 0 := rfl

@[simp] theorem sizes_cons (instruction : Instruction) (rest : List Instruction) :
    sizes (instruction :: rest) = instruction.size + sizes rest := by
  simp [sizes]

@[simp] theorem sizes_append (front back : List Instruction) :
    sizes (front ++ back) = sizes front + sizes back := by
  simp [sizes]

theorem size_pos (instruction : Instruction) : 0 < instruction.size :=
  instruction.op.size_pos

/-- The instruction at an offset has the opcode of the byte there, and the operands behind it. -/
theorem decode_eq {code : Code} {next : Nat} {byte : UInt8} (h : code[next]? = some byte) :
    decode code next =
      match Opcode.ofByte? byte with
      | none => .error (.unknownOpcode byte.toNat)
      | some op => (Width.readAll code (next + 1) op.widths).map fun values => ⟨op, values⟩ := by
  have hread : Width.byte.read code next = .ok byte.toNat := by rw [Width.read, h]
  simp only [decode, hread, bind, Except.bind, UInt8.ofNat_toNat, opcode]
  cases Opcode.ofByte? byte with
  | none => rfl
  | some op =>
      dsimp only
      cases Width.readAll code (next + 1) op.widths <;> rfl

theorem size_eq (op : Opcode) (values : List Nat) :
    size ⟨op, values⟩ = 1 + (op.widths.map Width.size).sum := by
  cases op <;> rfl

end Instruction

/-- Reading a value fails where the value starts. -/
theorem Width.eq_of_read_error {width : Width} {code : Code} {offset : Nat} {error : CodeError}
    (h : width.read code offset = .error error) : error = .truncated offset := by
  cases width <;> simp only [read] at h <;> split at h <;> simp_all

open Instruction

namespace Code

/-- The bytes stand in the stream from an offset on. -/
def Holds (code : Code) (offset : Nat) (bytes : List UInt8) : Prop :=
  ∀ (k : Nat) (byte : UInt8), bytes[k]? = some byte → code[offset + k]? = some byte

/-- Decoding finds the instructions one behind the other from an offset on. -/
def Carries (code : Code) : (offset : Nat) → List Instruction → Prop
  | _, [] => True
  | offset, instruction :: rest =>
    decode code offset = .ok instruction ∧ Carries code (offset + instruction.size) rest

/-- The stream of some instructions. -/
def ofInstructions (instructions : List Instruction) : Code :=
  (instructions.flatMap Instruction.bytes).toArray

/-- Instructions with the offsets that they have one behind the other. -/
def located : (offset : Nat) → List Instruction → List Located
  | _, [] => []
  | offset, instruction :: rest =>
    ⟨offset, instruction⟩ :: located (offset + instruction.size) rest

theorem Holds.append_left {code : Code} {offset : Nat} {front back : List UInt8}
    (h : code.Holds offset (front ++ back)) : code.Holds offset front := by
  intro k byte hk
  apply h
  rw [List.getElem?_append_left (List.getElem?_eq_some_iff.mp hk).1, hk]

theorem Holds.append_right {code : Code} {offset : Nat} {front back : List UInt8}
    (h : code.Holds offset (front ++ back)) : code.Holds (offset + front.length) back := by
  intro k byte hk
  rw [Nat.add_assoc]
  apply h
  rw [List.getElem?_append_right (by omega), Nat.add_sub_cancel_left, hk]

/-- An instruction that stands somewhere begins with the byte of its opcode there. -/
theorem Holds.head {code : Code} {offset : Nat} {instruction : Instruction}
    (h : code.Holds offset instruction.bytes) (he : instruction.Encodable) :
    code[offset]? = some instruction.op.toByte :=
  h 0 instruction.op.toByte (by rw [← List.head?_eq_getElem?, he.head?_bytes])

/-- Bytes stand where they have been put. -/
theorem holds_append (front back : Code) (bytes : List UInt8) :
    (front ++ bytes.toArray ++ back).Holds front.size bytes := by
  intro k byte hk
  have hlt : k < bytes.length := (List.getElem?_eq_some_iff.mp hk).1
  rw [Array.getElem?_append_left (by simp; omega), Array.getElem?_append_right (by omega)]
  simpa using hk

theorem Holds.read {code : Code} {offset : Nat} {width : Width} {value : Nat} {bytes : List UInt8}
    (h : code.Holds offset bytes) (he : width.encode? value = some bytes) :
    width.read code offset = .ok value ∧ bytes.length = width.size := by
  cases width with
  | byte =>
      obtain ⟨hlt, rfl⟩ : value < 256 ∧ [UInt8.ofNat value] = bytes := by
        simpa [Width.encode?] using he
      have h0 := h 0 _ rfl
      simp only [Nat.add_zero] at h0
      simp [Width.read, h0, Width.size, Nat.mod_eq_of_lt hlt]
  | word =>
      obtain ⟨hlt, rfl⟩ :
          value < 65536 ∧ [UInt8.ofNat (value / 256), UInt8.ofNat value] = bytes := by
        simpa [Width.encode?] using he
      have h0 := h 0 _ rfl
      have h1 := h 1 _ rfl
      simp only [Nat.add_zero] at h0
      simp only [Width.read, h0, h1, Width.size, UInt8.toNat_ofNat']
      refine ⟨congrArg _ ?_, rfl⟩
      omega

theorem Holds.readAll {code : Code} {op : Opcode} {widths : List Width} {values : List Nat}
    {offset : Nat} {bytes : List UInt8} (h : code.Holds offset bytes)
    (hl : values.length = widths.length) (he : encodeOperands op widths values = .ok bytes) :
    Width.readAll code offset widths = .ok values ∧
      bytes.length = (widths.map Width.size).sum := by
  induction widths generalizing values offset bytes with
  | nil =>
      obtain rfl : values = [] := by simpa using hl
      obtain rfl : bytes = [] := by simpa [encodeOperands, pure, Except.pure] using he.symm
      exact ⟨rfl, rfl⟩
  | cons width widths ih =>
      obtain ⟨value, values, rfl⟩ : ∃ value rest, values = value :: rest :=
        List.exists_cons_of_length_eq_add_one hl
      cases hv : width.encode? value with
      | none => simp [encodeOperands, hv, throw, throwThe, MonadExceptOf.throw] at he
      | some first =>
          cases hr : encodeOperands op widths values with
          | error error => simp [encodeOperands, hv, hr, bind, Except.bind] at he
          | ok rest =>
              obtain rfl : first ++ rest = bytes := by
                simpa [encodeOperands, hv, hr, bind, Except.bind, pure, Except.pure] using he
              obtain ⟨hread, hfirst⟩ := h.append_left.read hv
              have hright := h.append_right
              rw [hfirst] at hright
              obtain ⟨hall, hrest⟩ := ih hright (by simpa using hl) hr
              simp [Width.readAll, hread, hall, hfirst, hrest, bind, Except.bind, pure,
                Except.pure]

/-- Reading finds the instruction whose bytes stand at an offset. -/
theorem Holds.decode {code : Code} {offset : Nat} {instruction : Instruction}
    (he : instruction.Encodable) (h : code.Holds offset instruction.bytes) :
    decode code offset = .ok instruction ∧ instruction.bytes.length = instruction.size := by
  obtain ⟨op, operands⟩ := instruction
  unfold Instruction.Encodable at he
  generalize Instruction.bytes ⟨op, operands⟩ = bytes at he h
  by_cases hl : operands.length = op.widths.length
  · cases ho : encodeOperands op op.widths operands with
    | error error => simp [encode, hl, ho, bind, Except.bind] at he
    | ok tail =>
        obtain rfl : op.toByte :: tail = bytes := by
          simpa [encode, hl, ho, bind, Except.bind, pure, Except.pure] using he
        have h0 := h 0 _ rfl
        simp only [Nat.add_zero] at h0
        have htail : code.Holds (offset + [op.toByte].length) tail := h.append_right
        rw [List.length_singleton] at htail
        obtain ⟨hall, hlen⟩ := htail.readAll hl ho
        have hsize : op.size = (op.widths.map Width.size).sum + 1 := by cases op <;> rfl
        simp [Instruction.decode, Width.read, h0, opcode, hall, hlen, Instruction.size, hsize,
          bind, Except.bind, pure, Except.pure]
  · simp [encode, hl, bind, Except.bind, throw, throwThe, MonadExceptOf.throw] at he

theorem carries_append {code : Code} {offset : Nat} {front back : List Instruction} :
    code.Carries offset (front ++ back) ↔
      code.Carries offset front ∧ code.Carries (offset + sizes front) back := by
  induction front generalizing offset with
  | nil => simp [Carries]
  | cons instruction front ih => simp [Carries, ih, and_assoc, Nat.add_assoc]

/-- The number of bytes of a stream of instructions. -/
theorem length_flatMap_bytes {instructions : List Instruction}
    (h : ∀ instruction ∈ instructions, instruction.Encodable) :
    (instructions.flatMap Instruction.bytes).length = sizes instructions := by
  induction instructions with
  | nil => rfl
  | cons instruction rest ih =>
      have hi : instruction.Encodable := h _ List.mem_cons_self
      have hl := (holds_append #[] #[] instruction.bytes).decode hi
      simp [hl.2, ih fun i hi => h i (List.mem_cons_of_mem _ hi)]

theorem size_ofInstructions {instructions : List Instruction}
    (h : ∀ instruction ∈ instructions, instruction.Encodable) :
    (ofInstructions instructions).size = sizes instructions := by
  simpa [ofInstructions] using length_flatMap_bytes h

@[simp] theorem ofInstructions_append (front back : List Instruction) :
    ofInstructions (front ++ back) = ofInstructions front ++ ofInstructions back := by
  simp [ofInstructions]

theorem Holds.carries {code : Code} {offset : Nat} {instructions : List Instruction}
    (he : ∀ instruction ∈ instructions, instruction.Encodable)
    (h : code.Holds offset (instructions.flatMap Instruction.bytes)) :
    code.Carries offset instructions := by
  induction instructions generalizing offset with
  | nil => exact trivial
  | cons instruction rest ih =>
      rw [List.flatMap_cons] at h
      obtain ⟨hd, hl⟩ := h.append_left.decode (he _ List.mem_cons_self)
      refine ⟨hd, ih (fun i hi => he i (List.mem_cons_of_mem _ hi)) ?_⟩
      rw [← hl]
      exact h.append_right

/-- A stream of instructions carries them. -/
theorem carries_ofInstructions {instructions : List Instruction}
    (h : ∀ instruction ∈ instructions, instruction.Encodable) :
    (ofInstructions instructions).Carries 0 instructions := by
  apply Holds.carries h
  simpa [ofInstructions] using holds_append #[] #[] (instructions.flatMap Instruction.bytes)

/-- A sweep finds the instructions that the stream carries up to its end. -/
theorem sweepOnto_of_carries {code : Code} {offset : Nat} {instructions : List Instruction}
    (found : List Located) (h : code.Carries offset instructions)
    (hs : offset + sizes instructions = code.size) :
    sweepOnto code found offset = (found.reverse ++ located offset instructions, none) := by
  induction instructions generalizing offset found with
  | nil =>
      rw [sweepOnto, if_neg (by simp at hs; omega)]
      simp [located]
  | cons instruction rest ih =>
      obtain ⟨hd, hrest⟩ := h
      have hpos := instruction.size_pos
      rw [sizes_cons] at hs
      rw [sweepOnto, if_pos (by omega)]
      simp only [hd]
      rw [ih _ hrest (by omega)]
      simp [located]

/-- Sweeping the stream of some instructions finds just these. -/
theorem sweep_ofInstructions {instructions : List Instruction}
    (h : ∀ instruction ∈ instructions, instruction.Encodable) :
    (ofInstructions instructions).sweep = (located 0 instructions, none) := by
  have := sweepOnto_of_carries [] (carries_ofInstructions h)
    (by rw [size_ofInstructions h, Nat.zero_add])
  simpa [sweep] using this

end Code

end StackScript
