import Mathlib.Data.List.Forall2
import StackScript.Proofs.Code.Stream
import StackScript.Proofs.Core.Basic

/-!
# Encoding and decoding are inverse

An instruction has bytes exactly if its operands are as many as its opcode takes and fit. A sweep
finds the instructions whose bytes a stream is made of; and whatever the stream, the bytes of the
instructions that a sweep finds are those in front of the offset at which it stops.
-/

namespace StackScript

/-! ## Bytes in a stream -/

namespace Code

theorem holds_single {code : Code} {offset : Nat} {byte : UInt8} (h : code[offset]? = some byte) :
    code.Holds offset [byte] := by
  intro k found hk
  obtain ⟨rfl, rfl⟩ : k = 0 ∧ byte = found := by simpa [List.getElem?_cons] using hk
  exact h

theorem Holds.append {code : Code} {offset : Nat} {front back : List UInt8}
    (h : code.Holds offset front) (h' : code.Holds (offset + front.length) back) :
    code.Holds offset (front ++ back) := by
  intro k byte hk
  by_cases hlt : k < front.length
  · rw [List.getElem?_append_left hlt] at hk
    exact h k byte hk
  · rw [List.getElem?_append_right (Nat.le_of_not_lt hlt)] at hk
    have hbyte := h' _ byte hk
    rwa [Nat.add_assoc, Nat.add_sub_cancel' (Nat.le_of_not_lt hlt)] at hbyte

/-- Bytes that stand in a stream end in front of its end. -/
theorem Holds.add_length_le {code : Code} {offset : Nat} {bytes : List UInt8}
    (h : code.Holds offset bytes) (hle : offset ≤ code.size) :
    offset + bytes.length ≤ code.size := by
  cases hlast : bytes.getLast? with
  | none =>
      obtain rfl : bytes = [] := by simpa using hlast
      exact hle
  | some last =>
      rw [List.getLast?_eq_getElem?] at hlast
      have hbyte := h _ last hlast
      have hlt := (Array.getElem?_eq_some_iff.mp hbyte).1
      omega

/-- The bytes in front of an offset are those that stand there. -/
theorem Holds.eq_take {code : Code} {bytes : List UInt8} (h : code.Holds 0 bytes) :
    bytes = code.toList.take bytes.length := by
  apply List.ext_getElem?
  intro k
  by_cases hlt : k < bytes.length
  · have hbyte := h k bytes[k] (List.getElem?_eq_getElem hlt)
    have htoList : code.toList[k]? = code[k]? := Array.getElem?_toList
    rw [List.getElem?_take_of_lt hlt, htoList, List.getElem?_eq_getElem hlt, ← hbyte, Nat.zero_add]
  · have hge := Nat.le_of_not_lt hlt
    rw [List.getElem?_eq_none hge, List.getElem?_take_eq_none hge]

end Code

/-! ## What can be encoded -/

namespace Width

/-- A value has bytes if it is less than there are values of its width. -/
theorem exists_encode?_iff {width : Width} {value : Nat} :
    (∃ bytes, width.encode? value = some bytes) ↔ value < 256 ^ width.size := by
  cases width with
  | byte => simp [encode?, size]
  | word => simp [encode?, size]

/-- A value that has been read has the bytes from which it was read. -/
theorem encode?_of_read {width : Width} {code : Code} {offset value : Nat}
    (h : width.read code offset = .ok value) :
    ∃ bytes, width.encode? value = some bytes ∧ code.Holds offset bytes := by
  cases width with
  | byte =>
      simp only [read] at h
      split at h
      case h_1 byte hbyte =>
          obtain rfl : byte.toNat = value := Except.ok.inj h
          exact ⟨[byte], by simp [encode?, byte.toNat_lt], Code.holds_single hbyte⟩
      case h_2 => cases h
  | word =>
      simp only [read] at h
      split at h
      case h_1 high low hhigh hlow =>
          obtain rfl : 256 * high.toNat + low.toNat = value := Except.ok.inj h
          have hlt := high.toNat_lt
          have hlt' := low.toNat_lt
          have hfirst : UInt8.ofNat ((256 * high.toNat + low.toNat) / 256) = high := by
            apply UInt8.toNat_inj.mp
            rw [UInt8.toNat_ofNat']
            omega
          have hsecond : UInt8.ofNat (256 * high.toNat + low.toNat) = low := by
            apply UInt8.toNat_inj.mp
            rw [UInt8.toNat_ofNat']
            omega
          refine ⟨[high, low], ?_, (Code.holds_single hhigh).append (Code.holds_single hlow)⟩
          rw [encode?, if_pos (by omega), hfirst, hsecond]
      case h_2 => cases h

end Width

namespace Instruction

/-- The operands are as many as the opcode takes, and each of them fits in its width. -/
def OperandsFit (instruction : Instruction) : Prop :=
  List.Forall₂ (fun operand width => operand < 256 ^ width.size) instruction.operands
    instruction.op.widths

/-- Values have bytes if each of them fits in its width. -/
theorem exists_encodeOperands_iff (op : Opcode) {widths : List Width} {values : List Nat}
    (hl : values.length = widths.length) :
    (∃ bytes, encodeOperands op widths values = .ok bytes) ↔
      List.Forall₂ (fun operand width => operand < 256 ^ width.size) values widths := by
  induction widths generalizing values with
  | nil =>
      obtain rfl : values = [] := by simpa using hl
      exact ⟨fun _ => .nil, fun _ => ⟨[], rfl⟩⟩
  | cons width widths ih =>
      obtain ⟨value, values, rfl⟩ : ∃ value rest, values = value :: rest :=
        List.exists_cons_of_length_eq_add_one hl
      have hlength : values.length = widths.length := by simpa using hl
      have hrest := ih hlength
      rw [List.forall₂_cons, ← hrest, ← Width.exists_encode?_iff]
      constructor
      · rintro ⟨bytes, h⟩
        cases hv : width.encode? value with
        | none =>
            rw [encodeOperands, hv] at h
            cases h
        | some first =>
            rw [encodeOperands, hv] at h
            obtain ⟨others, hothers, -⟩ := Except.bind_eq_ok_iff.mp h
            exact ⟨⟨first, rfl⟩, others, hothers⟩
      · rintro ⟨⟨first, hv⟩, others, hothers⟩
        refine ⟨first ++ others, ?_⟩
        rw [encodeOperands, hv, hothers]
        rfl

/-- An instruction has bytes if its operands are as many as its opcode takes, and fit. -/
theorem exists_encode_iff {instruction : Instruction} :
    (∃ bytes, instruction.encode = .ok bytes) ↔ instruction.OperandsFit := by
  obtain ⟨op, operands⟩ := instruction
  by_cases hl : operands.length = op.widths.length
  · rw [OperandsFit, ← exists_encodeOperands_iff op hl]
    constructor
    · rintro ⟨bytes, h⟩
      rw [encode, if_neg (not_not.mpr hl)] at h
      obtain ⟨tail, htail, -⟩ := Except.bind_eq_ok_iff.mp h
      exact ⟨tail, htail⟩
    · rintro ⟨tail, htail⟩
      refine ⟨op.toByte :: tail, ?_⟩
      rw [encode, if_neg (not_not.mpr hl), htail]
      rfl
  · constructor
    · rintro ⟨bytes, h⟩
      exact absurd (encodable_of_encode h).1.length_operands hl
    · intro h
      exact absurd h.length_eq hl

/-- Instructions have bytes one behind the other if each of them has. -/
theorem mapM_encode_eq_ok_iff {instructions : List Instruction} {encodings : List (List UInt8)} :
    instructions.mapM encode = .ok encodings ↔
      (∀ instruction ∈ instructions, instruction.Encodable) ∧
        encodings = instructions.map bytes := by
  induction instructions generalizing encodings with
  | nil => simp [pure, Except.pure, eq_comm]
  | cons instruction rest ih =>
      rw [List.mapM_cons, List.forall_mem_cons, List.map_cons]
      constructor
      · intro h
        obtain ⟨first, hfirst, h⟩ := Except.bind_eq_ok_iff.mp h
        obtain ⟨others, hothers, h⟩ := Except.bind_eq_ok_iff.mp h
        obtain rfl : first :: others = encodings := Except.ok.inj h
        obtain ⟨hencodable, hbytes⟩ := encodable_of_encode hfirst
        obtain ⟨hall, rfl⟩ := ih.mp hothers
        exact ⟨⟨hencodable, hall⟩, by rw [hbytes]⟩
      · rintro ⟨⟨hfirst, hall⟩, rfl⟩
        rw [hfirst, ih.mpr ⟨hall, rfl⟩]
        rfl

end Instruction

open Instruction

/-! ## What has been decoded -/

/-- Values that have been read have the bytes from which they were read. -/
theorem Width.encodeOperands_of_readAll (op : Opcode) {code : Code} {widths : List Width}
    {offset : Nat} {values : List Nat} (h : readAll code offset widths = .ok values) :
    values.length = widths.length ∧
      ∃ bytes, encodeOperands op widths values = .ok bytes ∧ code.Holds offset bytes := by
  induction widths generalizing offset values with
  | nil =>
      obtain rfl : [] = values := Except.ok.inj h
      exact ⟨rfl, [], rfl, by simp [Code.Holds]⟩
  | cons width widths ih =>
      obtain ⟨value, hvalue, h⟩ := Except.bind_eq_ok_iff.mp h
      obtain ⟨rest, hrest, h⟩ := Except.bind_eq_ok_iff.mp h
      obtain rfl : value :: rest = values := Except.ok.inj h
      obtain ⟨first, hfirst, hheld⟩ := encode?_of_read hvalue
      obtain ⟨hlength, others, hothers, hheld'⟩ := ih hrest
      refine ⟨by simp [hlength], first ++ others, ?_, ?_⟩
      · rw [encodeOperands, hfirst, hothers]
        rfl
      · rw [← (hheld.read hfirst).2] at hheld'
        exact Code.Holds.append hheld hheld'

/-- A value that cannot be read reaches beyond the end of the stream. -/
theorem Width.size_lt_of_read_error {width : Width} {code : Code} {offset : Nat} {error : CodeError}
    (h : width.read code offset = .error error) : code.size < offset + width.size := by
  cases width with
  | byte =>
      simp only [read] at h
      split at h
      case h_1 => cases h
      case h_2 hnone =>
          have hle := Array.getElem?_eq_none_iff.mp hnone
          simp only [size]
          omega
  | word =>
      apply Nat.lt_of_not_le
      intro hle
      simp only [size] at hle
      rw [read, Array.getElem?_eq_getElem (by omega), Array.getElem?_eq_getElem (by omega)] at h
      cases h

/-- Values that cannot be read reach beyond the end of the stream. -/
theorem Width.size_lt_of_readAll_error {code : Code} {widths : List Width} {offset : Nat}
    {error : CodeError} (h : readAll code offset widths = .error error) :
    (∃ past, error = .truncated past) ∧ code.size < offset + (widths.map size).sum := by
  induction widths generalizing offset with
  | nil => cases h
  | cons width widths ih =>
      rw [List.map_cons, List.sum_cons, ← Nat.add_assoc]
      cases hvalue : width.read code offset with
      | error cause =>
          rw [readAll, hvalue] at h
          obtain rfl : cause = error := Except.error.inj h
          have hlt := size_lt_of_read_error hvalue
          exact ⟨⟨offset, eq_of_read_error hvalue⟩, by omega⟩
      | ok value =>
          cases hrest : readAll code (offset + width.size) widths with
          | error cause =>
              rw [readAll, hvalue] at h
              simp only [hrest, bind, Except.bind] at h
              obtain rfl : cause = error := Except.error.inj h
              exact ih hrest
          | ok rest =>
              rw [readAll, hvalue] at h
              simp only [hrest, bind, Except.bind] at h
              cases h

namespace Code

variable {code : Code} {offset : Nat}

/-- An instruction that has been decoded has the bytes from which it was decoded. -/
theorem holds_of_decode {instruction : Instruction} (h : decode code offset = .ok instruction) :
    instruction.Encodable ∧ code.Holds offset instruction.bytes := by
  cases hbyte : code[offset]? with
  | none => simp [decode, Width.read, hbyte, bind, Except.bind] at h
  | some byte =>
      rw [decode_eq hbyte] at h
      cases hop : Opcode.ofByte? byte with
      | none =>
          rw [hop] at h
          cases h
      | some op =>
          rw [hop] at h
          obtain ⟨values, hvalues, hvalue⟩ := Except.bind_eq_ok_iff.mp h
          obtain rfl : ⟨op, values⟩ = instruction := Except.ok.inj hvalue
          obtain ⟨hlength, tail, htail, hheld⟩ := Width.encodeOperands_of_readAll op hvalues
          have hencode : encode ⟨op, values⟩ = .ok (op.toByte :: tail) := by
            rw [encode, if_neg (not_not.mpr hlength), htail]
            rfl
          obtain ⟨hencodable, hbytes⟩ := encodable_of_encode hencode
          rw [hbytes, Opcode.toByte_of_ofByte? hop]
          exact ⟨hencodable, (holds_single hbyte).append hheld⟩

/-- Why no instruction can be decoded at an offset in front of the end of a stream: the byte there is
no opcode, or the stream ends inside of the instruction. -/
inductive Undecodable (code : Code) (offset : Nat) : CodeError → Prop
  | unknownOpcode {byte : UInt8} (h : code[offset]? = some byte) (ho : Opcode.ofByte? byte = none) :
    Undecodable code offset (.unknownOpcode byte.toNat)
  | truncated {byte : UInt8} {op : Opcode} (h : code[offset]? = some byte)
    (ho : Opcode.ofByte? byte = some op) (hs : code.size < offset + op.size) (past : Nat) :
    Undecodable code offset (.truncated past)

theorem undecodable_of_decode {error : CodeError} (hlt : offset < code.size)
    (h : decode code offset = .error error) : code.Undecodable offset error := by
  have hbyte : code[offset]? = some code[offset] := Array.getElem?_eq_getElem hlt
  rw [decode_eq hbyte] at h
  cases hop : Opcode.ofByte? code[offset] with
  | none =>
      rw [hop] at h
      obtain rfl : .unknownOpcode code[offset].toNat = error := Except.error.inj h
      exact .unknownOpcode hbyte hop
  | some op =>
      rw [hop] at h
      dsimp only at h
      cases hvalues : Width.readAll code (offset + 1) op.widths with
      | ok values =>
          rw [hvalues] at h
          cases h
      | error cause =>
          rw [hvalues] at h
          obtain rfl : cause = error := Except.error.inj h
          obtain ⟨⟨past, rfl⟩, hsize⟩ := Width.size_lt_of_readAll_error hvalues
          refine .truncated hbyte hop ?_ past
          have hop_size := size_eq op []
          simp only [Instruction.size] at hop_size
          omega

/-! ## Sweeps -/

/-- Instructions that a stream carries have bytes, which stand in the stream. -/
theorem Carries.holds {instructions : List Instruction} (h : code.Carries offset instructions) :
    (∀ instruction ∈ instructions, instruction.Encodable) ∧
      code.Holds offset (instructions.flatMap bytes) := by
  induction instructions generalizing offset with
  | nil => exact ⟨List.forall_mem_nil _, by simp [Holds]⟩
  | cons instruction rest ih =>
      obtain ⟨hencodable, hheld⟩ := holds_of_decode h.1
      obtain ⟨hall, hheld'⟩ := ih h.2
      rw [← (hheld.decode hencodable).2] at hheld'
      exact ⟨List.forall_mem_cons.mpr ⟨hencodable, hall⟩, hheld.append hheld'⟩

/-- A sweep finds the instructions that a stream carries from an offset on, up to its end or to an
offset at which no instruction can be decoded. -/
theorem exists_carries_of_sweepOnto (code : Code) (found : List Located) (offset : Nat)
    (hle : offset ≤ code.size) :
    ∃ instructions, code.Carries offset instructions ∧
      (code.sweepOnto found offset).1 = found.reverse ++ located offset instructions ∧
      match (code.sweepOnto found offset).2 with
      | none => offset + sizes instructions = code.size
      | some error => offset + sizes instructions < code.size ∧
          code.Undecodable (offset + sizes instructions) error := by
  fun_induction sweepOnto code found offset with
  | case1 found offset hlt instruction hdecode ih =>
      have hfits : offset + instruction.size ≤ code.size := by
        obtain ⟨hencodable, hheld⟩ := holds_of_decode hdecode
        rw [← (hheld.decode hencodable).2]
        exact hheld.add_length_le hle
      obtain ⟨rest, hcarries, hfound, hstopped⟩ := ih hfits
      refine ⟨instruction :: rest, ⟨hdecode, hcarries⟩, ?_, ?_⟩
      · simp [hfound, located]
      · rwa [sizes_cons, ← Nat.add_assoc]
  | case2 found offset hlt error hdecode =>
      exact ⟨[], trivial, by simp [located], hlt, undecodable_of_decode hlt hdecode⟩
  | case3 found offset hge =>
      exact ⟨[], trivial, by simp [located], Nat.le_antisymm hle (Nat.le_of_not_lt hge)⟩

end Code

/-- Every instruction of some takes a byte at least. -/
theorem Instruction.length_le_sizes (instructions : List Instruction) :
    instructions.length ≤ sizes instructions := by
  induction instructions with
  | nil => exact Nat.le_refl 0
  | cons instruction rest ih =>
      have hpos := instruction.size_pos
      rw [List.length_cons, sizes_cons]
      omega

/-- Encoding and decoding are inverse on whole streams. A sweep over the encodings of instructions
finds these instructions and comes to the end. What can be encoded are just the operands that are as
many as the opcode takes and that fit. And of every stream a sweep finds instructions, no more than
it has bytes, whose encodings are the bytes in front of the offset at which it stops: the end, or the
offset of a byte that is no opcode or of an instruction that the end cuts off. -/
theorem Code.sweep_inverts_encode :
    (∀ (instructions : List Instruction) (encodings : List (List UInt8)),
      instructions.mapM encode = .ok encodings →
        sweep encodings.flatten.toArray = (located 0 instructions, none) ∧
          encodings.flatten.length = sizes instructions) ∧
    (∀ instruction : Instruction,
      (∃ bytes, instruction.encode = .ok bytes) ↔ instruction.OperandsFit) ∧
    ∀ code : Code, ∃ instructions encodings,
      code.sweep.1 = located 0 instructions ∧ instructions.length ≤ code.size ∧
      instructions.mapM encode = .ok encodings ∧
      encodings.flatten = code.toList.take (sizes instructions) ∧
      match code.sweep.2 with
      | none => sizes instructions = code.size
      | some error => sizes instructions < code.size ∧
          code.Undecodable (sizes instructions) error := by
  refine ⟨?_, fun instruction => exists_encode_iff, ?_⟩
  · intro instructions encodings h
    obtain ⟨hencodable, rfl⟩ := mapM_encode_eq_ok_iff.mp h
    rw [← List.flatMap_def]
    exact ⟨sweep_ofInstructions hencodable, length_flatMap_bytes hencodable⟩
  · intro code
    obtain ⟨instructions, hcarries, hfound, hstopped⟩ :=
      exists_carries_of_sweepOnto code [] 0 (Nat.zero_le _)
    obtain ⟨hencodable, hheld⟩ := hcarries.holds
    have hlength := length_flatMap_bytes hencodable
    rw [Nat.zero_add] at hstopped
    refine ⟨instructions, instructions.map bytes, by simpa [sweep] using hfound, ?_,
      mapM_encode_eq_ok_iff.mpr ⟨hencodable, rfl⟩, ?_, hstopped⟩
    · apply Nat.le_trans (length_le_sizes instructions)
      rw [← hlength]
      simpa using hheld.add_length_le (Nat.zero_le _)
    · rw [← List.flatMap_def, ← hlength]
      exact hheld.eq_take

/-- An instruction with two operands, one with one and one without any. -/
theorem Code.sweep_inverts_encode_mixed :
    sweep #[27, 255, 254, 255, 24, 1, 1] =
      (located 0 [⟨.closure, [65534, 255]⟩, ⟨.getLocal, [1]⟩, ⟨.add, []⟩], none) :=
  (sweep_inverts_encode.1 _ [[27, 255, 254, 255], [24, 1], [1]] rfl).1

end StackScript
