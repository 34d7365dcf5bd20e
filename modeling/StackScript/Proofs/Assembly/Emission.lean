import StackScript.Assembly.Basic
import StackScript.Proofs.Core.Generate

/-!
# What has been emitted

An assembly emits a fragment if the bytes of its instructions are put behind the buffer and its
constants behind the pool, and if the last instruction that the buffer remembers is the last one of
the fragment. Emitting is put together as generators are: what two steps emit one after the other is
the fragment of both generators with `++`.
-/

namespace StackScript

open StackScript.Core Instruction

namespace Buffer

@[simp] theorem code_push (buffer : Buffer) (op : Opcode) (bytes : List UInt8) :
    (buffer.push op bytes).code = buffer.code ++ bytes.toArray :=
  Array.ext' (by simp [push])

@[simp] theorem last_push (buffer : Buffer) (op : Opcode) (bytes : List UInt8) :
    (buffer.push op bytes).last = some ⟨op, buffer.code.size⟩ := rfl

@[simp] theorem previous_push (buffer : Buffer) (op : Opcode) (bytes : List UInt8) :
    (buffer.push op bytes).previous = buffer.last := rfl

end Buffer

namespace Assembly

/-- The last of some instructions at the end of a stream. -/
def lastEmitted (code : Code) (instructions : List Instruction) : Option Emitted :=
  instructions.getLast?.map fun instruction => ⟨instruction.op, code.size - instruction.size⟩

/-- The second assembly is the first one with a fragment more. -/
structure Emits (before : Assembly) (fragment : Fragment) (after : Assembly) : Prop where
  code : after.buffer.code = before.buffer.code ++ Code.ofInstructions fragment.code
  last : after.buffer.last =
    (lastEmitted after.buffer.code fragment.code).or before.buffer.last
  constants : after.constants =
    before.constants ++ (fragment.constants.map Constant.toValue).toArray
  encodable : fragment.Encodable

/-- The second assembly is the first one with what a generator gives for it more. -/
def Generates (before : Assembly) (generator : Generator) (after : Assembly) : Prop :=
  before.Emits (generator before.position before.constants.size) after

variable {before middle after : Assembly}

theorem Emits.position {fragment : Fragment} (h : before.Emits fragment after) :
    after.position = before.position + sizes fragment.code := by
  simp [Assembly.position, h.code, Code.size_ofInstructions h.encodable.code]

theorem Emits.pool {fragment : Fragment} (h : before.Emits fragment after) :
    after.constants.size = before.constants.size + fragment.constants.length := by
  simp [h.constants]

theorem Emits.append {front back : Fragment} (hf : before.Emits front middle)
    (hb : middle.Emits back after) :
    before.Emits ⟨front.code ++ back.code, front.constants ++ back.constants⟩ after where
  code := by simp [hb.code, hf.code]
  last := by
    cases hl : back.code.getLast? with
    | none =>
        obtain hnil : back.code = [] := by simpa using hl
        have hcode : after.buffer.code = middle.buffer.code := by
          simp [hb.code, hnil, Code.ofInstructions]
        rw [hb.last, hf.last]
        simp [lastEmitted, hnil, hcode]
    | some instruction =>
        rw [hb.last]
        simp [lastEmitted, hl]
  constants := by simp [hb.constants, hf.constants]
  encodable := hf.encodable.append hb.encodable

theorem Generates.append {first second : Generator} (hf : before.Generates first middle)
    (hs : middle.Generates second after) : before.Generates (first ++ second) after := by
  unfold Generates at hs ⊢
  rw [Emits.position hf, Emits.pool hf] at hs
  exact Emits.append hf hs

/-- Emitting nothing changes nothing. -/
theorem generates_empty (assembly : Assembly) : assembly.Generates .empty assembly where
  code := by simp [Generator.empty, Code.ofInstructions]
  last := by simp [Generator.empty, lastEmitted]
  constants := by simp [Generator.empty]
  encodable := ⟨by simp [Generator.empty], by simp [Generator.empty]⟩

/-- What has been emitted shows in the code, its last instruction and the constants alone. -/
theorem Generates.congr {generator : Generator} (h : before.Generates generator middle)
    (hc : after.buffer.code = middle.buffer.code) (hl : after.buffer.last = middle.buffer.last)
    (hk : after.constants = middle.constants) : before.Generates generator after where
  code := hc.trans h.code
  last := by rw [hl, hc]; exact h.last
  constants := hk.trans h.constants
  encodable := h.encodable

/-- The scope plays no part in what is emitted. -/
theorem Generates.of_scope {generator : Generator} {scope : Scope}
    (h : Generates { before with scope } generator after) : before.Generates generator after :=
  ⟨h.code, h.last, h.constants, h.encodable⟩

/-- An assembly after an instruction is the one before with the bytes of the instruction. -/
theorem eq_of_emit {op : Opcode} {operands : List Nat} (h : before.emit op operands = .ok after) :
    Encodable ⟨op, operands⟩ ∧
      after = { before with buffer := before.buffer.push op (bytes ⟨op, operands⟩) } := by
  unfold emit at h
  split at h
  case h_1 bytes he =>
      obtain ⟨henc, hbytes⟩ := encodable_of_encode he
      rw [hbytes]
      exact ⟨henc, by simpa using h.symm⟩
  case h_2 => simp at h

theorem generates_of_emit {op : Opcode} {operands : List Nat}
    (h : before.emit op operands = .ok after) :
    after.scope = before.scope ∧ before.Generates (.single ⟨op, operands⟩) after := by
  obtain ⟨he, rfl⟩ := eq_of_emit h
  refine ⟨rfl, ⟨?_, ?_, ?_, ?_⟩⟩
  · simp [Generator.single, Code.ofInstructions]
  · have hl := (Code.holds_append #[] #[] _).decode he
    simp [Generator.single, lastEmitted, hl.2]
  · simp [Generator.single]
  · exact ⟨by simpa [Generator.single] using he, by simp [Generator.single]⟩

/-- A new constant and the instruction that loads it. -/
theorem generates_of_emitConstant {constant : Constant}
    (h : before.emitConstant constant.toValue = .ok after)
    (hc : ∀ fn, constant ≠ .function fn) :
    after.scope = before.scope ∧ before.Generates (.constant constant) after := by
  obtain ⟨hs, hg⟩ := generates_of_emit h
  refine ⟨hs, ⟨hg.code, hg.last, ?_, ?_⟩⟩
  · simpa [Generator.single, Generator.constant, addConstant] using hg.constants
  · refine ⟨by simpa [Generator.single, Generator.constant] using hg.encodable.code, ?_⟩
    intro fn hm
    exact absurd (by simpa [Generator.constant, eq_comm] using hm) (hc fn)

/-- Loading what a symbol stands for is one instruction. -/
theorem generates_of_load {symbol : Symbol} (h : before.load symbol = .ok after) :
    after.scope = before.scope ∧ before.Generates (.single symbol.load) after := by
  obtain ⟨name, place, index⟩ := symbol
  cases place <;> exact generates_of_emit h

/-- Loading what several symbols stand for is one instruction for each. -/
theorem generates_of_loads {symbols : List Symbol} (h : symbols.foldlM load before = .ok after) :
    after.scope = before.scope ∧
      before.Generates (fun _ _ => ⟨symbols.map Symbol.load, []⟩) after := by
  induction symbols generalizing before with
  | nil =>
      obtain rfl : before = after := by simpa [pure, Except.pure] using h
      exact ⟨rfl, generates_empty before⟩
  | cons symbol symbols ih =>
      rw [List.foldlM_cons, Except.bind_eq_ok_iff] at h
      obtain ⟨middle, hl, hr⟩ := h
      obtain ⟨hs, hg⟩ := generates_of_load hl
      obtain ⟨hs', hg'⟩ := ih hr
      exact ⟨hs'.trans hs, hg.append hg'⟩

end Assembly

end StackScript
