import Mathlib.Data.List.Basic
import StackScript.Proofs.Assembly.Ending
import StackScript.Proofs.Assembly.Workbench

/-!
# Buffers that know their last instruction

A buffer remembers where its last instruction starts. This is the last one of the instructions that
its bytes are, and stays so when fragments are emitted. Work on a bench goes on from where it began if
the buffers around stay as they are, and only code and constants are added.
-/

namespace StackScript

open StackScript.Core Instruction Assembly

/-! ## Buffers -/

namespace Code

theorem getLast?_located (start : Nat) (init : List Instruction) (last : Instruction) :
    (located start (init ++ [last])).getLast? = some ⟨start + sizes init, last⟩ := by
  induction init generalizing start with
  | nil => rfl
  | cons first init ih =>
      rw [List.cons_append, located, List.getLast?_cons, ih, sizes_cons, Nat.add_assoc]
      rfl

end Code

namespace Buffer

/-- The buffer is that of some instructions, and the last one it remembers is the last of them. -/
structure Tracks (buffer : Buffer) (instructions : List Instruction) : Prop where
  encodable : ∀ instruction ∈ instructions, instruction.Encodable
  code : buffer.code = Code.ofInstructions instructions
  last : buffer.last = lastEmitted buffer.code instructions

/-- What a buffer remembers as its last instruction is the last one: the byte of its opcode is at its
position, its bytes end the buffer, and it is the last one that a sweep finds. Only an empty buffer
remembers none. -/
structure Exact (buffer : Buffer) : Prop where
  empty : buffer.last = none → buffer.code = #[]
  opcode : ∀ last ∈ buffer.last, buffer.code[last.position]? = some last.op.toByte
  ends : ∀ last ∈ buffer.last, ∃ front operands bytes, front.size = last.position ∧
    Instruction.encode ⟨last.op, operands⟩ = .ok bytes ∧ buffer.code = front ++ bytes.toArray
  swept : buffer.code.sweep.2 = none ∧
    buffer.code.sweep.1.getLast?.map (fun found => ⟨found.instruction.op, found.offset⟩) =
      buffer.last

theorem tracks_nil : Tracks {} [] where
  encodable := List.forall_mem_nil _
  code := rfl
  last := rfl

/-- What is emitted is tracked. -/
theorem Tracks.emits {before after : Assembly} {instructions : List Instruction}
    {fragment : Fragment} (h : before.buffer.Tracks instructions) (he : before.Emits fragment after) :
    after.buffer.Tracks (instructions ++ fragment.code) where
  encodable := List.forall_mem_append.mpr ⟨h.encodable, he.encodable.code⟩
  code := by rw [he.code, h.code, Code.ofInstructions_append]
  last := by
    rw [he.last, lastEmitted_append, h.last]
    cases hcode : fragment.code with
    | nil =>
        have : after.buffer.code = before.buffer.code := by
          simp [he.code, hcode, Code.ofInstructions]
        rw [this]
    | cons first rest => simp [lastEmitted, List.getLast?_cons]

theorem Tracks.exact {buffer : Buffer} {instructions : List Instruction}
    (h : buffer.Tracks instructions) : buffer.Exact := by
  have hswept := Code.sweep_ofInstructions h.encodable
  rcases List.eq_nil_or_concat' instructions with rfl | ⟨init, last, rfl⟩
  · have hcode : buffer.code = #[] := h.code
    have hlast : buffer.last = none := h.last
    constructor
    · exact fun _ => hcode
    · simp [hlast]
    · simp [hlast]
    · rw [h.code, hswept, hlast]
      exact ⟨rfl, rfl⟩
  · obtain ⟨hinit, hencodable⟩ := List.forall_mem_append.mp h.encodable
    have he : last.Encodable := hencodable last List.mem_cons_self
    have hfront := Code.size_ofInstructions hinit
    have hcode : buffer.code = Code.ofInstructions init ++ last.bytes.toArray := by
      rw [h.code, Code.ofInstructions_append]
      simp [Code.ofInstructions]
    have hsize : buffer.code.size = sizes init + last.size := by
      rw [h.code, Code.size_ofInstructions h.encodable]
      simp
    have hlast : buffer.last = some ⟨last.op, sizes init⟩ := by
      simp [h.last, lastEmitted, hsize]
    constructor
    · simp [hlast]
    · rw [hlast]
      rintro _ ⟨⟩
      have hholds := Code.holds_append (Code.ofInstructions init) #[] last.bytes
      rw [Array.append_empty, ← hcode, hfront] at hholds
      exact hholds.head he
    · rw [hlast]
      rintro _ ⟨⟩
      exact ⟨_, last.operands, last.bytes, hfront, he, hcode⟩
    · rw [h.code, hswept, hlast, Code.getLast?_located, Nat.zero_add]
      exact ⟨rfl, rfl⟩

end Buffer

/-! ## Benches -/

namespace Bench

/-- Every buffer is that of some instructions, and knows the last one. -/
def Tidy (bench : Bench) : Prop :=
  ∀ buffer ∈ bench.buffers, ∃ instructions, buffer.Tracks instructions

/-- A moment of some work. What was at hand when it began is still there: the buffers of the functions
around are the same, and the buffer at hand and the constants have been added to. The work may have
entered functions of its own, whose buffers are further in. -/
structure Continues (start bench : Bench) : Prop where
  tidy : bench.Tidy
  buffers : ∃ inner current added, bench.buffers = inner ++ current :: start.enclosing ∧
    current.code = start.assembly.buffer.code ++ added
  constants : ∃ added, bench.assembly.constants = start.assembly.constants ++ added

variable {start middle bench : Bench} {after : Assembly}

theorem Continues.refl (h : bench.Tidy) : bench.Continues bench where
  tidy := h
  buffers := ⟨[], bench.assembly.buffer, #[], rfl, Array.append_empty.symm⟩
  constants := ⟨#[], Array.append_empty.symm⟩

theorem Continues.trans (h : start.Continues middle) (h' : middle.Continues bench) :
    start.Continues bench where
  tidy := h'.tidy
  buffers := by
    obtain ⟨inner, current, added, hbuffers, hcode⟩ := h.buffers
    obtain ⟨inner', current', added', hbuffers', hcode'⟩ := h'.buffers
    -- The later work adds to the buffer that was at hand in the middle. This is the one of the start
    -- unless a function has been entered until then.
    cases inner with
    | nil =>
        obtain ⟨hcurrent, henclosing⟩ := List.cons.inj hbuffers
        refine ⟨inner', current', added ++ added', by rw [hbuffers', henclosing], ?_⟩
        rw [hcode', hcurrent, hcode, Array.append_assoc]
    | cons first inner =>
        obtain ⟨-, henclosing⟩ := List.cons.inj hbuffers
        refine ⟨inner' ++ current' :: inner, current, added, ?_, hcode⟩
        rw [hbuffers', henclosing, List.append_assoc]
        rfl
  constants := by
    obtain ⟨added, hadded⟩ := h.constants
    obtain ⟨added', hadded'⟩ := h'.constants
    exact ⟨added ++ added', by rw [hadded', hadded, Array.append_assoc]⟩

/-- Emitting goes on from where a bench is. -/
theorem Tidy.generates {generator : Generator} (h : bench.Tidy)
    (hg : bench.assembly.Generates generator after) : bench.Continues (bench.holding after) where
  tidy := by
    obtain ⟨⟨instructions, htracks⟩, henclosing⟩ := List.forall_mem_cons.mp h
    exact List.forall_mem_cons.mpr ⟨⟨_, htracks.emits hg⟩, henclosing⟩
  buffers := ⟨[], after.buffer, _, rfl, hg.code⟩
  constants := ⟨_, hg.constants⟩

/-- New constants and other names leave the buffers as they are. -/
theorem Tidy.keeps (h : bench.Tidy) (hb : after.buffer = bench.assembly.buffer)
    (hk : ∃ added, after.constants = bench.assembly.constants ++ added) :
    bench.Continues (bench.holding after) where
  tidy := by
    rw [Tidy, buffers, holding, hb]
    exact h
  buffers := ⟨[], after.buffer, #[], rfl, by rw [hb, Array.append_empty]⟩
  constants := hk

/-- A function starts with a buffer of its own. -/
theorem Tidy.enter (h : bench.Tidy) (name : Option String) (params : List String) :
    bench.Continues
      ⟨bench.assembly.enterFunction name params, bench.assembly.buffer :: bench.enclosing⟩ where
  tidy := List.forall_mem_cons.mpr ⟨⟨[], Buffer.tracks_nil⟩, h⟩
  buffers := ⟨[{}], bench.assembly.buffer, #[], rfl, Array.append_empty.symm⟩
  constants := ⟨#[], Array.append_empty.symm⟩

end Bench

end StackScript
