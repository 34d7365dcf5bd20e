import StackScript.Proofs.Core.Relocation
import StackScript.Proofs.Machine.Lockstep

/-!
# Programs in longer programs

The code of a program may stand in the code of a longer one, behind other code and in front of yet
other code. A machine that has come to where it starts runs it as a machine that runs it alone.
-/

namespace StackScript

open Instruction

/-- Decoding finds an instruction behind the ones before it. -/
theorem Code.decode_ofInstructions {front back : List Instruction} {instruction : Instruction}
    (h : ∀ other ∈ front ++ instruction :: back, other.Encodable) :
    decode (ofInstructions (front ++ instruction :: back)) (sizes front) = .ok instruction := by
  have hcarries := (carries_append.mp (carries_ofInstructions h)).2.1
  rwa [Nat.zero_add] at hcarries

/-- Jumps lead forward in what stands behind other instructions. -/
theorem Instruction.Forward.of_append {start : Nat} {front tail : List Instruction}
    (h : Forward start (front ++ tail)) : Forward (start + sizes front) tail := by
  induction front generalizing start with
  | nil => exact h
  | cons instruction front ih =>
      rw [sizes_cons, ← Nat.add_assoc]
      exact ih h.2

/-- The instructions of a program behind others, and in front of yet others. -/
def hosting (front instructions back : List Instruction) : List Instruction :=
  front ++ instructions.map (shift (sizes front)) ++ back

/-- Instructions that can be run in place of those of a program. -/
structure Hostable (front instructions back : List Instruction) : Prop where
  encodable : ∀ instruction ∈ instructions, instruction.Encodable
  hosted : ∀ instruction ∈ hosting front instructions back, instruction.Encodable
  forward : Forward 0 instructions
  plain : ∀ instruction ∈ instructions, ¬ instruction.Reflects

/-- The first frame runs a program alone, and the second one has come as far with it where it stands
in a longer one. -/
structure Hosts (front instructions back : List Instruction) (frame other : Frame) : Prop where
  code : frame.fn.code = Code.ofInstructions instructions
  host : other.fn.code = Code.ofInstructions (hosting front instructions back)
  place : ∃ done rest, instructions = done ++ rest ∧ frame.next = sizes done ∧
    other.next = sizes front + sizes done

variable {front instructions back : List Instruction} {frame other : Frame}

/-- A program that is at its end has come to what follows it in the longer one. -/
theorem Hosts.next_of_end (h : Hosts front instructions back frame other)
    (he : ∀ instruction ∈ instructions, instruction.Encodable)
    (hend : frame.fn.code[frame.next]? = none) :
    other.next = sizes front + sizes instructions := by
  obtain ⟨done, rest, hsplit, hnext, hnext'⟩ := h.place
  have hle : sizes instructions ≤ sizes done := by
    rw [h.code, Array.getElem?_eq_none_iff, Code.size_ofInstructions he, hnext] at hend
    exact hend
  rw [hsplit, sizes_append] at hle ⊢
  omega

/-- A program at the end of a longer one ends with it. -/
theorem Hosts.end_of_end (h : Hosts front instructions [] frame other)
    (hh : Hostable front instructions []) (hend : frame.fn.code[frame.next]? = none) :
    other.fn.code[other.next]? = none := by
  rw [h.host, Array.getElem?_eq_none_iff, Code.size_ofInstructions hh.hosted,
    h.next_of_end hh.encodable hend]
  simp [hosting]

/-- Frames that are moved to the same instruction of a program stay related. -/
theorem Hosts.goto (h : Hosts front instructions back frame other) (done rest : List Instruction)
    (hsplit : instructions = done ++ rest) {next next' : Nat} (hn : next = sizes done)
    (hn' : next' = sizes front + sizes done) :
    Hosts front instructions back { frame with next := next } { other with next := next' } :=
  ⟨h.code, h.host, done, rest, hsplit, hn, hn'⟩

/-- Where a program goes on, the longer one goes on with the same instruction, moved. -/
theorem Hosts.decode (h : Hosts front instructions back frame other)
    (hh : Hostable front instructions back) {byte : UInt8}
    (hbyte : frame.fn.code[frame.next]? = some byte) :
    ∃ done instruction rest, instructions = done ++ instruction :: rest ∧
      frame.next = sizes done ∧ other.next = sizes front + sizes done ∧
      Instruction.decode frame.fn.code frame.next = .ok instruction ∧
      Instruction.decode other.fn.code other.next = .ok (instruction.shift (sizes front)) := by
  obtain ⟨done, rest, hsplit, hnext, hnext'⟩ := h.place
  cases rest with
  | nil =>
      have hnone : frame.fn.code[frame.next]? = none := by
        rw [h.code, Array.getElem?_eq_none_iff, Code.size_ofInstructions hh.encodable, hnext]
        exact Nat.le_of_eq (by rw [hsplit, List.append_nil])
      rw [hnone] at hbyte
      cases hbyte
  | cons instruction rest =>
      have hsplit' : hosting front instructions back =
          (front ++ done.map (shift (sizes front))) ++ instruction.shift (sizes front) ::
            (rest.map (shift (sizes front)) ++ back) := by
        simp [hosting, hsplit]
      have hencodable := hh.encodable
      have hhosted := hh.hosted
      rw [hsplit] at hencodable
      rw [hsplit'] at hhosted
      refine ⟨done, instruction, rest, hsplit, hnext, hnext', ?_, ?_⟩
      · rw [h.code, hnext, hsplit]
        exact Code.decode_ofInstructions hencodable
      · have hd := Code.decode_ofInstructions hhosted
        rwa [sizes_append, sizes_map_shift, ← hsplit', ← h.host, ← hnext'] at hd

/-- A longer program follows a program that it hosts. -/
theorem Hostable.follows {pairing : Pairing} (hh : Hostable front instructions back)
    (hmain : pairing.main = Hosts front instructions back) : pairing.Follows := by
  intro frame other byte hhosts hbyte
  rw [hmain] at hhosts
  obtain ⟨done, instruction, rest, hsplit, hnext, hnext', hdecode, hdecode'⟩ :=
    hhosts.decode hh hbyte
  have hmem : instruction ∈ instructions := by simp [hsplit]
  refine .inr ⟨instruction, instruction.shift (sizes front), hdecode, hdecode', op_shift,
    shift_of_not_jumps, ?_, ?_, fun hr => absurd hr (hh.plain _ hmem)⟩
  · rw [hmain]
    refine hhosts.goto (done ++ [instruction]) rest (by simp [hsplit]) ?_ ?_
    · simp [hnext]
    · simp [hnext', Nat.add_assoc]
  · intro hj
    obtain ⟨target, htarget, -⟩ := exists_target?_of_encodable (hh.encodable _ hmem) hj
    obtain ⟨hfirst, hfirst'⟩ := first_shift (sizes front) htarget
    have hforward := hh.forward
    rw [hsplit] at hforward
    obtain ⟨skipped, rest', hrest, -, heq⟩ := hforward.of_append.1 target htarget
    rw [hmain]
    refine hhosts.goto (done ++ instruction :: skipped) rest' (by simp [hsplit, hrest]) ?_ ?_
    · rw [hfirst, heq]
      simp [Nat.add_assoc]
    · rw [hfirst', heq]
      simp [Nat.add_assoc]

end StackScript
