import StackScript.Assembly.Compile
import StackScript.Proofs.Assembly.Emission

/-!
# Patched jumps, branches and functions

Jumps get their targets, the last discarded value of a branch stays, and that of a function is
returned. Each of these changes bytes that have been emitted before, and each leaves an assembly
that has emitted a fragment without any change.
-/

namespace StackScript

open StackScript.Core Instruction

namespace Code

/-- Overwriting bytes with as many others leaves those before and behind. -/
theorem write_append (front back : Code) {old new : List UInt8} (h : new.length = old.length) :
    write (front ++ old.toArray ++ back) front.size new = front ++ new.toArray ++ back := by
  induction new generalizing front old with
  | nil =>
      obtain rfl : old = [] := by simpa using h.symm
      rfl
  | cons byte new ih =>
      obtain ⟨first, old, rfl⟩ : ∃ first rest, old = first :: rest :=
        List.exists_cons_of_length_eq_add_one h.symm
      have hset : (front ++ (first :: old).toArray ++ back).setIfInBounds front.size byte =
          front.push byte ++ old.toArray ++ back := by
        apply Array.ext'
        simp
      have hlen : new.length = old.length := by simpa using h
      have hrest := ih (front.push byte) hlen
      rw [Array.size_push] at hrest
      calc
        write (front ++ (first :: old).toArray ++ back) front.size (byte :: new)
            = write (front.push byte ++ old.toArray ++ back) (front.size + 1) new := by
              rw [write, hset]
        _ = front.push byte ++ new.toArray ++ back := hrest
        _ = front ++ (byte :: new).toArray ++ back := by
              apply Array.ext'
              simp

end Code

namespace Core

namespace Generator

theorem append_assoc (first second third : Generator) :
    first ++ second ++ third = first ++ (second ++ third) := by
  funext start pool
  simp [append_apply, Nat.add_assoc]

theorem empty_append (generator : Generator) : empty ++ generator = generator := by
  funext start pool
  simp [append_apply, empty]

theorem append_empty (generator : Generator) : generator ++ empty = generator := by
  funext start pool
  simp [append_apply, empty]

end Generator

namespace Stmt

/-- The code of a statement before its last instruction. -/
def operand : Stmt → Generator
  | .store _ value | .discard value | .returnValue value => value.generate
  | .returnNull => .empty

/-- The last instruction of a statement. -/
def final : Stmt → Instruction
  | .store symbol _ => symbol.store
  | .discard _ => ⟨.pop, []⟩
  | .returnValue _ => ⟨.returnValue, []⟩
  | .returnNull => ⟨.returnNull, []⟩

theorem generate_eq (stmt : Stmt) : stmt.generate = stmt.operand ++ .single stmt.final := by
  cases stmt with
  | store symbol value => rfl
  | discard value => rfl
  | returnValue value => rfl
  | returnNull => exact (Generator.empty_append _).symm

theorem generateAll_append (front back : List Stmt) :
    generateAll (front ++ back) = generateAll front ++ generateAll back := by
  induction front with
  | nil => exact (Generator.empty_append _).symm
  | cons stmt front ih => rw [List.cons_append, generateAll, generateAll, ih,
      Generator.append_assoc]

/-- A statement discards a value, returns, or stores one, as its last instruction shows. -/
theorem final_op (stmt : Stmt) :
    (∃ value, stmt = .discard value) ∨
      (stmt.final.op ≠ .pop ∧
        (stmt.returns = (stmt.final.op == .returnValue || stmt.final.op == .returnNull))) := by
  cases stmt with
  | store symbol value =>
      right
      by_cases hp : symbol.place = .global <;> simp [final, Symbol.store, returns, hp]
  | discard value => exact .inl ⟨value, rfl⟩
  | returnValue value => exact .inr ⟨by simp [final], by simp [returns, final]⟩
  | returnNull => exact .inr ⟨by simp [final], by simp [returns, final]⟩

end Stmt

namespace Block

theorem isNull_ofStmts {stmts : List Stmt} (h : stmts ≠ []) : (ofStmts stmts).isNull = false := by
  cases stmts with
  | nil => exact absurd rfl h
  | cons stmt rest =>
      cases rest with
      | nil => cases stmt <;> rfl
      | cons next rest => rw [ofStmts_cons stmt (by simp)]; rfl

/-- The code of a block that starts with some statements. -/
theorem generate_ofStmts (init : List Stmt) {rest : List Stmt} (h : rest ≠ []) :
    (ofStmts (init ++ rest)).generate = Stmt.generateAll init ++ (ofStmts rest).generate := by
  induction init with
  | nil => exact (Generator.empty_append _).symm
  | cons stmt init ih =>
      rw [List.cons_append, ofStmts_cons stmt (by simp [h]), generate, ih, Stmt.generateAll,
        Generator.append_assoc]

/-- The code of a body that starts with some statements. -/
theorem generateBody_ofStmts (init : List Stmt) {rest : List Stmt} (h : rest ≠ []) :
    (ofStmts (init ++ rest)).generateBody =
      Stmt.generateAll init ++ (ofStmts rest).generateBody := by
  induction init with
  | nil => exact (Generator.empty_append _).symm
  | cons stmt init ih =>
      have hne : init ++ rest ≠ [] := by simp [h]
      rw [List.cons_append, ofStmts_cons stmt hne, generateBody, isNull_ofStmts hne,
        Bool.and_false, if_neg Bool.false_ne_true, ih, Stmt.generateAll, Generator.append_assoc]

end Block

end Core

/-- The instruction that is patched has the opcode whose byte stands at its position. -/
theorem Buffer.patch_eq {buffer : Buffer} {position : Nat} {op : Opcode}
    (h : buffer.code[position]? = some op.toByte) (operand : Nat) :
    buffer.patch position operand =
      Instruction.encode ⟨op, [operand]⟩ >>= buffer.replace position := by
  have hread : Width.byte.read buffer.code position = .ok op.toByte.toNat := by rw [Width.read, h]
  have hop : Instruction.opcode op.toByte = .ok op := by
    rw [Instruction.opcode, Opcode.ofByte?_toByte]
  simp only [patch, hread, bind, Except.bind, UInt8.ofNat_toNat, hop]

namespace Assembly

variable {before middle after : Assembly}

/-- Editing bytes changes nothing but the buffer. -/
theorem eq_of_edit {change : Buffer → Except CodeError Buffer} (h : before.edit change = .ok after) :
    ∃ buffer, change before.buffer = .ok buffer ∧ after = { before with buffer } := by
  unfold edit at h
  split at h
  case h_1 buffer hb => exact ⟨buffer, hb, (Except.ok.inj h).symm⟩
  case h_2 => cases h

/-- A patched instruction stands where the old one stood, and nothing else has changed. -/
theorem eq_of_patch {op : Opcode} {old operand : Nat} {front back : Code}
    (hc : before.buffer.code = front ++ Code.ofInstructions [⟨op, [old]⟩] ++ back)
    (he : Instruction.Encodable ⟨op, [old]⟩)
    (h : before.patch front.size operand = .ok after) :
    Instruction.Encodable ⟨op, [operand]⟩ ∧
      after = { before with
        buffer := { before.buffer with
          code := front ++ Code.ofInstructions [⟨op, [operand]⟩] ++ back } } := by
  have hcode : before.buffer.code = front ++ (bytes ⟨op, [old]⟩).toArray ++ back := by
    simpa [Code.ofInstructions] using hc
  have hop : before.buffer.code[front.size]? = some op.toByte := by
    rw [hcode]
    exact (Code.holds_append front back _).head he
  obtain ⟨buffer, hpatch, rfl⟩ := eq_of_edit h
  rw [Buffer.patch_eq hop, Except.bind_eq_ok_iff] at hpatch
  obtain ⟨new, hn, hreplace⟩ := hpatch
  obtain ⟨hnew, rfl⟩ := encodable_of_encode hn
  have hlen : (bytes ⟨op, [operand]⟩).length = (bytes ⟨op, [old]⟩).length :=
    (Code.holds_append #[] #[] _).decode hnew |>.2.trans
      ((Code.holds_append #[] #[] _).decode he).2.symm
  have hsize : front.size + (bytes ⟨op, [operand]⟩).length ≤ before.buffer.code.size := by
    simp [hcode, hlen]
  have hwrite : before.buffer.code.write front.size (bytes ⟨op, [operand]⟩) =
      front ++ Code.ofInstructions [⟨op, [operand]⟩] ++ back := by
    rw [hcode]
    simpa [Code.ofInstructions] using Code.write_append front back hlen
  obtain ⟨code, hcode, hbuffer⟩ := Except.bind_eq_ok_iff.mp hreplace
  rw [Code.replace, if_pos hsize, hwrite] at hcode
  obtain rfl := Except.ok.inj hcode
  obtain rfl := Except.ok.inj hbuffer
  exact ⟨hnew, rfl⟩

theorem size_ofInstructions_single {instruction : Instruction} (h : instruction.Encodable) :
    (Code.ofInstructions [instruction]).size = instruction.size := by
  have hall : ∀ i ∈ [instruction], i.Encodable := by simpa using h
  simpa using Code.size_ofInstructions hall

/-- The last instruction of a fragment whose end is known. -/
theorem lastEmitted_append (code : Code) (front back : List Instruction) :
    lastEmitted code (front ++ back) = (lastEmitted code back).or (lastEmitted code front) := by
  simp [lastEmitted, Option.map_or]

/-- An instruction that has been emitted may be patched: it is as if it had been emitted so. -/
theorem Generates.patch {front back : Generator} {op : Opcode} {old position operand : Nat}
    (h : before.Generates (front ++ .single ⟨op, [old]⟩ ++ back) middle)
    (hposition : position =
      before.position + sizes (front before.position before.constants.size).code)
    (hp : middle.patch position operand = .ok after) :
    before.Generates (front ++ .single ⟨op, [operand]⟩ ++ back) after := by
  obtain ⟨first, hfirst⟩ : ∃ first, front before.position before.constants.size = first :=
    ⟨_, rfl⟩
  obtain ⟨second, hsecond⟩ : ∃ second, back (before.position + (sizes first.code + op.size))
      (before.constants.size + first.constants.length) = second := ⟨_, rfl⟩
  have hfragment : ∀ operand, (front ++ Generator.single ⟨op, [operand]⟩ ++ back) before.position
      before.constants.size =
        ⟨first.code ++ [⟨op, [operand]⟩] ++ second.code, first.constants ++ second.constants⟩ := by
    intro operand
    simp [Generator.append_apply, Generator.single, hfirst, ← hsecond, Instruction.size]
  rw [Generates, hfragment] at h ⊢
  have henc := List.forall_mem_append.mp h.encodable.code
  have hold : Instruction.Encodable ⟨op, [old]⟩ :=
    (List.forall_mem_append.mp henc.1).2 _ List.mem_cons_self
  have hcode : middle.buffer.code = before.buffer.code ++ Code.ofInstructions first.code ++
      Code.ofInstructions [⟨op, [old]⟩] ++ Code.ofInstructions second.code := by
    rw [h.code, Code.ofInstructions_append, Code.ofInstructions_append]
    simp only [Array.append_assoc]
  have hfront : position = (before.buffer.code ++ Code.ofInstructions first.code).size := by
    rw [hposition, hfirst, Array.size_append,
      Code.size_ofInstructions (List.forall_mem_append.mp henc.1).1]
    rfl
  rw [hfront] at hp
  obtain ⟨hnew, rfl⟩ := eq_of_patch hcode hold hp
  have hsize : (before.buffer.code ++ Code.ofInstructions first.code ++
      Code.ofInstructions [⟨op, [operand]⟩] ++ Code.ofInstructions second.code).size =
        middle.buffer.code.size := by
    simp only [hcode, Array.size_append, size_ofInstructions_single hnew,
      size_ofInstructions_single hold]
    rfl
  constructor
  · rw [Code.ofInstructions_append, Code.ofInstructions_append]
    simp only [Array.append_assoc]
  · rw [h.last, lastEmitted_append, lastEmitted_append, lastEmitted_append, lastEmitted_append]
    simp only [lastEmitted, hsize]
    rfl
  · exact h.constants
  · refine ⟨?_, h.encodable.functions⟩
    exact List.forall_mem_append.mpr ⟨List.forall_mem_append.mpr
      ⟨(List.forall_mem_append.mp henc.1).1, by simpa using hnew⟩, henc.2⟩

/-- The jump over a branch is patched when the branch has ended with a jump of its own. -/
theorem generates_firstBranch {consequent : Generator} {a b c : Assembly}
    (hb : before.emit .jumpUnless [unknownTarget] = .ok a) (hc : a.Generates consequent b)
    (hd : b.emit .jump [unknownTarget] = .ok c)
    (he : c.patch before.position c.position = .ok after) :
    before.Generates (.single ⟨.jumpUnless, [c.position]⟩ ++ consequent ++
      .single ⟨.jump, [unknownTarget]⟩) after := by
  obtain ⟨-, hunless⟩ := generates_of_emit hb
  obtain ⟨-, hjump⟩ := generates_of_emit hd
  have hc' : before.Generates (.empty ++ .single ⟨.jumpUnless, [unknownTarget]⟩ ++
      (consequent ++ .single ⟨.jump, [unknownTarget]⟩)) c :=
    ((generates_empty before).append hunless).append (hc.append hjump)
  have hpatched := hc'.patch rfl he
  rwa [Generator.empty_append, ← Generator.append_assoc] at hpatched

/-- The jumps around two branches, emitted with unknown targets and patched later. -/
theorem generates_branches {consequent alternative : Generator} {a b c d e : Assembly}
    (hb : before.emit .jumpUnless [unknownTarget] = .ok a) (hc : a.Generates consequent b)
    (hd : b.emit .jump [unknownTarget] = .ok c)
    (he : c.patch before.position c.position = .ok d)
    (ha : d.Generates alternative e)
    (hf : e.patch b.position e.position = .ok after) :
    before.Generates (.branches consequent alternative) after := by
  obtain ⟨-, hunless⟩ := generates_of_emit hb
  obtain ⟨-, hjump⟩ := generates_of_emit hd
  have hfirst : before.Generates (.single ⟨.jumpUnless, [unknownTarget]⟩ ++ consequent) b :=
    hunless.append hc
  have hc' := hfirst.append hjump
  -- The first patch comes before the alternative, the second one behind it.
  have hd' := generates_firstBranch hb hc hd he
  have he' := hd'.append ha
  have hbpos : b.position = before.position + sizes
      ((Generator.single ⟨.jumpUnless, [c.position]⟩ ++ consequent) before.position
        before.constants.size).code := by
    rw [Emits.position hfirst]
    rfl
  have hafter := he'.patch hbpos hf
  have hthree (target : Nat) : Instruction.size ⟨.jumpUnless, [target]⟩ = 3 ∧
      Instruction.size ⟨.jump, [target]⟩ = 3 := ⟨rfl, rfl⟩
  obtain ⟨middle, last, hbranches, hmiddle, hlast⟩ :=
    Generator.branches_apply consequent alternative before.position before.constants.size
  have hcpos : c.position = middle := by
    rw [hmiddle, Emits.position hc']
    simp [Generator.append_apply, Generator.single, hthree, Nat.add_assoc]
  have hepos : e.position = last := by
    rw [hlast, Emits.position he', ← hcpos]
    rw [hmiddle] at hcpos
    simp [Generator.append_apply, Generator.single, hthree, hcpos, Nat.add_assoc]
  rw [Generates, hbranches, ← hcpos, ← hepos, ← Generator.append_assoc]
  exact hafter

end Assembly

end StackScript
