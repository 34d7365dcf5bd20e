import StackScript.Proofs.Code.Stream
import StackScript.Proofs.Core.Basic
import StackScript.Proofs.Machine.Actions

/-!
# Decoding and executing

A step of a machine is to decode the instruction at its offset and to execute it. The machine reads
each operand when it needs it; here an instruction is executed whose operands have all been read, so
that what it does can be compared with what another one does, wherever the two of them stand.
-/

namespace StackScript

namespace Instruction

/-- The first operand of an instruction. -/
def first (instruction : Instruction) : Nat :=
  instruction.operands[0]?.getD 0

/-- The second operand of an instruction. -/
def second (instruction : Instruction) : Nat :=
  instruction.operands[1]?.getD 0

/-- An instruction may go on elsewhere. -/
def Jumps (instruction : Instruction) : Prop :=
  instruction.op = .jump ∨ instruction.op = .jumpUnless

instance (instruction : Instruction) : Decidable instruction.Jumps :=
  inferInstanceAs (Decidable (_ ∨ _))

/-- An instruction looks at the closure that runs. -/
def Reflects (instruction : Instruction) : Prop :=
  instruction.op = .getFree ∨ instruction.op = .currentClosure

end Instruction

/-- The error with which a machine stops that cannot read an instruction. -/
inductive CodeError.Stops : CodeError → RuntimeError → Prop
  | unknownOpcode (byte : Nat) : Stops (.unknownOpcode byte) (.unknownOpcode byte)
  | truncated (offset : Nat) : Stops (.truncated offset) (.truncatedInstruction offset)

theorem CodeError.Stops.unique {error : CodeError} {failure failure' : RuntimeError}
    (h : error.Stops failure) (h' : error.Stops failure') : failure = failure' := by
  cases h <;> cases h' <;> rfl

namespace Act

/-- The next operands, and past them. -/
def operands : List Width → Act (List Nat)
  | [] => return []
  | width :: widths => do
    let value ← operand width
    let values ← operands widths
    return value :: values

/-- Execute an instruction that has been read. -/
def execute (instruction : Instruction) : Act Unit := do
  let first := instruction.first
  match instruction.op with
  | .constant => push (← operandValue .constant first (← get).constants[first]?)
  | .jump => jump first
  | .jumpUnless =>
    let condition ← pop
    if !condition.isTruthy then jump first
  | .setGlobal =>
    let value ← pop
    let machine ← get
    if first < machine.globals.size then
      set { machine with globals := machine.globals.setIfInBounds first value }
    else throw (.invalidOperand Opcode.setGlobal.mnemonic first)
  | .getGlobal => push (← operandValue .getGlobal first (← get).globals[first]?)
  | .setLocal =>
    let value ← pop
    let slot ← localSlot first
    modify fun machine => { machine with stack := machine.stack.setIfInBounds slot value }
  | .getLocal =>
    let slot ← localSlot first
    push ((← get).stack[slot]?.getD .null)
  | .getBuiltin => push (.builtin (← operandValue .getBuiltin first (Builtin.ofIndex? first)))
  | .getFree => push (← operandValue .getFree first (← get).frame.free[first]?)
  | .array => push (.array (← popMany first))
  | .hash => pushResult (ValueOver.hashOf (← popMany first))
  | .call => call first
  | .closure => makeClosure first instruction.second
  | op => perform op

theorem operands_single {next : List Nat → Act α} (width : Width) :
    operands [width] >>= next = operand width >>= fun value => next [value] := by
  simp only [operands, bind_assoc, pure_bind]

/-- Running an instruction is to read its operands and to execute it. -/
theorem perform_eq (op : Opcode) :
    perform op = operands op.widths >>= fun values => execute ⟨op, values⟩ := by
  cases op
  case closure =>
      simp only [Opcode.widths, operands, bind_assoc, pure_bind]
      rfl
  case constant | jump | jumpUnless | setGlobal | getGlobal | setLocal | getLocal | getBuiltin |
      getFree | array | hash | call =>
    rw [Opcode.widths, operands_single]
    rfl
  all_goals rfl

variable {machine : Machine}

theorem operand_apply (width : Width) :
    operand width machine =
      match width.read machine.frame.fn.code machine.frame.next with
      | .error _ => .error (.truncatedInstruction machine.frame.next) machine
      | .ok value => .ok value (machine.goto (machine.frame.next + width.size)) := by
  show (match width.read machine.frame.fn.code machine.frame.next with
    | .error _ => _
    | .ok value => _ : Act Nat) machine = _
  cases width.read machine.frame.fn.code machine.frame.next <;> rfl

/-- Operands that can be read are read, and the machine moves on behind them. -/
theorem operands_of_readAll (machine : Machine) {widths : List Width} {values : List Nat}
    (h : Width.readAll machine.frame.fn.code machine.frame.next widths = .ok values) :
    operands widths machine =
      .ok values (machine.goto (machine.frame.next + (widths.map Width.size).sum)) := by
  induction widths generalizing machine values with
  | nil =>
      obtain rfl : [] = values := Except.ok.inj h
      rfl
  | cons width widths ih =>
      obtain ⟨value, hvalue, h⟩ := Except.bind_eq_ok_iff.mp h
      obtain ⟨rest, hrest, h⟩ := Except.bind_eq_ok_iff.mp h
      obtain rfl : value :: rest = values := Except.ok.inj h
      have hfirst : operand width machine =
          .ok value (machine.goto (machine.frame.next + width.size)) := by
        rw [operand_apply, hvalue]
      have hothers := ih (machine.goto (machine.frame.next + width.size)) hrest
      rw [operands, EStateM.bind_of_ok hfirst, EStateM.bind_of_ok hothers, List.map_cons,
        List.sum_cons, ← Nat.add_assoc]
      rfl

/-- Operands that are cut off stop the machine at the first of them that is. -/
theorem operands_of_readAll_error (machine : Machine) {widths : List Width} {error : CodeError}
    (h : Width.readAll machine.frame.fn.code machine.frame.next widths = .error error) :
    ∃ past, error = .truncated past ∧
      operands widths machine = .error (.truncatedInstruction past) (machine.goto past) := by
  induction widths generalizing machine with
  | nil => cases h
  | cons width widths ih =>
      cases hvalue : width.read machine.frame.fn.code machine.frame.next with
      | error cause =>
          rw [Width.readAll, hvalue] at h
          obtain rfl : cause = error := Except.error.inj h
          have hfirst : operand width machine =
              .error (.truncatedInstruction machine.frame.next) machine := by
            rw [operand_apply, hvalue]
          refine ⟨machine.frame.next, Width.eq_of_read_error hvalue, ?_⟩
          rw [operands, EStateM.bind_of_error hfirst]
          rfl
      | ok value =>
          have hfirst : operand width machine =
              .ok value (machine.goto (machine.frame.next + width.size)) := by
            rw [operand_apply, hvalue]
          rw [Width.readAll, hvalue] at h
          cases hrest : Width.readAll machine.frame.fn.code (machine.frame.next + width.size)
              widths with
          | ok rest =>
              simp only [hrest, bind, Except.bind] at h
              cases h
          | error cause =>
              simp only [hrest, bind, Except.bind] at h
              obtain rfl : cause = error := Except.error.inj h
              obtain ⟨past, hpast, hothers⟩ :=
                ih (machine.goto (machine.frame.next + width.size)) hrest
              refine ⟨past, hpast, ?_⟩
              rw [operands, EStateM.bind_of_ok hfirst, EStateM.bind_of_error hothers]
              rfl

theorem fetch_apply : fetch machine =
    match machine.frame.fn.code[machine.frame.next]? with
    | none => .ok none machine
    | some byte =>
      match Opcode.ofByte? byte with
      | none => .error (.unknownOpcode byte.toNat) machine
      | some op => .ok (some op) (machine.goto (machine.frame.next + 1)) := by
  show (match machine.frame.fn.code[machine.frame.next]? with
    | none => _
    | some byte => _ : Act (Option Opcode)) machine = _
  cases machine.frame.fn.code[machine.frame.next]? with
  | none => rfl
  | some byte =>
      show (match Opcode.ofByte? byte with
        | none => _
        | some op => _ : Act (Option Opcode)) machine = _
      dsimp only
      cases Opcode.ofByte? byte <;> rfl

/-- A step executes the instruction at the offset of the machine. -/
theorem step_of_decode {instruction : Instruction}
    (h : Instruction.decode machine.frame.fn.code machine.frame.next = .ok instruction) :
    step machine = (execute instruction >>= fun _ => pure true)
      (machine.goto (machine.frame.next + instruction.size)) := by
  cases hbyte : machine.frame.fn.code[machine.frame.next]? with
  | none => simp [Instruction.decode, Width.read, hbyte, bind, Except.bind] at h
  | some byte =>
      rw [Instruction.decode_eq hbyte] at h
      cases hop : Opcode.ofByte? byte with
      | none =>
          rw [hop] at h
          cases h
      | some op =>
          rw [hop] at h
          dsimp only at h
          cases hvalues : Width.readAll machine.frame.fn.code (machine.frame.next + 1) op.widths with
          | error error =>
              rw [hvalues] at h
              cases h
          | ok values =>
              rw [hvalues] at h
              obtain rfl : ⟨op, values⟩ = instruction := Except.ok.inj h
              have hfetch : fetch machine =
                  .ok (some op) (machine.goto (machine.frame.next + 1)) := by
                rw [fetch_apply, hbyte]
                simp only [hop]
              have hread := operands_of_readAll (machine.goto (machine.frame.next + 1)) hvalues
              rw [step, EStateM.bind_of_ok hfetch]
              dsimp only
              rw [perform_eq, bind_assoc, EStateM.bind_of_ok hread, Instruction.size_eq,
                ← Nat.add_assoc]
              rfl

/-- A step fails where no instruction can be read. -/
theorem step_of_decode_error {byte : UInt8} {error : CodeError}
    (hbyte : machine.frame.fn.code[machine.frame.next]? = some byte)
    (h : Instruction.decode machine.frame.fn.code machine.frame.next = .error error) :
    ∃ failure past, error.Stops failure ∧ step machine = .error failure (machine.goto past) := by
  rw [Instruction.decode_eq hbyte] at h
  cases hop : Opcode.ofByte? byte with
  | none =>
      rw [hop] at h
      obtain rfl : .unknownOpcode byte.toNat = error := Except.error.inj h
      have hfetch : fetch machine = .error (.unknownOpcode byte.toNat) machine := by
        rw [fetch_apply, hbyte]
        simp only [hop]
      exact ⟨_, machine.frame.next, .unknownOpcode _, EStateM.bind_of_error hfetch⟩
  | some op =>
      rw [hop] at h
      dsimp only at h
      cases hvalues : Width.readAll machine.frame.fn.code (machine.frame.next + 1) op.widths with
      | ok values =>
          rw [hvalues] at h
          cases h
      | error cause =>
          rw [hvalues] at h
          obtain rfl : cause = error := Except.error.inj h
          have hfetch : fetch machine = .ok (some op) (machine.goto (machine.frame.next + 1)) := by
            rw [fetch_apply, hbyte]
            simp only [hop]
          obtain ⟨past, rfl, hread⟩ :=
            operands_of_readAll_error (machine.goto (machine.frame.next + 1)) hvalues
          refine ⟨_, past, .truncated past, ?_⟩
          rw [step, EStateM.bind_of_ok hfetch]
          dsimp only
          rw [perform_eq, bind_assoc, EStateM.bind_of_error hread]
          rfl

/-- A step at the end of a stream leaves its function, or is the last one. -/
theorem step_of_end (h : machine.frame.fn.code[machine.frame.next]? = none) :
    step machine =
      if machine.callers.isEmpty then .ok false machine
      else (leave .null >>= fun _ => pure true) machine := by
  have hfetch : fetch machine = .ok none machine := by
    rw [fetch_apply, h]
  rw [step, EStateM.bind_of_ok hfetch]
  show (if _ then _ else _ : Act Bool) machine = _
  split <;> rfl

end Act

end StackScript
