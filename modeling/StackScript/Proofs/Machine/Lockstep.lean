import StackScript.Proofs.Machine.Twin

/-!
# Running in step

Two machines in step execute matching instructions in step, and if their programs keep leading to
matching instructions, they run in step.
-/

namespace StackScript

/-- Two instructions do the same in two machines. They are the same, apart from where they jump to,
and only in the same function do they look at the closure that runs. -/
structure Pairing.Matching (pairing : Pairing) (machine other : Machine)
    (first second : Instruction) : Prop where
  op : second.op = first.op
  same : ¬ first.Jumps → second = first
  target : first.Jumps →
    pairing.Frames (machine.goto first.first).frames (other.goto second.first).frames
  closure : first.Reflects →
    other.frame.fn = machine.frame.fn ∧ other.frame.free = machine.frame.free

/-- Two runs come out alike: in the same way, on machines that look alike, unless the first one fails
with an error that is to be missed. A run that does not fail may have settled which value has been
discarded last. -/
inductive Pairing.RunsAlike (pairing : Pairing) (settled later : Prop) : Run → Run → Prop
  | finished {machine other : Machine} (h : pairing.Alike later machine other) :
    RunsAlike pairing settled later (.finished machine) (.finished other)
  | failed {machine other : Machine} (error : RuntimeError)
    (h : pairing.Alike settled machine other) :
    RunsAlike pairing settled later (.failed error machine) (.failed error other)
  | missed {machine : Machine} {error : RuntimeError} {run : Run} (h : pairing.missed error) :
    RunsAlike pairing settled later (.failed error machine) run
  | unfinished {machine other : Machine} (h : pairing.Alike later machine other) :
    RunsAlike pairing settled later (.unfinished machine) (.unfinished other)

/-- Two programs have matching instructions at two places, and are the same again behind them and
where they jump to. -/
structure Pairing.Leads (pairing : Pairing) (frame other : Frame) (first second : Instruction) :
    Prop where
  decode : Instruction.decode frame.fn.code frame.next = .ok first
  decodeOther : Instruction.decode other.fn.code other.next = .ok second
  op : second.op = first.op
  same : ¬ first.Jumps → second = first
  next : pairing.main { frame with next := frame.next + first.size }
    { other with next := other.next + second.size }
  target : first.Jumps →
    pairing.main { frame with next := first.first } { other with next := second.first }
  closure : first.Reflects → other.fn = frame.fn ∧ other.free = frame.free

/-- Wherever the frames of two programs are related, the programs go on with matching instructions,
or with the same bytes that are no instruction. -/
def Pairing.Follows (pairing : Pairing) : Prop :=
  ∀ (frame other : Frame) (byte : UInt8), pairing.main frame other →
    frame.fn.code[frame.next]? = some byte →
    (∃ byte' error, other.fn.code[other.next]? = some byte' ∧
      Instruction.decode frame.fn.code frame.next = .error error ∧
      Instruction.decode other.fn.code other.next = .error error) ∨
    ∃ first second, pairing.Leads frame other first second

/-- Wherever the frames of two programs are related, both are at their ends if the first one is. -/
def Pairing.EndsTogether (pairing : Pairing) : Prop :=
  ∀ frame other : Frame, pairing.main frame other → frame.fn.code[frame.next]? = none →
    other.fn.code[other.next]? = none

/-- A program follows itself. -/
theorem Pairing.follows_of_eq {pairing : Pairing} (h : pairing.main = Eq) : pairing.Follows := by
  rintro frame other byte hmain hbyte
  rw [h] at hmain
  subst hmain
  cases hd : Instruction.decode frame.fn.code frame.next with
  | error error => exact .inl ⟨byte, error, hbyte, rfl, rfl⟩
  | ok instruction =>
      refine .inr ⟨instruction, instruction, hd, hd, rfl, fun _ => rfl, ?_, ?_, ?_⟩
      · rw [h]
      · intro _
        rw [h]
      · exact fun _ => ⟨rfl, rfl⟩

namespace Machine

/-- The program of a machine is at its end. -/
def Ended (machine : Machine) : Prop :=
  machine.callers = [] ∧ machine.frame.fn.code[machine.frame.next]? = none

/-- The next step of a machine discards a value of the program itself. -/
def Discards (machine : Machine) : Prop :=
  machine.callers = [] ∧
    (Instruction.decode machine.frame.fn.code machine.frame.next).map Instruction.op = .ok .pop

/-- A machine discards a value of the program itself within some steps. -/
def DiscardsWithin (machine : Machine) (steps : Nat) : Prop :=
  ∃ count < steps, ∃ after, machine.run count = .unfinished after ∧ after.Discards

/-- The program ends where a run finishes, and the last step changes nothing. -/
theorem step_of_ended {machine : Machine} (h : machine.Ended) :
    Act.step machine = .ok false machine := by
  rw [Act.step_of_end h.2, if_pos (by simp [h.1])]

/-- The first step of a run. -/
theorem run_of_step {machine after : Machine} (h : Act.step machine = .ok true after)
    (steps : Nat) : machine.run (steps + 1) = after.run steps := by
  rw [run, h]

/-- A run that is cut short can go on. -/
theorem run_of_unfinished {machine after : Machine} {count : Nat}
    (h : machine.run count = .unfinished after) (steps : Nat) :
    machine.run (count + steps) = after.run steps := by
  induction count generalizing machine with
  | zero =>
      obtain rfl : machine = after := Run.unfinished.inj h
      rw [Nat.zero_add]
  | succ count ih =>
      rw [Nat.add_right_comm]
      rw [run] at h ⊢
      cases hs : Act.step machine with
      | error error next =>
          rw [hs] at h
          cases h
      | ok more next =>
          rw [hs] at h
          cases more with
          | true => exact ih h
          | false => cases h

/-- A run that has come to the end of its program finishes. -/
theorem run_of_ended {machine after : Machine} {count steps : Nat}
    (h : machine.run count = .unfinished after) (hended : after.Ended) (hlt : count < steps) :
    machine.run steps = .finished after := by
  obtain ⟨more, rfl⟩ := Nat.exists_eq_add_of_lt hlt
  rw [Nat.add_assoc, run_of_unfinished h, run, step_of_ended hended]

theorem not_discardsWithin_zero (machine : Machine) : ¬ machine.DiscardsWithin 0 := by
  rintro ⟨count, hlt, -⟩
  exact absurd hlt (Nat.not_lt_zero count)

theorem DiscardsWithin.of_step {machine after : Machine} {steps : Nat}
    (h : Act.step machine = .ok true after) (hd : machine.DiscardsWithin (steps + 1)) :
    machine.Discards ∨ after.DiscardsWithin steps := by
  obtain ⟨count, hlt, between, hrun, hbetween⟩ := hd
  cases count with
  | zero =>
      obtain rfl : machine = between := Run.unfinished.inj hrun
      exact .inl hbetween
  | succ count =>
      rw [run_of_step h] at hrun
      exact .inr ⟨count, Nat.lt_of_succ_lt_succ hlt, between, hrun, hbetween⟩

/-- At the end of a program there is nothing left to discard. -/
theorem Ended.not_discards {machine : Machine} (h : machine.Ended) : ¬ machine.Discards := by
  rintro ⟨-, hd⟩
  simp [Instruction.decode, Width.read, h.2, bind, Except.bind, Except.map] at hd

theorem DiscardsWithin.of_ended {machine after : Machine} {count steps : Nat}
    (hd : machine.DiscardsWithin steps) (h : machine.run count = .unfinished after)
    (hended : after.Ended) : machine.DiscardsWithin count := by
  obtain ⟨early, -, between, hrun, hbetween⟩ := hd
  rcases Nat.lt_trichotomy early count with hlt | rfl | hgt
  · exact ⟨early, hlt, between, hrun, hbetween⟩
  · rw [h] at hrun
    obtain rfl : after = between := Run.unfinished.inj hrun
    exact absurd hbetween hended.not_discards
  · rw [run_of_ended h hended hgt] at hrun
    cases hrun

end Machine

/-- A run of a machine is accompanied by one of another machine: they are in step after as many
steps, they fail in the same way, and where the program of the first one ends they are in step. -/
def Pairing.Accompanied (pairing : Pairing) (settled : Prop) (steps : Nat)
    (machine other : Machine) : Prop :=
  match machine.run steps with
  | .unfinished after => ∃ after', other.run steps = .unfinished after' ∧
      Twin pairing (settled ∨ machine.DiscardsWithin steps) after after'
  | .failed error after => pairing.missed error ∨
      ∃ after', other.run steps = .failed error after' ∧ pairing.Alike settled after after'
  | .finished after => ∃ count < steps, ∃ after', machine.run count = .unfinished after ∧
      after.Ended ∧ other.run count = .unfinished after' ∧
      Twin pairing (settled ∨ machine.DiscardsWithin count) after after'

variable {pairing : Pairing} {settled : Prop} {machine other : Machine}

/-- A step goes on where the instruction that it has run has got. -/
theorem Act.InStep.more {settled' : Prop} {first second : Act Unit}
    (h : InStep pairing settled first second machine other fun _ => Twin pairing settled') :
    InStep pairing settled (first >>= fun _ => pure true) (second >>= fun _ => pure true) machine
      other fun more after after' => more = true ∧ Twin pairing settled' after after' :=
  h.bind fun _ _ _ h => inStep_ok rfl rfl ⟨rfl, h⟩

namespace Twin

open Act

/-- Two machines stay in step when they go on at places from which their programs are the same. -/
theorem goto (h : Twin pairing settled machine other) {next next' : Nat}
    (hf : pairing.Frames (machine.goto next).frames (other.goto next').frames) :
    Twin pairing settled (machine.goto next) (other.goto next') where
  frames := hf
  roomy := h.roomy.congr rfl rfl rfl rfl rfl rfl rfl rfl
  top := h.top
  stack slot hr := by
    apply h.stack slot
    rcases hr with hlt | ⟨frame, hm, hlt⟩
    · exact .inl hlt
    · rcases List.mem_cons.mp hm with rfl | hm
      · exact .inr ⟨machine.frame, List.mem_cons_self, hlt⟩
      · exact .inr ⟨frame, List.mem_cons_of_mem _ hm, hlt⟩
  globals := h.globals
  lastPopped := h.lastPopped
  output := h.output

theorem pushOperand (h : Twin pairing settled machine other) {op : Opcode} {index : Nat}
    {found found' : Option α} (value : α → Value)
    (hf : found' = found ∨ (found = none ∧ pairing.missed (.invalidOperand op.mnemonic index))) :
    InStep pairing settled (operandValue op index found >>= fun operand => Act.push (value operand))
      (operandValue op index found' >>= fun operand => Act.push (value operand)) machine other
      fun _ => Twin pairing settled := by
  rcases hf with rfl | ⟨rfl, hm⟩
  · cases found' with
    | none => exact inStep_error rfl rfl h.alike
    | some operand => exact h.push (value operand)
  · exact inStep_missed rfl hm

theorem jumpUnless (h : Twin pairing settled machine other) {next next' : Nat}
    (hf : pairing.Frames (machine.goto next).frames (other.goto next').frames) :
    InStep pairing settled
      (Act.pop >>= fun condition => if !condition.isTruthy then jump next else pure ())
      (Act.pop >>= fun condition => if !condition.isTruthy then jump next' else pure ()) machine
      other fun _ => Twin pairing settled := by
  refine h.popped.bind fun condition after after' hpopped => ?_
  obtain ⟨rfl, rfl⟩ := hpopped
  by_cases hjump : (!condition.isTruthy) = true
  · rw [if_pos hjump, if_pos hjump]
    exact inStep_ok rfl rfl ((h.drop 1).goto hf)
  · rw [if_neg hjump, if_neg hjump]
    exact inStep_ok rfl rfl (h.drop 1)

theorem storeGlobal (h : Twin pairing settled machine other) (index : Nat) (value : Value) :
    InStep pairing settled
      (if index < machine.globals.size then
        set { machine with globals := machine.globals.setIfInBounds index value }
      else throw (.invalidOperand Opcode.setGlobal.mnemonic index))
      (if index < other.globals.size then
        set { other with globals := other.globals.setIfInBounds index value }
      else throw (.invalidOperand Opcode.setGlobal.mnemonic index)) machine other
      fun _ => Twin pairing settled := by
  by_cases hlt : index < machine.globals.size
  · rw [if_pos hlt, if_pos (Nat.lt_of_lt_of_le hlt h.roomy.globals_le)]
    exact inStep_ok rfl rfl (h.setGlobal hlt value)
  · rw [if_neg hlt]
    rcases h.roomy.globals with heq | ⟨-, hm⟩
    · rw [← heq, if_neg hlt]
      exact inStep_error rfl rfl h.alike
    · exact inStep_missed rfl (hm index).2

/-- Machines that discard the same value agree about what has been discarded last, if it was a value
of their programs. -/
theorem discard (h : Twin pairing settled machine other) :
    InStep pairing settled (perform .pop) (perform .pop) machine other
      fun _ => Twin pairing (settled ∨ machine.callers = []) := by
  refine h.popped.bind fun value after after' hpopped => ?_
  obtain ⟨rfl, rfl⟩ := hpopped
  refine inStep_ok rfl rfl ?_
  dsimp only
  rcases h.frames.callers with ⟨hc, hc'⟩ | ⟨caller, rest, caller', rest', hc, hc', -, -⟩
  · rw [if_pos (by simp [hc]), if_pos (by simp [hc'])]
    have hd := h.drop 1
    exact ⟨hd.frames, hd.roomy.congr rfl rfl rfl rfl rfl rfl rfl rfl, hd.top, hd.stack, hd.globals,
      fun _ => rfl, hd.output⟩
  · rw [if_neg (by simp [hc]), if_neg (by simp [hc'])]
    exact (h.drop 1).mono fun hs => hs.elim id fun hmain => by simp [hc] at hmain

/-- Two machines in step execute matching instructions in step. -/
theorem execute (h : Twin pairing settled machine other) {first second : Instruction}
    (hm : pairing.Matching machine other first second) (hop : first.op ≠ .pop) :
    InStep pairing settled (Act.execute first) (Act.execute second) machine other
      fun _ => Twin pairing settled := by
  -- Only jumps may differ, in where they lead.
  by_cases hj : first.Jumps
  · have htarget := hm.target hj
    have hsecond := hm.op
    obtain ⟨op, operands⟩ := first
    obtain ⟨op', operands'⟩ := second
    obtain rfl : op' = op := hsecond
    rcases hj with hj | hj
    · obtain rfl : op' = .jump := hj
      exact inStep_ok rfl rfl (h.goto htarget)
    · obtain rfl : op' = .jumpUnless := hj
      exact h.jumpUnless htarget
  obtain rfl := hm.same hj
  have hclosure := hm.closure
  obtain ⟨op, operands⟩ := second
  cases op
  case jump => exact absurd (.inl rfl) hj
  case jumpUnless => exact absurd (.inr rfl) hj
  case pop => exact absurd rfl hop
  case constant =>
      refine inStep_get (h.pushOperand id ?_)
      exact (h.constant _).imp_right fun ⟨hnone, hm, _⟩ => ⟨hnone, hm⟩
  case getGlobal =>
      refine inStep_get (h.pushOperand id ?_)
      exact (h.global _).imp_right fun ⟨hnone, hm, _⟩ => ⟨hnone, hm⟩
  case getFree =>
      refine inStep_get (h.pushOperand id (.inl ?_))
      rw [(hclosure (.inl rfl)).2]
  case getBuiltin => exact h.pushOperand .builtin (.inl rfl)
  case currentClosure =>
      refine inStep_get ?_
      obtain ⟨hfn, hfree⟩ := hclosure (.inr rfl)
      dsimp only
      rw [hfn, hfree]
      exact h.push _
  case setGlobal =>
      exact h.pop.bind fun value _ _ h => inStep_get (h.storeGlobal _ value)
  case setLocal =>
      refine h.pop.bind fun value _ _ h => (h.localSlot _).bind fun slot _ _ ⟨hlt, h⟩ => ?_
      exact inStep_ok rfl rfl (h.setSlot hlt value)
  case getLocal =>
      refine (h.localSlot _).bind fun slot _ _ ⟨hlt, h⟩ => inStep_get ?_
      rw [h.getElem?_eq hlt]
      exact h.push _
  case add | subtract | multiply | divide | equal | notEqual | greater | index => exact h.binary _
  case pushTrue | pushFalse | pushNull => exact h.push _
  case not => exact h.pop.bind fun value _ _ h => h.push _
  case negate => exact h.pop.bind fun value _ _ h => h.pushResult _
  case array => exact (h.popMany _).bind fun elements _ _ h => h.push _
  case hash => exact (h.popMany _).bind fun elements _ _ h => h.pushResult _
  case call => exact h.call _
  case returnValue => exact h.pop.bind fun value _ _ h => h.leave value
  case returnNull => exact h.leave .null
  case closure => exact h.makeClosure _ _

/-- Machines in step read matching instructions, or fail to read any in the same way. -/
theorem decode (h : Twin pairing settled machine other) (hf : pairing.Follows) {byte : UInt8}
    (hbyte : machine.frame.fn.code[machine.frame.next]? = some byte) :
    (∃ byte' error, other.frame.fn.code[other.frame.next]? = some byte' ∧
      Instruction.decode machine.frame.fn.code machine.frame.next = .error error ∧
      Instruction.decode other.frame.fn.code other.frame.next = .error error) ∨
    ∃ first second,
      Instruction.decode machine.frame.fn.code machine.frame.next = .ok first ∧
      Instruction.decode other.frame.fn.code other.frame.next = .ok second ∧
      Twin pairing settled (machine.goto (machine.frame.next + first.size))
        (other.goto (other.frame.next + second.size)) ∧
      pairing.Matching (machine.goto (machine.frame.next + first.size))
        (other.goto (other.frame.next + second.size)) first second := by
  rcases h.frames.head with ⟨hframe, hcallers⟩ | ⟨hmain, hc, hc'⟩
  · have hgoto (next : Nat) :
        pairing.Frames (machine.goto next).frames (other.goto next).frames := by
      rw [Machine.frames, Machine.frames, Machine.goto, Machine.goto, hframe]
      exact .call _ hcallers
    rw [hframe]
    cases hd : Instruction.decode machine.frame.fn.code machine.frame.next with
    | error error => exact .inl ⟨byte, error, hbyte, rfl, rfl⟩
    | ok instruction =>
        refine .inr ⟨instruction, instruction, rfl, rfl, h.goto (hgoto _), rfl, fun _ => rfl,
          fun _ => hgoto _, fun _ => ?_⟩
        show other.frame.fn = machine.frame.fn ∧ other.frame.free = machine.frame.free
        rw [hframe]
        exact ⟨rfl, rfl⟩
  · have hgoto {next next' : Nat}
        (hm : pairing.main { machine.frame with next := next } { other.frame with next := next' }) :
        pairing.Frames (machine.goto next).frames (other.goto next').frames := by
      rw [Machine.frames, Machine.frames, Machine.goto, Machine.goto, hc, hc']
      exact .main hm h.base_eq
    rcases hf _ _ byte hmain hbyte with herror | ⟨first, second, hl⟩
    · exact .inl herror
    · exact .inr ⟨first, second, hl.decode, hl.decodeOther, h.goto (hgoto hl.next), hl.op, hl.same,
        fun hj => hgoto (hl.target hj), hl.closure⟩

/-- Two machines in step execute the matching instructions that they have read in step. If these
discard a value of their programs, it is settled what has been discarded last. -/
theorem executeDecoded {next next' : Nat} {first second : Instruction}
    (h : Twin pairing settled (machine.goto next) (other.goto next'))
    (hd : Instruction.decode machine.frame.fn.code machine.frame.next = .ok first)
    (hm : pairing.Matching (machine.goto next) (other.goto next') first second) :
    InStep pairing settled (Act.execute first) (Act.execute second) (machine.goto next)
      (other.goto next') fun _ => Twin pairing (settled ∨ machine.Discards) := by
  by_cases hpop : first.op = .pop
  · have hj : ¬ first.Jumps := by simp [Instruction.Jumps, hpop]
    obtain rfl := hm.same hj
    obtain ⟨op, operands⟩ := second
    obtain rfl : op = .pop := hpop
    exact h.discard.mono fun _ _ _ h => h.mono fun hs => hs.imp_right And.left
  · refine (h.execute hm hpop).mono fun _ _ _ h => h.mono fun hs => hs.elim id ?_
    rintro ⟨-, hd'⟩
    rw [hd] at hd'
    exact absurd (Except.ok.inj hd') hpop

/-- Two machines in step take a step in step, unless the program of the first one is at its end. -/
theorem step (h : Twin pairing settled machine other) (hf : pairing.Follows)
    (hne : ¬ machine.Ended) :
    InStep pairing settled Act.step Act.step machine other fun more after after' =>
      more = true ∧ Twin pairing (settled ∨ machine.Discards) after after' := by
  cases hbyte : machine.frame.fn.code[machine.frame.next]? with
  | none =>
      have hcall : ¬ machine.callers = [] := fun hc => hne ⟨hc, hbyte⟩
      rcases h.frames.callers with ⟨hc, -⟩ | ⟨caller, rest, caller', rest', hc, hc', hframe, -⟩
      · exact absurd hc hcall
      have hbyte' : other.frame.fn.code[other.frame.next]? = none := by rw [hframe, hbyte]
      have hsettled : settled ∨ machine.Discards → settled :=
        fun hs => hs.elim id fun hd => absurd hd.1 hcall
      have hleave := ((h.leave .null).mono fun _ _ _ h => h.mono hsettled).more
      unfold InStep at hleave ⊢
      rw [step_of_end hbyte, step_of_end hbyte', if_neg (by simp [hc]), if_neg (by simp [hc'])]
      exact hleave
  | some byte =>
      rcases h.decode hf hbyte with ⟨byte', error, hbyte', hd, hd'⟩ |
        ⟨first, second, hd, hd', hnext, hm⟩
      · obtain ⟨failure, past, hs, hstep⟩ := step_of_decode_error hbyte hd
        obtain ⟨failure', past', hs', hstep'⟩ := step_of_decode_error hbyte' hd'
        obtain rfl := hs.unique hs'
        exact inStep_error hstep hstep' ⟨h.inUse_eq, h.globals, h.lastPopped, h.output⟩
      · have hstep := (hnext.executeDecoded hd hm).more
        unfold InStep at hstep ⊢
        rw [step_of_decode hd, step_of_decode hd']
        exact hstep

/-- If two programs end together, then so do machines in step. -/
theorem ended (h : Twin pairing settled machine other) (he : pairing.EndsTogether)
    (hended : machine.Ended) : other.Ended := by
  rcases h.frames.head with ⟨hframe, hcallers⟩ | ⟨hmain, hc, hc'⟩
  · rw [hended.1] at hcallers
    cases hcallers
  · exact ⟨hc', he _ _ hmain hended.2⟩

end Twin

/-- A step in step, and then an accompanied run, is an accompanied run. -/
theorem Pairing.Accompanied.of_step {after after' : Machine} {steps : Nat}
    (hs : Act.step machine = .ok true after) (hs' : Act.step other = .ok true after')
    (h : pairing.Accompanied (settled ∨ machine.Discards) steps after after') :
    pairing.Accompanied settled (steps + 1) machine other := by
  have hmono (count : Nat) (hd : settled ∨ machine.DiscardsWithin (count + 1)) :
      (settled ∨ machine.Discards) ∨ after.DiscardsWithin count := by
    rcases hd with hsettled | hd
    · exact .inl (.inl hsettled)
    · exact (hd.of_step hs).imp_left .inr
  unfold Accompanied at h ⊢
  rw [Machine.run_of_step hs, Machine.run_of_step hs']
  cases hr : after.run steps with
  | unfinished last =>
      rw [hr] at h
      obtain ⟨last', hlast, htwin⟩ := h
      exact ⟨last', hlast, htwin.mono (hmono steps)⟩
  | failed error last =>
      rw [hr] at h
      rcases h with hmissed | ⟨last', hlast, halike⟩
      · exact .inl hmissed
      · exact .inr ⟨last', hlast, halike.mono .inl⟩
  | finished last =>
      rw [hr] at h
      obtain ⟨count, hlt, last', hcount, hended, hlast, htwin⟩ := h
      refine ⟨count + 1, Nat.succ_lt_succ hlt, last', ?_, hended, ?_, htwin.mono (hmono count)⟩
      · rwa [Machine.run_of_step hs]
      · rwa [Machine.run_of_step hs']

namespace Twin

/-- Two machines in step run in step. -/
theorem run (h : Twin pairing settled machine other) (hf : pairing.Follows) (steps : Nat) :
    pairing.Accompanied settled steps machine other := by
  -- The first step may settle what has been discarded last, so the induction is for all `settled`.
  induction steps generalizing settled machine other with
  | zero =>
      exact ⟨other, rfl, h.mono fun hs => hs.resolve_right machine.not_discardsWithin_zero⟩
  | succ steps ih =>
      by_cases hend : machine.Ended
      · rw [Pairing.Accompanied, Machine.run, Machine.step_of_ended hend]
        exact ⟨0, Nat.succ_pos steps, other, rfl, hend, rfl,
          h.mono fun hs => hs.resolve_right machine.not_discardsWithin_zero⟩
      have hstep := h.step hf hend
      unfold Act.InStep at hstep
      cases hs : Act.step machine with
      | error error after =>
          rw [hs] at hstep
          rw [Pairing.Accompanied, Machine.run, hs]
          rcases hstep with hmissed | ⟨after', hother, halike⟩
          · exact .inl hmissed
          · refine .inr ⟨after', ?_, halike⟩
            rw [Machine.run, hother]
      | ok more after =>
          rw [hs] at hstep
          obtain ⟨after', hother, rfl, hnext⟩ := hstep
          exact .of_step hs hother (ih hnext)

/-- Two machines in step come out alike if their programs end together. -/
theorem run_alike (h : Twin pairing settled machine other) (hf : pairing.Follows)
    (he : pairing.EndsTogether) (steps : Nat) :
    pairing.RunsAlike settled (settled ∨ machine.DiscardsWithin steps) (machine.run steps)
      (other.run steps) := by
  have hruns := h.run hf steps
  unfold Pairing.Accompanied at hruns
  cases hrun : machine.run steps with
  | unfinished after =>
      rw [hrun] at hruns
      obtain ⟨after', hother, htwin⟩ := hruns
      rw [hother]
      exact .unfinished htwin.alike
  | failed error after =>
      rw [hrun] at hruns
      rcases hruns with hmissed | ⟨after', hother, halike⟩
      · exact .missed hmissed
      · rw [hother]
        exact .failed error halike
  | finished after =>
      rw [hrun] at hruns
      obtain ⟨count, hlt, after', hcount, hended, hother, htwin⟩ := hruns
      rw [Machine.run_of_ended hother (htwin.ended he hended) hlt]
      exact .finished (htwin.mono fun hs => hs.imp_right fun hd => hd.of_ended hcount hended).alike

end Twin

end StackScript
