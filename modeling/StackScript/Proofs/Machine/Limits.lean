import StackScript.Proofs.Machine.Lockstep

/-!
# Wider limits

A program that has not come to a limit runs under wider limits as it has run before.
-/

namespace StackScript

/-- Every limit of the first is at most the one of the second. -/
structure Limits.Le (limits wider : Limits) : Prop where
  stackSize : limits.stackSize ≤ wider.stackSize
  maxFrames : limits.maxFrames ≤ wider.maxFrames
  globalsSize : limits.globalsSize ≤ wider.globalsSize

/-- The errors of a program that has come to a limit. -/
inductive RuntimeError.OfLimits : RuntimeError → Prop
  | stackOverflow : OfLimits .stackOverflow
  | frameOverflow (maxFrames : Nat) : OfLimits (.frameOverflow maxFrames)
  | getGlobal (index : Nat) : OfLimits (.invalidOperand Opcode.getGlobal.mnemonic index)
  | setGlobal (index : Nat) : OfLimits (.invalidOperand Opcode.setGlobal.mnemonic index)

namespace Machine

/-- Nothing that a program has left tells one machine from the other, the number of slots apart. -/
structure Alike (machine other : Machine) : Prop where
  inUse : other.inUse = machine.inUse
  globals : ∀ index : Nat, other.globals[index]?.getD .null = machine.globals[index]?.getD .null
  lastPopped : other.lastPopped = machine.lastPopped
  output : other.output = machine.output

/-- The same program, under limits that it need not keep to. -/
def unlimited : Pairing where
  main := Eq
  written := ""
  missed := RuntimeError.OfLimits

theorem alike_of_unlimited {settled : Prop} {machine other : Machine}
    (h : unlimited.Alike settled machine other) (hs : settled) : machine.Alike other where
  inUse := h.inUse
  globals := h.globals
  lastPopped := h.lastPopped hs
  output := by
    rw [h.output]
    exact String.empty_append

variable {limits wider : Limits}

/-- Under wider limits a program starts in step. -/
theorem twin_start (h : limits.Le wider) (bytecode : Bytecode) (globals : Array Value) :
    Twin unlimited True (start bytecode limits globals) (start bytecode wider globals) where
  frames := .main rfl rfl
  roomy := {
    stack := by
      rw [start, start, Array.size_replicate, Array.size_replicate]
      exact .inr ⟨h.stackSize, .stackOverflow⟩
    calls := .inr ⟨h.maxFrames, .frameOverflow _⟩
    globals := by
      have hglobals := h.globalsSize
      refine .inr ⟨?_, fun index => ⟨.getGlobal index, .setGlobal index⟩⟩
      rw [start, start, Array.size_append, Array.size_append, Array.size_replicate,
        Array.size_replicate]
      omega
    constants := .inl rfl }
  top := rfl
  stack slot hr := absurd hr (not_inReach_start bytecode limits globals slot)
  globals index := by rw [getD_globals_start, getD_globals_start]
  lastPopped _ := rfl
  output := String.empty_append.symm

/-- Under wider limits a run comes out as it did, with the same output, the same values on the stack
and in the globals, and the same value discarded last, unless it had come to a limit. -/
theorem run_of_limits_le (h : limits.Le wider) (bytecode : Bytecode) (globals : Array Value)
    (steps : Nat) :
    match (start bytecode limits globals).run steps with
    | .finished machine => ∃ other,
        (start bytecode wider globals).run steps = .finished other ∧ machine.Alike other
    | .failed error machine => error.OfLimits ∨ ∃ other,
        (start bytecode wider globals).run steps = .failed error other ∧ machine.Alike other
    | .unfinished machine => ∃ other,
        (start bytecode wider globals).run steps = .unfinished other ∧ machine.Alike other := by
  have hends : unlimited.EndsTogether := by
    rintro frame _ rfl hend
    exact hend
  have hruns := (twin_start h bytecode globals).run_alike (Pairing.follows_of_eq rfl) hends steps
  generalize (start bytecode limits globals).run steps = run,
    (start bytecode wider globals).run steps = other at hruns ⊢
  cases hruns with
  | finished h => exact ⟨_, rfl, alike_of_unlimited h (.inl trivial)⟩
  | failed error h => exact .inr ⟨_, rfl, alike_of_unlimited h trivial⟩
  | missed h => exact .inl h
  | unfinished h => exact ⟨_, rfl, alike_of_unlimited h (.inl trivial)⟩

/-- A program that calls a function and prints what it gives. -/
def printCall : Bytecode where
  code := .ofInstructions [⟨.closure, [0, 0]⟩, ⟨.call, [0]⟩, ⟨.setGlobal, [0]⟩, ⟨.getBuiltin, [1]⟩,
    ⟨.getGlobal, [0]⟩, ⟨.call, [1]⟩, ⟨.pop, []⟩]
  constants := #[.function
    ⟨none, .ofInstructions [⟨.pushTrue, []⟩, ⟨.returnValue, []⟩], 0, 0⟩]

/-- What fits into narrow limits prints the same under wider ones. -/
theorem run_of_limits_le_printCall :
    Limits.Le ⟨2, 2, 1⟩ {} ∧ ∃ machine other,
      (start printCall ⟨2, 2, 1⟩ #[]).run 10 = .finished machine ∧ machine.output = "true\n" ∧
      (start printCall {} #[]).run 10 = .finished other ∧ machine.Alike other := by
  have hle : Limits.Le ⟨2, 2, 1⟩ {} := ⟨by decide, by decide, by decide⟩
  have hends : (match (start printCall ⟨2, 2, 1⟩ #[]).run 10 with
      | .finished machine => machine.output == "true\n"
      | _ => false) = true := by
    decide +kernel
  have hruns := run_of_limits_le hle printCall #[] 10
  refine ⟨hle, ?_⟩
  generalize (start printCall ⟨2, 2, 1⟩ #[]).run 10 = run at hends hruns ⊢
  cases run with
  | finished machine =>
      obtain ⟨other, hother, halike⟩ := hruns
      exact ⟨machine, other, rfl, by simpa using hends, hother, halike⟩
  | failed error machine => cases hends
  | unfinished machine => cases hends

end Machine

end StackScript
