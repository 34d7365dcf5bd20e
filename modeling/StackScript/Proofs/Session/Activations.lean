import StackScript.Proofs.Machine.Activation
import StackScript.Proofs.Session.Safety

/-!
# Calls touch nothing of their callers

The code of every program that a session compiles is balanced, and so is that of all functions that it
has compiled before. Its machines are therefore orderly, however far they have run: a call leaves the
slots below its closure and the frames below its own alone, and when it returns there is one value
more on the stack of its caller.
-/

namespace StackScript

open StackScript.Core

namespace Session

/-- All functions that a session has compiled, and those that its globals hold, have balanced code. -/
structure Orderly (session : Session) : Prop where
  constants : ∀ value ∈ session.assembly.constants, value.Only FunctionOver.Balanced
  globals : ∀ value ∈ session.globals, value.Only FunctionOver.Balanced

theorem orderly_initial (limits : Limits) : Orderly { limits } where
  constants _ hm := absurd hm (Array.not_mem_empty _)
  globals _ hm := absurd hm (Array.not_mem_empty _)

variable {session : Session} {program : Program} {bytecode : Bytecode} {assembly : Assembly}

/-- A program of an orderly session has balanced code, and so have its functions. -/
theorem Orderly.compile (ho : session.Orderly) (hs : session.Sound)
    (h : program.compile session.assembly = .ok (bytecode, assembly)) :
    bytecode.code.Balanced false 0 0 0 ∧ assembly.constants = bytecode.constants ∧
      ∀ value ∈ bytecode.constants, value.Only FunctionOver.Balanced := by
  obtain ⟨stmts, hresolve, henc, hcode, hconstants, hafter⟩ :=
    Program.compile_generates hs.ready.empty h
  obtain ⟨-, -, hfits⟩ := hs.ready.resolve_fits hresolve
  obtain ⟨hadmitted, hfunctions⟩ := Stmt.generateAll_balanced hfits
  refine ⟨?_, by rw [hafter], ?_⟩
  · rw [hcode]
    refine Stmt.generateAll_shifts stmts _ _ 0 session.assembly.constants.size 0
      (Instruction.along_of_carries _ (Code.carries_ofInstructions henc.code)
        fun _ instruction _ heq =>
          hadmitted 0 _ instruction (heq ▸ List.mem_append_cons_self)) (.stop ?_)
    rw [Nat.zero_add, Code.size_ofInstructions henc.code]
    exact ⟨rfl, rfl⟩
  · intro value hm
    rw [hconstants] at hm
    rcases Array.mem_append.mp hm with hm | hm
    · exact ho.constants value hm
    · obtain ⟨constant, hconstant, rfl⟩ := List.mem_map.mp (List.mem_toArray.mp hm)
      cases constant with
      | integer value => exact .integer value
      | text value => exact .text value
      | function fn => exact .function (hfunctions 0 _ fn henc hconstant)

/-- A machine that starts on a program of an orderly session is orderly. -/
theorem Orderly.start (ho : session.Orderly) (hs : session.Sound)
    (h : program.compile session.assembly = .ok (bytecode, assembly)) :
    (Machine.start bytecode session.limits session.globals).Orderly := by
  obtain ⟨hcode, -, hconstants⟩ := ho.compile hs h
  refine ⟨Nat.zero_le _, ?_, hconstants, ?_, ⟨0, rfl, hcode⟩, nofun, List.forall_mem_nil _⟩
  · intro value hm
    rw [Array.eq_of_mem_replicate hm]
    exact .null
  · intro value hm
    rcases Array.mem_append.mp hm with hm | hm
    · exact ho.globals value hm
    · rw [Array.eq_of_mem_replicate hm]
      exact .null

theorem Orderly.eval (ho : session.Orderly) (hs : session.Sound) (source : String) (steps : Nat) :
    (session.eval source steps).2.Orderly := by
  obtain ⟨error, heq, -⟩ | ⟨program, bytecode, assembly, -, h, heq⟩ :=
    session.eval_cases source steps
  · rw [heq]
    exact ho
  · obtain ⟨-, hassembly, hconstants⟩ := ho.compile hs h
    rw [heq]
    exact ⟨hassembly ▸ hconstants, ((ho.start hs h).run steps).1⟩

theorem Orderly.afterAll (ho : session.Orderly) (hs : session.Sound)
    (history : List (String × Nat)) : (session.afterAll history).Orderly := by
  induction history generalizing session with
  | nil => exact ho
  | cons entry history ih => exact ih (ho.eval hs entry.1 entry.2) (hs.eval entry.1 entry.2)

/-- Every machine that runs a program of a session is orderly, before each of its steps. -/
theorem orderly_of_run {limits : Limits} {history : List (String × Nat)} {steps : Nat}
    {machine : Machine}
    (h : program.compile (({ limits } : Session).afterAll history).assembly =
      .ok (bytecode, assembly))
    (hr : (Machine.start bytecode limits (({ limits } : Session).afterAll history).globals).run
      steps = .unfinished machine) : machine.Orderly := by
  have hs := (sound_initial limits).afterAll history
  have ho := (orderly_initial limits).afterAll (sound_initial limits) history
  have hlimits : (({ limits } : Session).afterAll history).limits = limits := limits_afterAll _ _
  have hstart := ho.start hs h
  rw [hlimits] at hstart
  exact (hstart.run steps).2 machine hr

end Session

/-- A step that calls a closure enters its function. -/
theorem Machine.Orderly.enters {machine entered : Machine} (h : machine.Orderly) {count k : Nat}
    {fn : Function} {free : List Value}
    (hd : Instruction.decode machine.frame.fn.code machine.frame.next = .ok ⟨.call, [count]⟩)
    (ht : machine.top = k + (count + 1)) (hc : machine.stack[k]? = some (.closure fn free))
    (hs : Act.step machine = .ok true entered) :
    entered.Orderly ∧ entered.frame = { fn, free, base := k + 1 } ∧ count = fn.parameters ∧
      entered.callers = { machine.frame with next := machine.frame.next + 2 } :: machine.callers ∧
      (∀ slot < machine.top, entered.stack[slot]? = machine.stack[slot]?) ∧
      ∀ slot, machine.top ≤ slot → slot < entered.frame.floor →
        entered.stack[slot]? = some .null := by
  obtain ⟨hentered, instruction, hdecode, hmoves⟩ := h.moves hs
  obtain rfl : ⟨.call, [count]⟩ = instruction := Except.ok.inj (hd.symm.trans hdecode)
  have hk : machine.top - (count + 1) = k := by omega
  have hbase : machine.top - count = k + 1 := by omega
  cases hmoves with
  | goes goes callee =>
      obtain ⟨builtin, hbuiltin⟩ := callee rfl
      rw [show Instruction.first ⟨.call, [count]⟩ = count from rfl, hk, hc] at hbuiltin
      cases hbuiltin
  | enters call callee frame callers arguments top above kept fresh =>
      rw [show Instruction.first ⟨.call, [count]⟩ = count from rfl] at callee frame arguments
      rw [hk, hc] at callee
      cases callee
      rw [hbase] at frame
      exact ⟨hentered, frame, arguments, callers, kept, fresh⟩
  | leaves around frame callers top above kept result returned =>
      rcases returned with ⟨hop, -⟩ | ⟨hop, -⟩ <;> cases hop

/-- A call touches nothing of its caller. From the step that calls a closure in some slot of the stack
until its function has returned, the slots below that slot and the frames of the caller stay as they
are, with the caller about to go on behind its call. The step that returns leaves these frames, and
the stack up to the slot of the closure, which now holds the value that is returned. -/
theorem call_keeps_caller (limits : Limits) (history : List (String × Nat)) {program : Program}
    {bytecode : Bytecode} {assembly : Assembly} {steps : Nat} {machine entered : Machine}
    {count k : Nat} {fn : Function} {free : List Value}
    (h : program.compile (({ limits } : Session).afterAll history).assembly =
      .ok (bytecode, assembly))
    (hr : (Machine.start bytecode limits (({ limits } : Session).afterAll history).globals).run
      steps = .unfinished machine)
    (hd : Instruction.decode machine.frame.fn.code machine.frame.next = .ok ⟨.call, [count]⟩)
    (ht : machine.top = k + (count + 1)) (hc : machine.stack[k]? = some (.closure fn free))
    (hs : Act.step machine = .ok true entered) :
    let below := { machine.frame with next := machine.frame.next + 2 } :: machine.callers
    ∀ inside, entered.During (fun _ => True) inside →
      (∀ slot < k, inside.stack[slot]? = machine.stack[slot]?) ∧
      (∃ inner, inner ≠ [] ∧ inside.frames = inner ++ below) ∧
      ∀ after, Act.step inside = .ok true after → after.depth < entered.depth →
        (∀ slot < k, after.stack[slot]? = machine.stack[slot]?) ∧ after.frames = below ∧
        after.top = k + 1 ∧ ∃ value, after.stack[k]? = some value ∧ inside.Returns value := by
  intro below inside hinside
  have hmachine := Session.orderly_of_run h hr
  obtain ⟨ho, hframe, -, hcallers, hsame, -⟩ := hmachine.enters hd ht hc hs
  have hbase : entered.frame.base = k + 1 := by rw [hframe]
  have hbelow : ∀ slot < k, entered.stack[slot]? = machine.stack[slot]? :=
    fun slot hslot => hsame slot (by omega)
  obtain ⟨-, ⟨inner, own, hstacked⟩, -⟩ := hinside.stacked ho
  refine ⟨?_, ?_, ?_⟩
  · intro slot hslot
    rw [hinside.kept_below ho (by omega), hbelow slot hslot]
  · refine ⟨inner ++ [own], by simp, ?_⟩
    rw [hstacked.frames, hcallers, List.append_assoc]
    rfl
  · intro after hstep hdepth
    obtain ⟨hframes, htop, hkept, hvalue⟩ := hinside.leaves ho hstep hdepth
    rw [hbase] at htop hkept hvalue
    refine ⟨fun slot hslot => ?_, hframes.trans hcallers, htop, hvalue⟩
    rw [hkept slot hslot, hbelow slot hslot]

/-- A program calls a closure with one argument, above a single operand, with its sixth step, and the
activation of the closure ends with its second step. -/
def callsAboveOperand : Except CompileError (Bytecode × Assembly) → Bool
  | .error _ => false
  | .ok (bytecode, _) =>
    match (Machine.start bytecode ⟨16, 8, 4⟩ #[]).run 5 with
    | .unfinished machine =>
      match Instruction.decode machine.frame.fn.code machine.frame.next, machine.stack[1]?,
        Act.step machine with
      | .ok ⟨.call, [1]⟩, some (ValueOver.closure _ _), .ok true entered =>
        match Act.step entered with
        | .ok true inside =>
          match Act.step inside with
          | .ok true after =>
            decide (machine.top = 3 ∧ entered.depth ≤ inside.depth ∧ after.depth < entered.depth)
          | _ => false
        | _ => false
      | _, _, _ => false
    | _ => false

/-- A function is called between the operands of a sum. Its activation ends with its second step, and
the left operand is still below the value that it returns. -/
theorem call_keeps_caller_operand :
    ∃ bytecode assembly machine entered inside after fn free,
      Program.compile [.binding "f" (.function none ["x"] [.expr (.name "x")]),
        .expr (.binary .add (.integer 1) (.call (.name "f") [.boolean true]))] Assembly.initial =
          .ok (bytecode, assembly) ∧
      (Machine.start bytecode ⟨16, 8, 4⟩ #[]).run 5 = .unfinished machine ∧
      machine.stack[1]? = some (.closure fn free) ∧ Act.step machine = .ok true entered ∧
      entered.During (fun _ => True) inside ∧ Act.step inside = .ok true after ∧
      after.stack[0]? = machine.stack[0]? ∧
      after.frames = { machine.frame with next := machine.frame.next + 2 } :: machine.callers ∧
      after.top = 2 := by
  have hends : callsAboveOperand (Program.compile
      [.binding "f" (.function none ["x"] [.expr (.name "x")]),
        .expr (.binary .add (.integer 1) (.call (.name "f") [.boolean true]))] Assembly.initial) =
      true := by
    decide +kernel
  unfold callsAboveOperand at hends
  split at hends
  case h_1 => cases hends
  case h_2 bytecode assembly h =>
  split at hends
  case h_2 => cases hends
  case h_1 machine hr =>
  split at hends
  case h_2 => cases hends
  case h_1 fn free entered hd hc hs =>
  split at hends
  case h_2 => cases hends
  case h_1 inside hinside =>
  split at hends
  case h_2 => cases hends
  case h_1 after hafter =>
  obtain ⟨ht, hdeeper, hdepth⟩ := of_decide_eq_true hends
  have hduring : entered.During (fun _ => True) inside := .step .enter trivial hinside hdeeper
  obtain ⟨-, -, hleaves⟩ := call_keeps_caller ⟨16, 8, 4⟩ [] h hr hd ht hc hs inside hduring
  obtain ⟨hkept, hframes, htop, -⟩ := hleaves after hafter hdepth
  exact ⟨bytecode, assembly, machine, entered, inside, after, fn, free, h, hr, hc, hs, hduring,
    hafter, hkept 0 (Nat.zero_lt_one), hframes, htop⟩

end StackScript
