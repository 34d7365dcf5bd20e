import StackScript.Proofs.Core.Sound
import StackScript.Proofs.Machine.Execution
import StackScript.Proofs.Machine.Yields

/-!
# Machines in step

Two machines run in step although one of them has more room, or a longer pool, or runs the code of
its program at another offset: as long as no limit is in the way of the first one, every step leaves
the same values in use, the same globals, and the same errors.

## Implementation notes

A function may take off more than it has put on, and a return then sets the top above slots that have
been left. The machines therefore have to agree on more than the slots in use: on every slot below
the top or below the base of a frame. All other slots are written before they are read.
-/

namespace StackScript

namespace Machine

/-- All frames of a machine, the running one first. -/
def frames (machine : Machine) : List Frame :=
  machine.frame :: machine.callers

/-- A slot of the stack may be read before it is written again. -/
def InReach (machine : Machine) (slot : Nat) : Prop :=
  slot < machine.top ∨ ∃ frame ∈ machine.frames, slot < frame.base

/-- A machine that starts reads no slot before it writes it. -/
theorem not_inReach_start (bytecode : Bytecode) (limits : Limits) (globals : Array Value)
    (slot : Nat) : ¬ (start bytecode limits globals).InReach slot := by
  rintro (hlt | ⟨frame, hm, hlt⟩)
  · exact absurd hlt (Nat.not_lt_zero slot)
  · obtain rfl := List.mem_singleton.mp hm
    exact absurd hlt (Nat.not_lt_zero slot)

end Machine

/-- How a machine may differ from one that it runs in step with: in the frame of its program, in what
it had written before, and in the errors that it need not run into. -/
structure Pairing where
  main : Frame → Frame → Prop
  written : String
  missed : RuntimeError → Prop

/-- Frames are the same, apart from those of the programs themselves. -/
inductive Pairing.Frames (pairing : Pairing) : List Frame → List Frame → Prop
  | main {frame other : Frame} (h : pairing.main frame other) (hb : other.base = frame.base) :
    Frames pairing [frame] [other]
  | call (frame : Frame) {callers others : List Frame} (h : Frames pairing callers others) :
    Frames pairing (frame :: callers) (frame :: others)

/-- The second machine has as much room and as many constants as the first one, or more if the errors
of the first one that come from this are not to be met. -/
structure Pairing.Roomy (pairing : Pairing) (machine other : Machine) : Prop where
  stack : machine.stack.size = other.stack.size ∨
    (machine.stack.size ≤ other.stack.size ∧ pairing.missed .stackOverflow)
  calls : machine.limits.maxFrames = other.limits.maxFrames ∨
    (machine.limits.maxFrames ≤ other.limits.maxFrames ∧
      pairing.missed (.frameOverflow machine.limits.maxFrames))
  globals : machine.globals.size = other.globals.size ∨
    (machine.globals.size ≤ other.globals.size ∧
      ∀ index, pairing.missed (.invalidOperand Opcode.getGlobal.mnemonic index) ∧
        pairing.missed (.invalidOperand Opcode.setGlobal.mnemonic index))
  constants : machine.constants = other.constants ∨
    (Extends machine.constants other.constants ∧
      ∀ index, pairing.missed (.invalidOperand Opcode.constant.mnemonic index) ∧
        pairing.missed (.invalidOperand Opcode.closure.mnemonic index))

/-- Two machines look alike: they have the same values in use and the same globals, they have written
the same since they are in step, and if this is settled they have discarded the same value last. -/
structure Pairing.Alike (pairing : Pairing) (settled : Prop) (machine other : Machine) : Prop where
  inUse : other.inUse = machine.inUse
  globals : ∀ index : Nat, other.globals[index]?.getD .null = machine.globals[index]?.getD .null
  lastPopped : settled → other.lastPopped = machine.lastPopped
  output : other.output = pairing.written ++ machine.output

theorem Pairing.Alike.mono {pairing : Pairing} {settled settled' : Prop} {machine other : Machine}
    (h : pairing.Alike settled machine other) (hs : settled' → settled) :
    pairing.Alike settled' machine other :=
  ⟨h.inUse, h.globals, fun hs' => h.lastPopped (hs hs'), h.output⟩

/-- Two machines are in step. -/
structure Twin (pairing : Pairing) (settled : Prop) (machine other : Machine) : Prop where
  frames : pairing.Frames machine.frames other.frames
  roomy : pairing.Roomy machine other
  top : other.top = machine.top
  stack : ∀ slot, machine.InReach slot → other.stack[slot]? = machine.stack[slot]?
  globals : ∀ index : Nat, other.globals[index]?.getD .null = machine.globals[index]?.getD .null
  lastPopped : settled → other.lastPopped = machine.lastPopped
  output : other.output = pairing.written ++ machine.output

/-- Two actions on two machines come out in step: the second one gives the same value as the first
one, or fails with the same error, unless this is one to be missed. -/
def Act.InStep (pairing : Pairing) (settled : Prop) (first second : Act α) (machine other : Machine)
    (post : α → Machine → Machine → Prop) : Prop :=
  match first machine with
  | .ok value after => ∃ after', second other = .ok value after' ∧ post value after after'
  | .error error after => pairing.missed error ∨
      ∃ after', second other = .error error after' ∧ pairing.Alike settled after after'

variable {pairing : Pairing} {settled : Prop} {machine other : Machine}

namespace Act

theorem inStep_ok {first second : Act α} {value : α} {after after' : Machine}
    {post : α → Machine → Machine → Prop} (h : first machine = .ok value after)
    (h' : second other = .ok value after') (hp : post value after after') :
    InStep pairing settled first second machine other post := by
  rw [InStep, h]
  exact ⟨after', h', hp⟩

theorem inStep_error {first second : Act α} {error : RuntimeError} {after after' : Machine}
    {post : α → Machine → Machine → Prop} (h : first machine = .error error after)
    (h' : second other = .error error after') (ha : pairing.Alike settled after after') :
    InStep pairing settled first second machine other post := by
  rw [InStep, h]
  exact .inr ⟨after', h', ha⟩

theorem inStep_missed {first second : Act α} {error : RuntimeError} {after : Machine}
    {post : α → Machine → Machine → Prop} (h : first machine = .error error after)
    (hm : pairing.missed error) : InStep pairing settled first second machine other post := by
  rw [InStep, h]
  exact .inl hm

theorem inStep_get {next next' : Machine → Act α} {post : α → Machine → Machine → Prop}
    (h : InStep pairing settled (next machine) (next' other) machine other post) :
    InStep pairing settled (get >>= next) (get >>= next') machine other post :=
  h

theorem InStep.bind {first second : Act α} {next next' : α → Act β}
    {post : α → Machine → Machine → Prop} {post' : β → Machine → Machine → Prop}
    (h : InStep pairing settled first second machine other post)
    (hn : ∀ value after after', post value after after' →
      InStep pairing settled (next value) (next' value) after after' post') :
    InStep pairing settled (first >>= next) (second >>= next') machine other post' := by
  unfold InStep at h
  cases hr : first machine with
  | ok value after =>
      rw [hr] at h
      obtain ⟨after', hother, hpost⟩ := h
      have hnext := hn value after after' hpost
      rw [InStep, EStateM.bind_of_ok hr, EStateM.bind_of_ok hother]
      exact hnext
  | error error after =>
      rw [hr] at h
      rcases h with hm | ⟨after', hother, ha⟩
      · exact inStep_missed (EStateM.bind_of_error hr) hm
      · exact inStep_error (EStateM.bind_of_error hr) (EStateM.bind_of_error hother) ha

theorem InStep.mono {first second : Act α} {post post' : α → Machine → Machine → Prop}
    (h : InStep pairing settled first second machine other post)
    (hp : ∀ value after after', post value after after' → post' value after after') :
    InStep pairing settled first second machine other post' := by
  unfold InStep at h ⊢
  cases hr : first machine with
  | ok value after =>
      rw [hr] at h
      obtain ⟨after', hother, hpost⟩ := h
      exact ⟨after', hother, hp value after after' hpost⟩
  | error error after =>
      rw [hr] at h
      exact h

end Act

theorem Pairing.Frames.length_eq {frames others : List Frame} (h : pairing.Frames frames others) :
    others.length = frames.length := by
  induction h with
  | main h hb => rfl
  | call frame h ih => rw [List.length_cons, List.length_cons, ih]

/-- The running frames are the same, or they are those of the programs. -/
theorem Pairing.Frames.head {frame frame' : Frame} {callers callers' : List Frame}
    (h : pairing.Frames (frame :: callers) (frame' :: callers')) :
    (frame' = frame ∧ pairing.Frames callers callers') ∨
      (pairing.main frame frame' ∧ callers = [] ∧ callers' = []) := by
  cases h with
  | main h hb => exact .inr ⟨h, rfl, rfl⟩
  | call frame h => exact .inl ⟨rfl, h⟩

/-- Either both programs run outside of functions, or the same function runs in both machines. -/
theorem Pairing.Frames.callers {frame frame' : Frame} {callers callers' : List Frame}
    (h : pairing.Frames (frame :: callers) (frame' :: callers')) :
    (callers = [] ∧ callers' = []) ∨
      ∃ caller rest caller' rest', callers = caller :: rest ∧ callers' = caller' :: rest' ∧
        frame' = frame ∧ pairing.Frames (caller :: rest) (caller' :: rest') := by
  cases h with
  | main h hb => exact .inl ⟨rfl, rfl⟩
  | call frame h =>
      cases h with
      | main h hb => exact .inr ⟨_, [], _, [], rfl, rfl, rfl, .main h hb⟩
      | call caller h => exact .inr ⟨caller, _, caller, _, rfl, rfl, rfl, .call caller h⟩

theorem Pairing.Frames.base_eq {frame frame' : Frame} {callers callers' : List Frame}
    (h : pairing.Frames (frame :: callers) (frame' :: callers')) : frame'.base = frame.base := by
  cases h with
  | main h hb => exact hb
  | call frame h => rfl

namespace Pairing.Roomy

theorem stack_le (h : pairing.Roomy machine other) : machine.stack.size ≤ other.stack.size := by
  rcases h.stack with heq | ⟨hle, -⟩
  · exact Nat.le_of_eq heq
  · exact hle

theorem calls_le (h : pairing.Roomy machine other) :
    machine.limits.maxFrames ≤ other.limits.maxFrames := by
  rcases h.calls with heq | ⟨hle, -⟩
  · exact Nat.le_of_eq heq
  · exact hle

theorem globals_le (h : pairing.Roomy machine other) :
    machine.globals.size ≤ other.globals.size := by
  rcases h.globals with heq | ⟨hle, -⟩
  · exact Nat.le_of_eq heq
  · exact hle

/-- Room is a matter of sizes, limits and constants. -/
theorem congr {after after' : Machine} (h : pairing.Roomy machine other)
    (hs : after.stack.size = machine.stack.size) (hs' : after'.stack.size = other.stack.size)
    (hg : after.globals.size = machine.globals.size)
    (hg' : after'.globals.size = other.globals.size) (hl : after.limits = machine.limits)
    (hl' : after'.limits = other.limits) (hc : after.constants = machine.constants)
    (hc' : after'.constants = other.constants) : pairing.Roomy after after' where
  stack := by
    rw [hs, hs']
    exact h.stack
  calls := by
    rw [hl, hl']
    exact h.calls
  globals := by
    rw [hg, hg']
    exact h.globals
  constants := by
    rw [hc, hc']
    exact h.constants

end Pairing.Roomy

namespace Twin

open Act

theorem inUse_eq (h : Twin pairing settled machine other) : other.inUse = machine.inUse := by
  apply List.ext_getElem?
  intro slot
  rw [Machine.inUse, Machine.inUse, List.getElem?_take, List.getElem?_take, h.top]
  split
  case isTrue hlt => simpa using h.stack slot (.inl hlt)
  case isFalse => rfl

theorem alike (h : Twin pairing settled machine other) : pairing.Alike settled machine other where
  inUse := h.inUse_eq
  globals := h.globals
  lastPopped := h.lastPopped
  output := h.output

theorem mono {settled' : Prop} (h : Twin pairing settled machine other) (hs : settled' → settled) :
    Twin pairing settled' machine other where
  frames := h.frames
  roomy := h.roomy
  top := h.top
  stack := h.stack
  globals := h.globals
  lastPopped hs' := h.lastPopped (hs hs')
  output := h.output

theorem base_eq (h : Twin pairing settled machine other) :
    other.frame.base = machine.frame.base :=
  h.frames.base_eq

/-- The topmost values are the same. -/
theorem extract_eq (h : Twin pairing settled machine other) (start : Nat) :
    (other.stack.extract start other.top).toList =
      (machine.stack.extract start machine.top).toList := by
  have hdrop (machine : Machine) : (machine.stack.extract start machine.top).toList =
      machine.inUse.drop start := by
    rw [Machine.inUse, Array.toList_extract, List.extract_eq_take_drop, ← List.drop_take]
  rw [hdrop, hdrop, h.inUse_eq]

theorem getElem?_eq (h : Twin pairing settled machine other) {slot : Nat}
    (hs : slot < machine.top) : other.stack[slot]? = machine.stack[slot]? :=
  h.stack slot (.inl hs)

/-- Two machines stay in step when the same number of values is taken off their stacks. -/
theorem drop (h : Twin pairing settled machine other) (count : Nat) :
    Twin pairing settled { machine with top := machine.top - count }
      { other with top := other.top - count } where
  frames := h.frames
  roomy := h.roomy.congr rfl rfl rfl rfl rfl rfl rfl rfl
  top := congrArg (· - count) h.top
  stack slot hr := by
    rcases hr with hlt | hframe
    · exact h.stack slot (.inl (Nat.lt_of_lt_of_le hlt (Nat.sub_le _ _)))
    · exact h.stack slot (.inr hframe)
  globals := h.globals
  lastPopped := h.lastPopped
  output := h.output

theorem pushed (h : Twin pairing settled machine other) (hlt : machine.top < machine.stack.size)
    (value : Value) : Twin pairing settled (machine.pushed value) (other.pushed value) where
  frames := h.frames
  roomy := h.roomy.congr Array.size_setIfInBounds Array.size_setIfInBounds rfl rfl rfl rfl rfl rfl
  top := congrArg (· + 1) h.top
  stack slot hr := by
    have hlt' := Nat.lt_of_lt_of_le hlt h.roomy.stack_le
    simp only [Machine.pushed, Array.getElem?_setIfInBounds, h.top, hlt, hlt', if_true]
    split
    case isTrue => rfl
    case isFalse hne =>
        apply h.stack slot
        rcases hr with hslot | hframe
        · have hslot' : slot < machine.top + 1 := hslot
          exact .inl (by omega)
        · exact .inr hframe
  globals := h.globals
  lastPopped := h.lastPopped
  output := h.output

theorem push (h : Twin pairing settled machine other) (value : Value) :
    InStep pairing settled (Act.push value) (Act.push value) machine other
      fun _ => Twin pairing settled := by
  by_cases hlt : machine.top < machine.stack.size
  · have hlt' : other.top < other.stack.size := by
      rw [h.top]
      exact Nat.lt_of_lt_of_le hlt h.roomy.stack_le
    exact inStep_ok (by rw [push_apply, if_pos hlt]) (by rw [push_apply, if_pos hlt'])
      (h.pushed hlt value)
  · have hfull : Act.push value machine = .error .stackOverflow machine := by
      rw [push_apply, if_neg hlt]
    rcases h.roomy.stack with heq | ⟨-, hm⟩
    · exact inStep_error hfull (by rw [push_apply, h.top, ← heq, if_neg hlt]) h.alike
    · exact inStep_missed hfull hm

theorem popped (h : Twin pairing settled machine other) :
    InStep pairing settled Act.pop Act.pop machine other fun _ after after' =>
      after = { machine with top := machine.top - 1 } ∧
        after' = { other with top := other.top - 1 } := by
  by_cases hempty : machine.top = 0
  · exact inStep_error (by rw [pop_apply, if_pos hempty])
      (by rw [pop_apply, h.top, if_pos hempty]) h.alike
  · refine inStep_ok (by rw [pop_apply, if_neg hempty]) ?_ ⟨rfl, rfl⟩
    rw [pop_apply, if_neg (by rwa [h.top]), h.top, h.getElem?_eq (by omega)]

theorem pop (h : Twin pairing settled machine other) :
    InStep pairing settled Act.pop Act.pop machine other fun _ => Twin pairing settled := by
  refine h.popped.mono fun value after after' hpopped => ?_
  obtain ⟨rfl, rfl⟩ := hpopped
  exact h.drop 1

theorem popMany (h : Twin pairing settled machine other) (count : Nat) :
    InStep pairing settled (Act.popMany count) (Act.popMany count) machine other
      fun _ => Twin pairing settled := by
  by_cases hshort : machine.top < count
  · exact inStep_error (by rw [popMany_apply, if_pos hshort])
      (by rw [popMany_apply, h.top, if_pos hshort]) h.alike
  · refine inStep_ok (by rw [popMany_apply, if_neg hshort]) ?_ (h.drop count)
    rw [popMany_apply, if_neg (by rwa [h.top]), h.extract_eq, h.top]

theorem pushResult (h : Twin pairing settled machine other) (result : Except RuntimeError Value) :
    InStep pairing settled (Act.pushResult result) (Act.pushResult result) machine other
      fun _ => Twin pairing settled := by
  cases result with
  | ok value => exact h.push value
  | error error => exact inStep_error rfl rfl h.alike

theorem binary (h : Twin pairing settled machine other)
    (operation : Value → Value → Except RuntimeError Value) :
    InStep pairing settled (Act.binary operation) (Act.binary operation) machine other
      fun _ => Twin pairing settled :=
  h.pop.bind fun right _ _ h => h.pop.bind fun left _ _ h => h.pushResult (operation left right)

theorem localSlot (h : Twin pairing settled machine other) (index : Nat) :
    InStep pairing settled (Act.localSlot index) (Act.localSlot index) machine other
      fun slot after after' => slot < after.top ∧ Twin pairing settled after after' := by
  by_cases hlt : machine.frame.base + index < machine.top
  · refine inStep_ok (by rw [localSlot_apply, if_pos hlt]) ?_ ⟨hlt, h⟩
    rw [localSlot_apply, h.base_eq, h.top, if_pos hlt]
  · refine inStep_error (by rw [localSlot_apply, if_neg hlt]) ?_ h.alike
    rw [localSlot_apply, h.base_eq, h.top, if_neg hlt]

theorem setSlot (h : Twin pairing settled machine other) {index : Nat} (hi : index < machine.top)
    (value : Value) :
    Twin pairing settled { machine with stack := machine.stack.setIfInBounds index value }
      { other with stack := other.stack.setIfInBounds index value } where
  frames := h.frames
  roomy := h.roomy.congr Array.size_setIfInBounds Array.size_setIfInBounds rfl rfl rfl rfl rfl rfl
  top := h.top
  stack slot hr := by
    have hbelow := h.getElem?_eq hi
    have hbound : index < other.stack.size ↔ index < machine.stack.size := by
      rw [← Nat.not_le, ← Nat.not_le, ← Array.getElem?_eq_none_iff, ← Array.getElem?_eq_none_iff,
        hbelow]
    simp only [Array.getElem?_setIfInBounds, hbound]
    split
    case isTrue => rfl
    case isFalse => exact h.stack slot hr
  globals := h.globals
  lastPopped := h.lastPopped
  output := h.output

theorem setGlobal (h : Twin pairing settled machine other) {index : Nat}
    (hi : index < machine.globals.size) (value : Value) :
    Twin pairing settled { machine with globals := machine.globals.setIfInBounds index value }
      { other with globals := other.globals.setIfInBounds index value } where
  frames := h.frames
  roomy := h.roomy.congr rfl rfl Array.size_setIfInBounds Array.size_setIfInBounds rfl rfl rfl rfl
  top := h.top
  stack := h.stack
  globals slot := by
    have hi' := Nat.lt_of_lt_of_le hi h.roomy.globals_le
    simp only [Array.getElem?_setIfInBounds, hi, hi', if_true]
    split
    case isTrue => rfl
    case isFalse => exact h.globals slot
  lastPopped := h.lastPopped
  output := h.output

/-- Two machines stay in step when they write the same. -/
theorem print (h : Twin pairing settled machine other) (text : String) :
    Twin pairing settled { machine with output := machine.output ++ text }
      { other with output := other.output ++ text } where
  frames := h.frames
  roomy := h.roomy.congr rfl rfl rfl rfl rfl rfl rfl rfl
  top := h.top
  stack := h.stack
  globals := h.globals
  lastPopped := h.lastPopped
  output := by
    show other.output ++ text = pairing.written ++ (machine.output ++ text)
    rw [h.output, String.append_assoc]

/-- Two machines stay in step when the same function is called. -/
theorem entered (h : Twin pairing settled machine other) {fn : Function} {count : Nat}
    (hroom : machine.top - count + max fn.locals count ≤ machine.stack.size)
    (free : List Value) :
    Twin pairing settled (machine.entered fn free count) (other.entered fn free count) where
  frames := by
    rw [Machine.frames, Machine.frames, Machine.entered, Machine.entered, h.top]
    exact .call _ h.frames
  roomy := h.roomy.congr (size_clearSlots _ _ _) (size_clearSlots _ _ _) rfl rfl rfl rfl rfl rfl
  top := by
    show other.top - count + _ = machine.top - count + _
    rw [h.top]
  stack slot hr := by
    have hroom' := Nat.le_trans hroom h.roomy.stack_le
    simp only [Machine.entered, h.top, getElem?_clearSlots hroom, getElem?_clearSlots hroom']
    split
    case isTrue => rfl
    case isFalse hout =>
        apply h.stack slot
        rcases hr with hslot | ⟨frame, hm, hslot⟩
        · have hslot' : slot < machine.top - count + max fn.locals count := hslot
          exact .inl (by omega)
        · rcases List.mem_cons.mp hm with rfl | hm
          · have hslot' : slot < machine.top - count := hslot
            exact .inl (by omega)
          · exact .inr ⟨frame, hm, hslot⟩
  globals := h.globals
  lastPopped := h.lastPopped
  output := h.output

/-- A constant is the same, or the first machine is at an error that is missed. -/
theorem constant (h : Twin pairing settled machine other) (index : Nat) :
    other.constants[index]? = machine.constants[index]? ∨
      (machine.constants[index]? = none ∧
        pairing.missed (.invalidOperand Opcode.constant.mnemonic index) ∧
        pairing.missed (.invalidOperand Opcode.closure.mnemonic index)) := by
  rcases h.roomy.constants with heq | ⟨hextends, hm⟩
  · exact .inl (by rw [heq])
  · cases hc : machine.constants[index]? with
    | none => exact .inr ⟨rfl, hm index⟩
    | some value => exact .inl (hextends index value hc)

/-- A global is the same, or the first machine is at an error that is missed. -/
theorem global (h : Twin pairing settled machine other) (index : Nat) :
    other.globals[index]? = machine.globals[index]? ∨
      (machine.globals[index]? = none ∧
        pairing.missed (.invalidOperand Opcode.getGlobal.mnemonic index) ∧
        pairing.missed (.invalidOperand Opcode.setGlobal.mnemonic index)) := by
  have hvalue := h.globals index
  by_cases hlt : index < machine.globals.size
  · have hlt' := Nat.lt_of_lt_of_le hlt h.roomy.globals_le
    rw [Array.getElem?_eq_getElem hlt, Array.getElem?_eq_getElem hlt'] at hvalue ⊢
    exact .inl (congrArg some hvalue)
  · have hnone := Array.getElem?_eq_none_iff.mpr (Nat.le_of_not_lt hlt)
    rcases h.roomy.globals with heq | ⟨-, hm⟩
    · refine .inl ?_
      rw [hnone, Array.getElem?_eq_none_iff, ← heq]
      exact Nat.le_of_not_lt hlt
    · exact .inr ⟨hnone, hm index⟩

theorem leave (h : Twin pairing settled machine other) (value : Value) :
    InStep pairing settled (Act.leave value) (Act.leave value) machine other
      fun _ => Twin pairing settled := by
  rcases h.frames.callers with ⟨hc, hc'⟩ |
    ⟨caller, callers, caller', callers', hc, hc', hframe, hrest⟩
  · exact inStep_error (by rw [leave_apply, hc]) (by rw [leave_apply, hc']) h.alike
  · have hleft : Twin pairing settled
        { machine with frame := caller, callers := callers, top := machine.frame.base - 1 }
        { other with frame := caller', callers := callers', top := other.frame.base - 1 } := by
      refine ⟨hrest, h.roomy.congr rfl rfl rfl rfl rfl rfl rfl rfl, ?_, ?_, h.globals,
        h.lastPopped, h.output⟩
      · show other.frame.base - 1 = machine.frame.base - 1
        rw [hframe]
      · -- A slot below the base of the frame that is left has been in reach.
        rintro slot (hlt | ⟨frame, hm, hlt⟩)
        · have hlt' : slot < machine.frame.base - 1 := hlt
          exact h.stack slot (.inr ⟨machine.frame, List.mem_cons_self, by omega⟩)
        · refine h.stack slot (.inr ⟨frame, ?_, hlt⟩)
          rw [Machine.frames, hc]
          exact List.mem_cons_of_mem _ hm
    have hpush := hleft.push value
    unfold InStep at hpush ⊢
    rw [leave_apply, leave_apply, hc, hc']
    exact hpush

theorem enter (h : Twin pairing settled machine other) (fn : Function) (free : List Value)
    (count : Nat) :
    InStep pairing settled (Act.enter fn free count) (Act.enter fn free count) machine other
      fun _ => Twin pairing settled := by
  have henter := enter_apply machine fn free count
  have hother := enter_apply other fn free count
  by_cases hcount : count ≠ fn.parameters
  · rw [if_pos hcount] at henter hother
    exact inStep_error henter hother h.alike
  have hdepth : other.depth = machine.depth := h.frames.length_eq
  rw [if_neg hcount] at henter hother
  rw [hdepth] at hother
  by_cases hdeep : machine.depth ≥ machine.limits.maxFrames
  · rw [if_pos hdeep] at henter
    rcases h.roomy.calls with heq | ⟨-, hm⟩
    · rw [← heq, if_pos hdeep] at hother
      exact inStep_error henter hother h.alike
    · exact inStep_missed henter hm
  have hshallow : ¬ machine.depth ≥ other.limits.maxFrames := by
    have hle := h.roomy.calls_le
    omega
  rw [if_neg hdeep] at henter
  rw [if_neg hshallow, h.top] at hother
  by_cases hfull : machine.top - count + max fn.locals count > machine.stack.size
  · rw [if_pos hfull] at henter
    rcases h.roomy.stack with heq | ⟨-, hm⟩
    · rw [← heq, if_pos hfull] at hother
      exact inStep_error henter hother h.alike
    · exact inStep_missed henter hm
  have hroom : ¬ machine.top - count + max fn.locals count > other.stack.size := by
    have hle := h.roomy.stack_le
    omega
  rw [if_neg hfull] at henter
  rw [if_neg hroom] at hother
  exact inStep_ok henter hother (h.entered (Nat.le_of_not_lt hfull) free)

theorem callBuiltin (h : Twin pairing settled machine other) (builtin : Builtin) (count : Nat) :
    InStep pairing settled (Act.callBuiltin builtin count) (Act.callBuiltin builtin count) machine
      other fun _ => Twin pairing settled := by
  have hcall := callBuiltin_apply machine builtin count
  have hother := callBuiltin_apply other builtin count
  dsimp only at hcall hother
  rw [h.extract_eq, h.top] at hother
  cases happly : builtin.apply
      (machine.stack.extract (machine.top - count) machine.top).toList with
  | error misuse =>
      rw [happly] at hcall hother
      exact inStep_error hcall hother h.alike
  | ok value =>
      rw [happly] at hcall hother
      have hpush := ((h.drop (count + 1)).print
        (builtin.printed (machine.stack.extract (machine.top - count) machine.top).toList)).push
          value
      rw [h.top] at hpush
      unfold InStep at hpush ⊢
      rw [hcall, hother]
      exact hpush

theorem call (h : Twin pairing settled machine other) (count : Nat) :
    InStep pairing settled (Act.call count) (Act.call count) machine other
      fun _ => Twin pairing settled := by
  have hcall := call_apply machine count
  have hother := call_apply other count
  rw [h.top] at hother
  by_cases hshort : machine.top < count + 1
  · rw [if_pos hshort] at hcall hother
    exact inStep_error hcall hother h.alike
  rw [if_neg hshort] at hcall hother
  rw [h.getElem?_eq (by omega)] at hother
  cases hcallee : machine.stack[machine.top - (count + 1)]?.getD .null
  case closure fn free =>
      rw [hcallee] at hcall hother
      have henter := h.enter fn free count
      unfold InStep at henter ⊢
      rw [hcall, hother]
      exact henter
  case builtin builtin =>
      rw [hcallee] at hcall hother
      have hbuiltin := h.callBuiltin builtin count
      unfold InStep at hbuiltin ⊢
      rw [hcall, hother]
      exact hbuiltin
  all_goals
    rw [hcallee] at hcall hother
    exact inStep_error hcall hother h.alike

theorem makeClosure (h : Twin pairing settled machine other) (index count : Nat) :
    InStep pairing settled (Act.makeClosure index count) (Act.makeClosure index count) machine other
      fun _ => Twin pairing settled := by
  refine inStep_get ?_
  rcases h.constant index with hsame | ⟨hnone, -, hm⟩
  · rw [hsame]
    cases machine.constants[index]? with
    | none => exact inStep_error rfl rfl h.alike
    | some value =>
        cases value
        case function fn =>
          exact (h.popMany count).bind fun free _ _ h => h.push (.closure fn free)
        all_goals exact inStep_error rfl rfl h.alike
  · rw [hnone]
    exact inStep_missed rfl hm

end Twin

end StackScript
