import StackScript.Proofs.Core.Balance
import StackScript.Proofs.Machine.Yields
import StackScript.Proofs.Value.Only

/-!
# Frames on one stack

All frames share one stack. In an orderly machine they stand one above the other: each of them has its
locals, and above these the values that its code has put there so far, up to the base of the frame
that it has called. The code of every function is balanced, so that a frame never takes a value that
lies below its own.

One step of an orderly machine goes on in the same frame, enters a function or leaves one. It is said
here once which slots each of these may change.
-/

namespace StackScript

open Instruction

/-- What an instruction refers to is used if it is there. -/
theorem Act.yields_operandValue {α β : Type} {op : Opcode} {operand : Nat} {value? : Option α}
    {next : α → Act β} {machine : Machine} {post : β → Machine → Prop}
    {fail : RuntimeError → Machine → Prop}
    (h : ∀ value, value? = some value → (next value).Yields machine post fail)
    (hf : ∀ error, fail error machine) :
    (operandValue op operand value? >>= next).Yields machine post fail := by
  cases value? with
  | none => exact hf _
  | some value => exact h value rfl

namespace Frame

/-- The first slot above the locals of a frame. -/
def floor (frame : Frame) : Nat :=
  frame.base + max frame.fn.locals frame.fn.parameters

/-- The slots in use end with the values of the frame, and its code is balanced from there on. -/
structure Stands (inside : Bool) (top : Nat) (frame : Frame) : Prop where
  height : ∃ height, top = frame.floor + height ∧
    frame.fn.code.Balanced inside frame.fn.slots frame.next height
  fn : inside = true → frame.fn.Balanced
  free : ∀ value ∈ frame.free, value.Only FunctionOver.Balanced

/-- Frames stand one above the other, the running one first. A frame that has called a function has
as many values as it will have when the function has returned. -/
def Nested (top : Nat) (frame : Frame) : List Frame → Prop
  | [] => frame.Stands false top
  | caller :: callers =>
    frame.Stands true top ∧ caller.floor < frame.base ∧ caller.Nested frame.base callers

theorem Nested.stands {top : Nat} {frame : Frame} {callers : List Frame}
    (h : frame.Nested top callers) : frame.Stands (!callers.isEmpty) top := by
  cases callers with
  | nil => exact h
  | cons caller callers => exact h.1

/-- The running frame may be replaced by one with the same base. -/
theorem Nested.of_stands {top top' : Nat} {frame frame' : Frame} {callers : List Frame}
    (h : frame.Nested top callers) (hs : frame'.Stands (!callers.isEmpty) top')
    (hb : frame'.base = frame.base) : frame'.Nested top' callers := by
  cases callers with
  | nil => exact hs
  | cons caller callers =>
      refine ⟨hs, ?_, ?_⟩
      · rw [hb]
        exact h.2.1
      · rw [hb]
        exact h.2.2

end Frame

namespace Machine

/-- All functions in the globals have balanced code. -/
def BalancedGlobals (machine : Machine) : Prop :=
  ∀ value ∈ machine.globals, value.Only FunctionOver.Balanced

/-- All functions in the machine have balanced code, and its frames stand one above the other. -/
structure Orderly (machine : Machine) : Prop where
  room : machine.Room
  stack : ∀ value ∈ machine.stack, value.Only FunctionOver.Balanced
  constants : ∀ value ∈ machine.constants, value.Only FunctionOver.Balanced
  globals : machine.BalancedGlobals
  frames : machine.frame.Nested machine.top machine.callers

/-- The instruction stores a value in a slot of the running frame. -/
def Stores (machine : Machine) (instruction : Instruction) (slot : Nat) : Prop :=
  instruction.op = .setLocal ∧ slot = machine.frame.base + instruction.first

/-- The running frame has gone on behind an instruction. It has its values but for those that the
instruction takes and gives, and its locals but for the one that it stores. -/
structure Goes (machine : Machine) (instruction : Instruction) (after : Machine) : Prop where
  frame : after.frame = { machine.frame with next := after.frame.next }
  callers : after.callers = machine.callers
  successor : after.frame.next ∈ instruction.successors machine.frame.next
  forward : machine.frame.next < after.frame.next
  enough : machine.frame.floor + instruction.takes ≤ machine.top
  top : after.top = machine.top - instruction.takes + instruction.gives
  locals : ∀ slot < machine.frame.floor, ¬ machine.Stores instruction slot →
    after.stack[slot]? = machine.stack[slot]?
  temporaries : ∀ slot, machine.frame.floor ≤ slot → slot < machine.top - instruction.takes →
    after.stack[slot]? = machine.stack[slot]?

/-- What one instruction may do to the frames and to the slots below them. -/
inductive Moves (machine : Machine) (instruction : Instruction) (after : Machine) : Prop where
  /-- The running frame goes on, and a function that is called is a builtin. -/
  | goes (goes : machine.Goes instruction after) (callee : instruction.op = .call → ∃ builtin,
      machine.stack[machine.top - (instruction.first + 1)]? = some (.builtin builtin))
  /-- A function is entered: its arguments are the topmost values, and its other locals are null. -/
  | enters (call : instruction.op = .call) {fn : Function} {free : List Value}
    (callee : machine.stack[machine.top - (instruction.first + 1)]? = some (.closure fn free))
    (frame : after.frame = { fn, free, base := machine.top - instruction.first })
    (callers : after.callers =
      { machine.frame with next := machine.frame.next + 2 } :: machine.callers)
    (arguments : instruction.first = fn.parameters) (top : after.top = after.frame.floor)
    (above : machine.frame.floor < after.frame.base)
    (kept : ∀ slot < machine.top, after.stack[slot]? = machine.stack[slot]?)
    (fresh : ∀ slot, machine.top ≤ slot → slot < after.frame.floor →
      after.stack[slot]? = some .null)
  /-- The running function is left with a value, which takes the place of the closure. -/
  | leaves {caller : Frame} {callers : List Frame} {value : Value}
    (around : machine.callers = caller :: callers)
    (frame : after.frame = caller) (callers : after.callers = callers)
    (top : after.top = machine.frame.base) (above : caller.floor < machine.frame.base)
    (kept : ∀ slot < machine.frame.base - 1, after.stack[slot]? = machine.stack[slot]?)
    (result : after.stack[machine.frame.base - 1]? = some value)
    (returned : (instruction.op = .returnValue ∧ machine.topValue? = some value) ∨
      (instruction.op = .returnNull ∧ value = .null))

/-! ## In the middle of an instruction -/

/-- An instruction has been read and has left some values above the slots that it keeps. -/
structure Midway (start : Machine) (instruction : Instruction) (low temps : Nat)
    (machine : Machine) : Prop where
  stack : ∀ value ∈ machine.stack, value.Only FunctionOver.Balanced
  globals : machine.BalancedGlobals
  size : machine.stack.size = start.stack.size
  room : machine.Room
  constants : machine.constants = start.constants
  frame : machine.frame = start.frame
  callers : machine.callers = start.callers
  top : machine.top = low + temps
  kept : ∀ slot < low, ¬ start.Stores instruction slot →
    machine.stack[slot]? = start.stack[slot]?

namespace Midway

variable {start machine : Machine} {instruction : Instruction} {low temps : Nat} {value : Value}

theorem slot (h : Midway start instruction low temps machine) (slot : Nat) :
    (machine.stack[slot]?.getD .null).Only FunctionOver.Balanced :=
  .null_getD fun _ he => h.stack _ (Array.mem_of_getElem? he)

/-- What lies midway shows in these parts of a machine alone. -/
theorem congr {after : Machine} (h : Midway start instruction low temps machine)
    (hs : after.stack = machine.stack) (ht : after.top = machine.top)
    (hg : after.globals = machine.globals) (hc : after.constants = machine.constants)
    (hf : after.frame = machine.frame) (ha : after.callers = machine.callers) :
    Midway start instruction low temps after where
  stack := by
    rw [hs]
    exact h.stack
  globals := by
    rw [BalancedGlobals, hg]
    exact h.globals
  size := by rw [hs, h.size]
  room := by
    rw [Room, hs, ht]
    exact h.room
  constants := hc.trans h.constants
  frame := hf.trans h.frame
  callers := ha.trans h.callers
  top := ht.trans h.top
  kept := by
    rw [hs]
    exact h.kept

theorem extract (h : Midway start instruction low temps machine) (first last : Nat) :
    ∀ value ∈ (machine.stack.extract first last).toList, value.Only FunctionOver.Balanced := by
  intro value hm
  rw [Array.toList_extract, List.extract_eq_take_drop] at hm
  exact h.stack value (Array.mem_toList_iff.mp (List.mem_of_mem_drop (List.mem_of_mem_take hm)))

theorem pushed (h : Midway start instruction low temps machine)
    (hv : value.Only FunctionOver.Balanced) (hlt : machine.top < machine.stack.size) :
    Midway start instruction low (temps + 1) (machine.pushed value) where
  stack other hm := by
    rcases Array.mem_or_eq_of_mem_setIfInBounds hm with hm | rfl
    · exact h.stack other hm
    · exact hv
  globals := h.globals
  size := Array.size_setIfInBounds.trans h.size
  room := by
    unfold Room
    rw [Machine.pushed, Array.size_setIfInBounds]
    exact hlt
  constants := h.constants
  frame := h.frame
  callers := h.callers
  top := congrArg (· + 1) h.top
  kept slot hs hstores := by
    have hne : machine.top ≠ slot := by
      rw [h.top]
      omega
    rw [Machine.pushed, Array.getElem?_setIfInBounds_ne hne]
    exact h.kept slot hs hstores

/-- Values may be taken off the stack. -/
theorem drop {count : Nat} (h : Midway start instruction low (temps + count) machine) :
    Midway start instruction low temps { machine with top := machine.top - count } where
  stack := h.stack
  globals := h.globals
  size := h.size
  room := Nat.le_trans (Nat.sub_le _ _) h.room
  constants := h.constants
  frame := h.frame
  callers := h.callers
  top := by
    rw [h.top, ← Nat.add_assoc, Nat.add_sub_cancel]
  kept := h.kept

theorem goto (h : Midway start instruction low temps machine) (target : Nat) :
    Midway (start.goto target) instruction low temps (machine.goto target) where
  stack := h.stack
  globals := h.globals
  size := h.size
  room := h.room
  constants := h.constants
  frame := congrArg (fun frame => { frame with next := target }) h.frame
  callers := h.callers
  top := h.top
  kept := h.kept

/-- The slot that the instruction stores may change. -/
theorem store {slot : Nat} (h : Midway start instruction low temps machine)
    (hv : value.Only FunctionOver.Balanced) (hs : start.Stores instruction slot) :
    Midway start instruction low temps
      { machine with stack := machine.stack.setIfInBounds slot value } where
  stack other hm := by
    rcases Array.mem_or_eq_of_mem_setIfInBounds hm with hm | rfl
    · exact h.stack other hm
    · exact hv
  globals := h.globals
  size := Array.size_setIfInBounds.trans h.size
  room := by
    unfold Room
    rw [Array.size_setIfInBounds]
    exact h.room
  constants := h.constants
  frame := h.frame
  callers := h.callers
  top := h.top
  kept other hlt hstores := by
    have hne : slot ≠ other := by
      rintro rfl
      exact hstores hs
    rw [Array.getElem?_setIfInBounds_ne hne]
    exact h.kept other hlt hstores

/-! ## Actions -/

theorem yields_push (h : Midway start instruction low temps machine)
    (hv : value.Only FunctionOver.Balanced) :
    (Act.push value).Yields machine (fun _ => Midway start instruction low (temps + 1))
      fun _ => BalancedGlobals := by
  rw [Act.Yields, Act.push_apply]
  by_cases hlt : machine.top < machine.stack.size
  · rw [if_pos hlt]
    exact h.pushed hv hlt
  · rw [if_neg hlt]
    exact h.globals

theorem yields_pop (h : Midway start instruction low (temps + 1) machine) :
    Act.pop.Yields machine
      (fun value after => value.Only FunctionOver.Balanced ∧
        Midway start instruction low temps after) fun _ => BalancedGlobals := by
  rw [Act.Yields, Act.pop_apply, if_neg (by rw [h.top]; omega)]
  exact ⟨h.slot _, h.drop⟩

theorem yields_popMany {count : Nat} (h : Midway start instruction low count machine) :
    (Act.popMany count).Yields machine
      (fun values after => (∀ value ∈ values, value.Only FunctionOver.Balanced) ∧
        Midway start instruction low 0 after) fun _ => BalancedGlobals := by
  rw [← Nat.zero_add count] at h
  rw [Act.Yields, Act.popMany_apply, if_neg (by rw [h.top]; omega)]
  exact ⟨h.extract _ _, h.drop⟩

theorem yields_localSlot (h : Midway start instruction low temps machine) (index : Nat) :
    (Act.localSlot index).Yields machine
      (fun slot after => slot = start.frame.base + index ∧ after = machine)
      fun _ => BalancedGlobals := by
  rw [Act.Yields, Act.localSlot_apply, h.frame]
  by_cases hlt : start.frame.base + index < machine.top
  · rw [if_pos hlt]
    exact ⟨rfl, rfl⟩
  · rw [if_neg hlt]
    exact h.globals

theorem yields_pushResult (h : Midway start instruction low temps machine)
    {result : Except RuntimeError Value}
    (hr : ∀ value, result = .ok value → value.Only FunctionOver.Balanced) :
    (Act.pushResult result).Yields machine (fun _ => Midway start instruction low (temps + 1))
      fun _ => BalancedGlobals := by
  cases result with
  | error error => exact h.globals
  | ok value => exact h.yields_push (hr value rfl)

theorem yields_binary (h : Midway start instruction low 2 machine)
    {operation : Value → Value → Except RuntimeError Value}
    (hr : ∀ left right value, left.Only FunctionOver.Balanced →
      operation left right = .ok value → value.Only FunctionOver.Balanced) :
    (Act.binary operation).Yields machine (fun _ => Midway start instruction low 1)
      fun _ => BalancedGlobals := by
  refine .bind (h.yields_pop.mono fun right after h => .bind (h.2.yields_pop.mono ?_))
  intro left after h
  exact h.2.yields_pushResult fun value => hr left right value h.1

end Midway

/-! ## Before an instruction -/

/-- An orderly machine is about to execute an instruction, with so many values above the locals of
the running frame. -/
structure Poised (machine : Machine) (instruction : Instruction) (height : Nat) : Prop where
  orderly : machine.Orderly
  decode : Instruction.decode machine.frame.fn.code machine.frame.next = .ok instruction
  top : machine.top = machine.frame.floor + height
  enough : instruction.takes ≤ height
  admitted : instruction.Admitted (!machine.callers.isEmpty) machine.frame.fn.slots
  forward : ∀ next ∈ instruction.successors machine.frame.next, machine.frame.next < next
  rest : ∀ next ∈ instruction.successors machine.frame.next,
    machine.frame.fn.code.Balanced (!machine.callers.isEmpty) machine.frame.fn.slots next
      (height - instruction.takes + instruction.gives)

/-- An orderly machine is about to execute an instruction, or at the end of its program. -/
theorem Orderly.poised_or_ended {machine : Machine} (h : machine.Orderly) :
    (∃ instruction height, machine.Poised instruction height) ∨
      (machine.callers = [] ∧ machine.frame.fn.code[machine.frame.next]? = none) := by
  obtain ⟨height, htop, hbalanced⟩ := h.frames.stands.height
  generalize hnext : machine.frame.next = next at hbalanced
  cases hbalanced with
  | stop hstop =>
      obtain ⟨houtside, rfl⟩ := hstop
      exact .inr ⟨by simpa using houtside, Array.getElem?_eq_none (Nat.le_refl _)⟩
  | @next _ _ instruction read enough forward rest =>
      subst hnext
      exact .inl ⟨instruction, height, h, read.1, htop, enough, read.2, forward, rest⟩

namespace Poised

variable {machine after : Machine} {instruction : Instruction} {height : Nat}

/-- The values that the instruction takes lie above those that it keeps. -/
theorem midway (h : machine.Poised instruction height) (target : Nat) :
    Midway (machine.goto target) instruction
      (machine.frame.floor + (height - instruction.takes)) instruction.takes
      (machine.goto target) where
  stack := h.orderly.stack
  globals := h.orderly.globals
  size := rfl
  room := h.orderly.room
  constants := rfl
  frame := rfl
  callers := rfl
  top := by
    have henough := h.enough
    show machine.top = _
    rw [h.top]
    omega
  kept _ _ _ := rfl

/-- What the instruction has left is what the code needs that may follow it. -/
theorem goes (h : machine.Poised instruction height) {target : Nat}
    (ht : target ∈ instruction.successors machine.frame.next)
    (hc : instruction.op = .call → ∃ builtin,
      machine.stack[machine.top - (instruction.first + 1)]? = some (.builtin builtin))
    (hm : Midway (machine.goto target) instruction
      (machine.frame.floor + (height - instruction.takes)) instruction.gives after) :
    after.Orderly ∧ machine.Moves instruction after := by
  have hframe : after.frame = { machine.frame with next := target } := hm.frame
  have hcallers : after.callers = machine.callers := hm.callers
  have hstands := h.orderly.frames.stands
  constructor
  · refine ⟨hm.room, hm.stack, ?_, hm.globals, ?_⟩
    · rw [hm.constants]
      exact h.orderly.constants
    · rw [hframe, hcallers]
      refine h.orderly.frames.of_stands ⟨⟨_, ?_, h.rest target ht⟩, hstands.fn, hstands.free⟩ rfl
      rw [hm.top, Nat.add_assoc]
      rfl
  · have htop := h.top
    have henough := h.enough
    refine .goes ⟨by rw [hframe], hcallers, by rwa [hframe], ?_, by omega, ?_, ?_, ?_⟩ hc
    · rw [hframe]
      exact h.forward target ht
    · rw [hm.top]
      omega
    · exact fun slot hs hstores => hm.kept slot (by omega) hstores
    · intro slot hfloor hs
      refine hm.kept slot (by omega) ?_
      rintro ⟨hop, rfl⟩
      exact Nat.not_le_of_lt (Nat.add_lt_add_left (h.admitted.stored hop) _) hfloor

/-- A frame that is opened stands above the one that has called. -/
theorem entered {operands : List Nat} (h : machine.Poised ⟨.call, operands⟩ height) {fn : Function}
    {free : List Value} {count : Nat} (hcount : first ⟨.call, operands⟩ = count)
    (hcallee : machine.stack[machine.top - (count + 1)]? = some (.closure fn free))
    (hp : count = fn.parameters)
    (hroom : machine.top - count + max fn.locals count ≤ machine.stack.size) :
    ((machine.goto (machine.frame.next + 2)).entered fn free count).Orderly ∧
      machine.Moves ⟨.call, operands⟩
        ((machine.goto (machine.frame.next + 2)).entered fn free count) := by
  have htop := h.top
  have henough : count + 1 ≤ height := hcount ▸ h.enough
  have hclosure := h.orderly.stack _ (Array.mem_of_getElem? hcallee)
  have hstands := h.orderly.frames.stands
  have hfloor : machine.frame.floor < machine.top - count := by omega
  have hbase : machine.top - count + max fn.locals count =
      machine.top - count + max fn.locals fn.parameters := by rw [hp]
  have hslots : ∀ slot : Nat,
      ((machine.goto (machine.frame.next + 2)).entered fn free count).stack[slot]? =
        if machine.top ≤ slot ∧ slot < machine.top - count + max fn.locals count then some .null
        else machine.stack[slot]? := Act.getElem?_clearSlots hroom
  cases hclosure with
  | closure hfn hfree =>
      constructor
      · refine ⟨?_, ?_, h.orderly.constants, h.orderly.globals, ?_, hfloor, ?_⟩
        · unfold Room
          rw [Machine.entered, Act.size_clearSlots]
          exact hroom
        · intro value hm
          obtain ⟨slot, hslot⟩ := Array.mem_iff_getElem?.mp hm
          rw [hslots] at hslot
          split at hslot
          · cases hslot
            exact .null
          · exact h.orderly.stack value (Array.mem_of_getElem? hslot)
        · exact ⟨⟨0, hbase, hfn⟩, fun _ => hfn, hfree⟩
        · refine h.orderly.frames.of_stands ⟨⟨height - (count + 1) + 1, ?_, ?_⟩, hstands.fn,
            hstands.free⟩ rfl
          · show machine.top - count = machine.frame.floor + _
            omega
          · rw [← hcount]
            exact h.rest _ List.mem_cons_self
      · refine .enters rfl (hcount ▸ hcallee) (by rw [hcount]; rfl) rfl (hcount.trans hp) hbase
          hfloor ?_ ?_
        · intro slot hslot
          rw [hslots, if_neg]
          exact fun hclear => Nat.not_le_of_lt hslot hclear.1
        · intro slot hslot hlt
          rw [hslots, if_pos]
          exact ⟨hslot, hbase ▸ hlt⟩

theorem enter {operands : List Nat} (h : machine.Poised ⟨.call, operands⟩ height) {fn : Function}
    {free : List Value}
    (hcallee : machine.stack[machine.top - (first ⟨.call, operands⟩ + 1)]? =
      some (.closure fn free)) :
    (Act.enter fn free (first ⟨.call, operands⟩)).Yields (machine.goto (machine.frame.next + 2))
      (fun _ after => after.Orderly ∧ machine.Moves ⟨.call, operands⟩ after)
      fun _ => BalancedGlobals := by
  unfold Act.enter
  split
  case isTrue => exact h.orderly.globals
  case isFalse hp =>
      refine .bind (Act.yields_get ?_)
      split
      case isTrue => exact h.orderly.globals
      case isFalse =>
          dsimp only
          split
          case isTrue => exact h.orderly.globals
          case isFalse hroom =>
              exact h.entered rfl hcallee (not_not.mp hp) (Nat.le_of_not_lt hroom)

/-- A builtin takes its arguments and itself off the stack, and puts its value there. -/
theorem callBuiltin {operands : List Nat} (h : machine.Poised ⟨.call, operands⟩ height)
    {builtin : Builtin} (hcallee : machine.stack[machine.top - (first ⟨.call, operands⟩ + 1)]? =
      some (.builtin builtin)) :
    (Act.callBuiltin builtin (first ⟨.call, operands⟩)).Yields
      (machine.goto (machine.frame.next + 2))
      (fun _ after => after.Orderly ∧ machine.Moves ⟨.call, operands⟩ after)
      fun _ => BalancedGlobals := by
  have hm : Midway (machine.goto (machine.frame.next + 2)) ⟨.call, operands⟩
      (machine.frame.floor + (height - (first ⟨.call, operands⟩ + 1)))
      (0 + (first ⟨.call, operands⟩ + 1)) (machine.goto (machine.frame.next + 2)) := by
    rw [Nat.zero_add]
    exact h.midway _
  refine .bind (Act.yields_get ?_)
  dsimp only
  cases hvalue : builtin.apply ((machine.goto (machine.frame.next + 2)).stack.extract
      ((machine.goto (machine.frame.next + 2)).top - first ⟨.call, operands⟩)
      (machine.goto (machine.frame.next + 2)).top).toList with
  | error misuse => exact hm.globals
  | ok value =>
      have hdropped := hm.drop
      have hresult := ValueOver.Only.builtin_apply (hm.extract _ _) hvalue
      refine .bind (Act.yields_set ?_)
      refine Act.Yields.mono (Midway.yields_push (hdropped.congr ?_ ?_ ?_ ?_ ?_ ?_) hresult)
        fun _ after hm => h.goes List.mem_cons_self (fun _ => ⟨builtin, hcallee⟩) hm
      all_goals rfl

/-- A call enters a function, or goes on behind itself if it is one of a builtin. -/
theorem call {operands : List Nat} (h : machine.Poised ⟨.call, operands⟩ height) :
    (Act.call (first ⟨.call, operands⟩)).Yields (machine.goto (machine.frame.next + 2))
      (fun _ after => after.Orderly ∧ machine.Moves ⟨.call, operands⟩ after)
      fun _ => BalancedGlobals := by
  have htop := h.top
  have henough : first ⟨.call, operands⟩ + 1 ≤ height := h.enough
  have hn : ¬ (machine.goto (machine.frame.next + 2)).top < first ⟨.call, operands⟩ + 1 := by
    show ¬ machine.top < _
    omega
  refine .bind (Act.yields_get ?_)
  dsimp only
  rw [if_neg hn]
  cases hcallee : (machine.goto (machine.frame.next + 2)).stack[
      (machine.goto (machine.frame.next + 2)).top - (first ⟨.call, operands⟩ + 1)]?.getD .null with
  | closure fn free => exact h.enter ((Option.getD_eq_iff.mp hcallee).resolve_right nofun)
  | builtin builtin =>
      exact h.callBuiltin ((Option.getD_eq_iff.mp hcallee).resolve_right nofun)
  | _ => exact h.orderly.globals

/-- A frame that is left gives its value to the one that has called. -/
theorem leave {value : Value} (h : machine.Poised instruction height)
    (hs : after.stack = machine.stack) (hg : after.globals = machine.globals)
    (hc : after.constants = machine.constants) (hb : after.frame.base = machine.frame.base)
    (ha : after.callers = machine.callers) (hv : value.Only FunctionOver.Balanced)
    (hr : (instruction.op = .returnValue ∧ machine.topValue? = some value) ∨
      (instruction.op = .returnNull ∧ value = .null)) :
    (Act.leave value).Yields after
      (fun _ after => after.Orderly ∧ machine.Moves instruction after)
      fun _ => BalancedGlobals := by
  have hglobals : after.BalancedGlobals := by
    rw [BalancedGlobals, hg]
    exact h.orderly.globals
  refine .bind (Act.yields_get ?_)
  rw [ha]
  cases hcallers : machine.callers with
  | nil => exact hglobals
  | cons caller callers =>
      have hframes := h.orderly.frames
      rw [hcallers] at hframes
      obtain ⟨-, hfloor, hnested⟩ := hframes
      have hbase : machine.frame.base - 1 + 1 = machine.frame.base := by omega
      refine .bind (Act.yields_set ?_)
      rw [Act.Yields, Act.push_apply, hb, hs]
      by_cases hlt : machine.frame.base - 1 < machine.stack.size
      · rw [if_pos hlt]
        refine ⟨⟨?_, ?_, ?_, hglobals, ?_⟩, .leaves hcallers rfl rfl ?_ hfloor ?_ ?_ hr⟩
        · unfold Room
          rw [Machine.pushed, Array.size_setIfInBounds]
          exact hlt
        · intro other hm
          rcases Array.mem_or_eq_of_mem_setIfInBounds hm with hm | rfl
          · exact h.orderly.stack other hm
          · exact hv
        · rw [Machine.pushed, hc]
          exact h.orderly.constants
        · rw [Machine.pushed, hbase]
          exact hnested
        · exact hbase
        · intro slot hslot
          exact Array.getElem?_setIfInBounds_ne (Nat.ne_of_gt hslot)
        · exact Array.getElem?_setIfInBounds_self_of_lt hlt
      · rw [if_neg hlt]
        exact hglobals

/-- An instruction that is executed goes on in the same frame, enters a function or leaves one. -/
theorem execute (h : machine.Poised instruction height) :
    (Act.execute instruction).Yields (machine.goto (machine.frame.next + instruction.size))
      (fun _ after => after.Orderly ∧ machine.Moves instruction after)
      fun _ => BalancedGlobals := by
  have hm := h.midway (machine.frame.next + instruction.size)
  have hstands := h.orderly.frames.stands
  -- All instructions but jumps, calls and returns go on behind themselves.
  have hgoes : instruction.successors machine.frame.next =
      [machine.frame.next + instruction.size] → instruction.op ≠ .call → ∀ after,
      Midway (machine.goto (machine.frame.next + instruction.size)) instruction
        (machine.frame.floor + (height - instruction.takes)) instruction.gives after →
      after.Orderly ∧ machine.Moves instruction after := by
    intro hn hop after hm
    exact h.goes (by rw [hn]; exact List.mem_singleton_self _) (fun hcall => absurd hcall hop) hm
  obtain ⟨op, operands⟩ := instruction
  cases op
  case pushTrue => exact (hm.yields_push (.boolean true)).mono fun _ => hgoes rfl nofun
  case pushFalse => exact (hm.yields_push (.boolean false)).mono fun _ => hgoes rfl nofun
  case pushNull => exact (hm.yields_push .null).mono fun _ => hgoes rfl nofun
  case add | subtract | multiply | divide =>
      exact (hm.yields_binary fun _ _ _ _ => .arithmetic).mono fun _ => hgoes rfl nofun
  case equal | notEqual | greater =>
      exact (hm.yields_binary fun _ _ _ _ => .comparison).mono fun _ => hgoes rfl nofun
  case index => exact (hm.yields_binary fun _ _ _ => .element).mono fun _ => hgoes rfl nofun
  case not => exact .bind (hm.yields_pop.mono fun value after hm =>
      (hm.2.yields_push (.boolean _)).mono fun _ => hgoes rfl nofun)
  case negate => exact .bind (hm.yields_pop.mono fun value after hm =>
      (hm.2.yields_pushResult fun _ => .negate).mono fun _ => hgoes rfl nofun)
  case constant =>
      refine .bind (Act.yields_get (Act.yields_operandValue ?_ fun _ => hm.globals))
      intro value hv
      have hvalue := h.orderly.constants value (Array.mem_of_getElem? hv)
      exact (hm.yields_push hvalue).mono fun _ => hgoes rfl nofun
  case getGlobal =>
      refine .bind (Act.yields_get (Act.yields_operandValue ?_ fun _ => hm.globals))
      intro value hv
      have hvalue := hm.globals value (Array.mem_of_getElem? hv)
      exact (hm.yields_push hvalue).mono fun _ => hgoes rfl nofun
  case getBuiltin =>
      refine Act.yields_operandValue (fun value hv => ?_) fun _ => hm.globals
      exact (hm.yields_push (.builtin value)).mono fun _ => hgoes rfl nofun
  case getFree =>
      refine .bind (Act.yields_get (Act.yields_operandValue ?_ fun _ => hm.globals))
      intro value hv
      have hvalue := hstands.free value (List.mem_of_getElem? hv)
      exact (hm.yields_push hvalue).mono fun _ => hgoes rfl nofun
  case currentClosure =>
      have hinside : (!machine.callers.isEmpty) = true := h.admitted.self rfl
      refine .bind (Act.yields_get ?_)
      exact (hm.yields_push (.closure (hstands.fn hinside) hstands.free)).mono fun _ => hgoes rfl nofun
  case pop =>
      refine .bind (hm.yields_pop.mono fun value after hm => Act.yields_modify (hgoes rfl nofun _ ?_))
      split
      · exact hm.2.congr rfl rfl rfl rfl rfl rfl
      · exact hm.2
  case jump => exact Act.yields_modify (h.goes List.mem_cons_self nofun (hm.goto _))
  case jumpUnless =>
      refine .bind (hm.yields_pop.mono fun value after hm => ?_)
      split
      · exact Act.yields_modify
          (h.goes (List.mem_cons_of_mem _ (List.mem_singleton_self _)) nofun (hm.2.goto _))
      · exact Act.yields_pure (h.goes List.mem_cons_self nofun hm.2)
  case setGlobal =>
      refine .bind (hm.yields_pop.mono fun value after hm => .bind (Act.yields_get ?_))
      split
      · refine Act.yields_set (hgoes rfl nofun _ ?_)
        refine ⟨hm.2.stack, fun other hother => ?_, hm.2.size, hm.2.room, hm.2.constants, hm.2.frame,
          hm.2.callers, hm.2.top, hm.2.kept⟩
        rcases Array.mem_or_eq_of_mem_setIfInBounds hother with hother | rfl
        · exact hm.2.globals other hother
        · exact hm.1
      · exact Act.yields_throw hm.2.globals
  case array =>
      refine .bind (hm.yields_popMany.mono fun values after hm => ?_)
      exact (hm.2.yields_push (.array hm.1)).mono fun _ => hgoes rfl nofun
  case hash =>
      refine .bind (hm.yields_popMany.mono fun values after hm => ?_)
      exact (hm.2.yields_pushResult fun _ => .hashOf hm.1).mono fun _ => hgoes rfl nofun
  case getLocal =>
      refine .bind ((hm.yields_localSlot _).mono ?_)
      rintro slot _ ⟨-, rfl⟩
      exact .bind (Act.yields_get ((hm.yields_push (hm.slot slot)).mono fun _ => hgoes rfl nofun))
  case setLocal =>
      refine .bind (hm.yields_pop.mono fun value after hm => ?_)
      refine .bind ((hm.2.yields_localSlot _).mono ?_)
      rintro slot _ ⟨rfl, rfl⟩
      exact Act.yields_modify (hgoes rfl nofun _ (hm.2.store hm.1 ⟨rfl, rfl⟩))
  case closure =>
      refine .bind (Act.yields_get ?_)
      split
      · exact hm.globals
      case h_2 fn hfn =>
          have hvalue := h.orderly.constants _ (Array.mem_of_getElem? hfn)
          refine .bind (hm.yields_popMany.mono fun free after hm => ?_)
          refine (hm.2.yields_push (.closure ?_ hm.1)).mono fun _ => hgoes rfl nofun
          cases hvalue with
          | function hfn => exact hfn
      · exact hm.globals
  case call => exact h.call
  case returnValue =>
      have henough : 1 ≤ height := h.enough
      have htop := h.top
      have hroom : machine.top ≤ machine.stack.size := h.orderly.room
      have hvalue : machine.topValue? = some (machine.stack[machine.top - 1]?.getD .null) := by
        rw [topValue?, if_neg (by omega), Array.getElem?_eq_getElem (by omega)]
        rfl
      refine .bind ?_
      rw [Act.Yields, Act.pop_apply, if_neg (by show ¬ machine.top = 0; omega)]
      exact h.leave rfl rfl rfl rfl rfl (hm.slot _) (.inl ⟨rfl, hvalue⟩)
  case returnNull => exact h.leave rfl rfl rfl rfl rfl .null (.inr ⟨rfl, rfl⟩)

end Poised

/-- A step of an orderly machine leaves it orderly. Either the program has come to its end, or one
instruction has done what it may do. -/
theorem Orderly.step {machine : Machine} (h : machine.Orderly) :
    Act.step.Yields machine
      (fun more after => after.Orderly ∧ (more = false ∧ after = machine ∨
        more = true ∧ ∃ instruction,
          Instruction.decode machine.frame.fn.code machine.frame.next = .ok instruction ∧
          machine.Moves instruction after))
      fun _ => BalancedGlobals := by
  obtain ⟨instruction, height, hp⟩ | ⟨hcallers, hend⟩ := h.poised_or_ended
  · rw [Act.Yields, Act.step_of_decode hp.decode]
    exact Act.Yields.bind (hp.execute.mono fun _ after hafter => Act.yields_pure
      ⟨hafter.1, .inr ⟨rfl, instruction, hp.decode, hafter.2⟩⟩)
  · rw [Act.Yields, Act.step_of_end hend, hcallers]
    exact ⟨h, .inl ⟨rfl, rfl⟩⟩

/-- One instruction of an orderly machine does what it may do. -/
theorem Orderly.moves {machine after : Machine} (h : machine.Orderly)
    (hs : Act.step machine = .ok true after) :
    after.Orderly ∧ ∃ instruction,
      Instruction.decode machine.frame.fn.code machine.frame.next = .ok instruction ∧
      machine.Moves instruction after := by
  have hyields := h.step
  rw [Act.Yields, hs] at hyields
  obtain ⟨hafter, ⟨hmore, -⟩ | ⟨-, hmoves⟩⟩ := hyields
  · cases hmore
  · exact ⟨hafter, hmoves⟩

/-- A run leaves an orderly machine orderly, unless it fails. -/
theorem Orderly.run {machine : Machine} (h : machine.Orderly) (steps : Nat) :
    (machine.run steps).machine.BalancedGlobals ∧
      ∀ after, machine.run steps = .unfinished after → after.Orderly := by
  induction steps generalizing machine with
  | zero =>
      refine ⟨h.globals, ?_⟩
      rintro _ ⟨⟩
      exact h
  | succ steps ih =>
      have hyields := h.step
      rw [Act.Yields] at hyields
      rw [Machine.run]
      cases hs : Act.step machine with
      | error error after =>
          rw [hs] at hyields
          exact ⟨hyields, by rintro _ ⟨⟩⟩
      | ok more after =>
          rw [hs] at hyields
          cases more with
          | true => exact ih hyields.1
          | false => exact ⟨hyields.1.globals, by rintro _ ⟨⟩⟩

end Machine

end StackScript
