import StackScript.Proofs.Assembly.Generation
import StackScript.Proofs.Core.Balance
import StackScript.Proofs.Machine.Bounds
import StackScript.Proofs.Machine.Walk

/-!
# Evaluating compiled expressions

The code of an expression, wherever it stands in what a machine runs, leaves one value more on the
stack and keeps those that its function has put there before. A frame that has come behind the code of
several expressions has evaluated them one after the other.

## Implementation notes

Where the code of an expression stands is said by two assemblies: what was emitted between them is
the code, and the constants that were added between them are those that it refers to.
-/

namespace StackScript

open Instruction

namespace Machine

variable {start machine middle ended : Machine} {before between after : Assembly}

/-! ## Code between two assemblies -/

/-- The running function has the code that was emitted between two assemblies, and the machine has the
constants that were added between them. -/
structure Carries (machine : Machine) (before after : Assembly) : Prop where
  code : ∀ offset, before.position ≤ offset → offset < after.position →
    machine.frame.fn.code[offset]? = after.buffer.code[offset]?
  constants : ∀ index, before.constants.size ≤ index → index < after.constants.size →
    machine.constants[index]? = after.constants[index]?

namespace Carries

variable {front back fragment : Core.Fragment}

theorem congr (h : start.Carries before after)
    (hc : machine.frame.fn.code = start.frame.fn.code) (hk : machine.constants = start.constants) :
    machine.Carries before after where
  code := hc ▸ h.code
  constants := hk ▸ h.constants

theorem left (h : machine.Carries before after) (hb : between.Emits back after) : machine.Carries before between where
  code offset hle hlt := by
    rw [h.code offset hle (by rw [hb.position]; omega), hb.code, Array.getElem?_append_left hlt]
  constants index hle hlt := by
    rw [h.constants index hle (by rw [hb.pool]; omega), hb.constants, Array.getElem?_append_left hlt]

theorem right (h : machine.Carries before after) (hf : before.Emits front between) :
    machine.Carries between after where
  code offset hle hlt := h.code offset (by rw [hf.position] at hle; omega) hlt
  constants index hle hlt := h.constants index (by rw [hf.pool] at hle; omega) hlt

/-- The instructions of a fragment stand where they were emitted, and its constants where they were
added. -/
theorem instructions (h : machine.Carries before after) (he : before.Emits fragment after) :
    machine.frame.fn.code.Carries before.position fragment.code ∧
      Held machine.constants before.constants.size fragment.constants := by
  constructor
  · refine Code.Holds.carries he.encodable.code fun k byte hk => ?_
    have hlt : k < (Code.ofInstructions fragment.code).size := by
      simpa [Code.ofInstructions] using (List.getElem?_eq_some_iff.mp hk).1
    rw [h.code _ (Nat.le_add_right _ _), he.code, Assembly.position,
      Array.getElem?_append_right (Nat.le_add_right _ _), Nat.add_sub_cancel_left]
    · simpa [Code.ofInstructions] using hk
    · rw [Assembly.position, Assembly.position, he.code, Array.size_append]
      omega
  · intro k constant hk
    have hlt : k < fragment.constants.length := (List.getElem?_eq_some_iff.mp hk).1
    rw [h.constants _ (Nat.le_add_right _ _) (by rw [he.pool]; omega), he.constants,
      held_append before.constants fragment.constants k constant hk]

end Carries

/-! ## What walks keep -/

theorem Bounded.during {limits : Limits} {constants : Array Value} {slots : Nat}
    {property : Machine → Prop} (hb : start.Bounded limits constants slots)
    (h : start.During property machine) : machine.Bounded limits constants slots := by
  induction h with
  | enter => exact hb
  | step _ _ step _ ih =>
      have hyields := ih.safe_step.yields
      rw [Act.Yields, step] at hyields
      exact hyields.1

/-- The frame of a walk stays the same, and so do the frames below it and the constants. -/
theorem Walks.congr {limits : Limits} {constants : Array Value} {slots : Nat}
    (hb : start.Bounded limits constants slots) (h : start.Walks ended)
    (hc : start.Carries before after) : ended.Carries before after := by
  refine hc.congr ?_ ?_
  · rw [h.frame_eq]
  · rw [(hb.during h.during.2).sameConstants, hb.sameConstants]

/-! ## Evaluation -/

/-- The code between two assemblies has been run, in the frame of a machine. It has left some values
on the stack, and has kept those that lay above the locals of the frame. -/
structure Evaluates (start : Machine) (before after : Assembly) (values : List Value)
    (ended : Machine) : Prop where
  during : start.During (fun _ => True) ended
  starts : start.frame.next = before.position
  frame : ended.frame = { start.frame with next := after.position }
  callers : ended.callers = start.callers
  top : ended.top = start.top + values.length
  values : ∀ k value, values[k]? = some value → ended.stack[start.top + k]? = some value
  kept : ∀ slot, start.frame.floor ≤ slot → slot < start.top →
    ended.stack[slot]? = start.stack[slot]?

/-- Expressions that are compiled one after the other have been evaluated one after the other. -/
inductive EvaluatesAll : Machine → Assembly → List (Expr × Value) → Assembly → Machine → Prop
  | nil {machine : Machine} {assembly : Assembly} (h : machine.frame.next = assembly.position) :
    EvaluatesAll machine assembly [] assembly machine
  | cons {start reached ended : Machine} {before between after : Assembly} {expr : Expr}
    {value : Value} {parts : List (Expr × Value)} (compile : expr.compile before = .ok between)
    (first : start.Evaluates before between [value] reached)
    (rest : EvaluatesAll reached between parts after ended) :
    EvaluatesAll start before ((expr, value) :: parts) after ended

theorem Orderly.floor_le_top (ho : machine.Orderly) : machine.frame.floor ≤ machine.top := by
  obtain ⟨height, htop, -⟩ := ho.frames.stands.height
  omega

/-- The instructions of a fragment lie below the offset behind them. -/
theorem lt_of_append {first : Nat} {instructions : List Instruction} {instruction : Instruction}
    {before after : List Instruction} (h : instructions = before ++ instruction :: after) :
    first + sizes before < first + sizes instructions := by
  have hpos := instruction.size_pos
  rw [h, sizes_append, sizes_cons]
  omega

/-- A frame that has come behind the code of an expression has evaluated it. -/
theorem Walks.evaluates {expr : Expr} (ho : start.Orderly)
    (h : expr.compile before = .ok after) (hc : start.Carries before after)
    (hn : start.frame.next = before.position) (hw : start.Walks ended)
    (hstop : after.position ≤ ended.frame.next) :
    ∃ middle value, start.Evaluates before after [value] middle ∧ start.Walks middle ∧
      middle.Walks ended := by
  obtain ⟨core, -, hgenerates⟩ := compositional_compiles.expression expr before after h
  have hposition := Assembly.Emits.position hgenerates
  have hleads := Core.compositional_shifts.expression core _
    (fun next height => next = after.position ∧ height = 1) before.position
    before.constants.size 0
    (along_of_carries (fun next _ => next < after.position) (hc.instructions hgenerates).1
      fun front instruction back heq => hposition ▸ lt_of_append heq)
    (.stop ⟨hposition.symm, rfl⟩)
  obtain ⟨middle, hfirst, hrest, hnext, htop, hkept⟩ :=
    hw.passes hleads rfl hn (show start.top = start.top + (0 + 0) from rfl) ho.floor_le_top hstop
  have hduring := hfirst.during.2
  have hroom : middle.top ≤ middle.stack.size := (hduring.stacked ho).1.room
  have hslot : start.top < middle.stack.size := by omega
  refine ⟨middle, middle.stack[start.top], ⟨hduring, hn, ?_, hfirst.callers_eq, htop, ?_,
    hkept⟩, hfirst, hrest⟩
  · rw [hfirst.frame_eq, hnext]
  · rintro (_ | k) value hvalue
    · rw [← Option.some.inj hvalue]
      exact Array.getElem?_eq_getElem _
    · cases hvalue

namespace Evaluates

variable {values others : List Value}

theorem depth_eq (h : start.Evaluates before after values ended) : ended.depth = start.depth := by
  rw [depth, h.callers]
  rfl

theorem walks (ho : start.Orderly) (h : start.Evaluates before after values ended) :
    start.Walks ended :=
  h.during.walks ho h.depth_eq

theorem nil {assembly : Assembly} (h : machine.frame.next = assembly.position) :
    machine.Evaluates assembly assembly [] machine where
  during := .enter
  starts := h
  frame := by rw [← h]
  callers := rfl
  top := rfl
  values _ _ hk := nomatch hk
  kept _ _ _ := rfl

/-- Values are left one above the other. -/
theorem append (ho : start.Orderly) (hf : start.Evaluates before between values middle)
    (hs : middle.Evaluates between after others ended) :
    start.Evaluates before after (values ++ others) ended := by
  have hfloor : middle.frame.floor = start.frame.floor := by
    rw [hf.frame]
    rfl
  have hstart := ho.floor_le_top
  refine ⟨hf.during.trans hs.during (Nat.le_of_eq hf.depth_eq.symm), hf.starts, ?_,
    hs.callers.trans hf.callers, ?_, fun k value hk => ?_, fun slot hle hlt => ?_⟩
  · rw [hs.frame, hf.frame]
  · rw [hs.top, hf.top, List.length_append, Nat.add_assoc]
  · by_cases hlt : k < values.length
    · rw [List.getElem?_append_left hlt] at hk
      rw [hs.kept _ (by omega) (by rw [hf.top]; omega), hf.values k value hk]
    · rw [List.getElem?_append_right (Nat.le_of_not_lt hlt)] at hk
      have hvalue := hs.values _ value hk
      rwa [hf.top, Nat.add_assoc, Nat.add_sub_cancel' (Nat.le_of_not_lt hlt)] at hvalue
  · rw [hs.kept slot (by omega) (by rw [hf.top]; omega), hf.kept slot hle hlt]

end Evaluates

/-- A frame that has come behind the code of several expressions has evaluated them one after the
other. -/
theorem Walks.evaluatesAll {limits : Limits} {constants : Array Value} {slots : Nat}
    {exprs : List Expr} (ho : start.Orderly) (hb : start.Bounded limits constants slots)
    (h : Expr.compileAll exprs before = .ok after) (hc : start.Carries before after)
    (hn : start.frame.next = before.position) (hw : start.Walks ended)
    (hstop : after.position ≤ ended.frame.next) :
    ∃ parts middle, parts.map Prod.fst = exprs ∧ start.EvaluatesAll before parts after middle ∧
      middle.Walks ended := by
  induction exprs generalizing start before with
  | nil =>
      obtain rfl : before = after := Except.ok.inj h
      exact ⟨[], start, rfl, .nil hn, hw⟩
  | cons expr exprs ih =>
      obtain ⟨between, hexpr, hexprs⟩ := Except.bind_eq_ok_iff.mp h
      obtain ⟨core, -, hgenerates⟩ := compositional_compiles.expression expr before between hexpr
      obtain ⟨cores, -, -, hothers⟩ :=
        Expr.compileAll_generates (compositional_compiles.expressions exprs) hexprs
      have hle : between.position ≤ after.position := by
        rw [Assembly.Emits.position hothers]
        exact Nat.le_add_right _ _
      obtain ⟨reached, value, hevaluates, hfirst, hrest⟩ :=
        hw.evaluates ho hexpr (hc.left hothers) hn (Nat.le_trans hle hstop)
      obtain ⟨parts, middle, hparts, hall, hwalks⟩ := ih (hevaluates.during.stacked ho).1
        (hb.during hevaluates.during) hexprs ((hfirst.congr hb hc).right hgenerates)
        (by rw [hevaluates.frame]) hrest
      exact ⟨(expr, value) :: parts, middle, by rw [List.map_cons, hparts],
        .cons hexpr hevaluates hall, hwalks⟩

/-- Expressions that have been evaluated one after the other have left their values one above the
other. -/
theorem EvaluatesAll.evaluates {parts : List (Expr × Value)} (ho : start.Orderly)
    (h : start.EvaluatesAll before parts after ended) :
    start.Evaluates before after (parts.map Prod.snd) ended := by
  induction h with
  | nil h => exact .nil h
  | cons _ first _ ih => exact first.append ho (ih (first.during.stacked ho).1)

/-- A frame that has come behind an instruction that puts a value on the stack has done nothing
else. -/
theorem Walks.eq_pushed {instruction : Instruction} {value : Value} (hw : start.Walks ended)
    (hd : decode start.frame.fn.code start.frame.next = .ok instruction)
    (hop : instruction.op ≠ .call)
    (he : Act.execute instruction (start.goto (start.frame.next + instruction.size)) =
      Act.push value middle)
    (hn : middle.frame.next = start.frame.next + instruction.size)
    (hstop : ended.frame.next = start.frame.next + instruction.size) :
    middle.top < middle.stack.size ∧ ended = middle.pushed value := by
  have hpos := instruction.size_pos
  cases hw.cases_head with
  | inl heq =>
      subst heq
      omega
  | inr hstep =>
      obtain ⟨after, ⟨other, hstrides⟩, hrest⟩ := hstep
      obtain rfl : other = instruction := Except.ok.inj (hstrides.decode.symm.trans hd)
      have hstep := hstrides.step hop
      rw [Act.step_of_decode hd] at hstep
      rw [Act.push_apply] at he
      by_cases hroom : middle.top < middle.stack.size
      · rw [if_pos hroom] at he
        rw [EStateM.bind_of_ok he] at hstep
        obtain rfl : middle.pushed value = after := by
          cases hstep
          rfl
        exact ⟨hroom, Walks.eq_of_next_eq hrest (hstop.trans hn.symm)⟩
      · rw [if_neg hroom] at he
        rw [EStateM.bind_of_error he] at hstep
        cases hstep

/-- A single instruction that puts a value on the stack leaves this value. -/
theorem Evaluates.eq_of_execute {instruction : Instruction} {value other : Value}
    {constants : List Core.Constant} (ho : start.Orderly)
    (h : start.Evaluates before after [value] ended) (hc : start.Carries before after)
    (hg : before.Emits ⟨[instruction], constants⟩ after) (hop : instruction.op ≠ .call)
    (he : Act.execute instruction (start.goto (start.frame.next + instruction.size)) =
      Act.push other (start.goto (start.frame.next + instruction.size))) : value = other := by
  have hd := (hc.instructions hg).1.1
  have hstop := hg.position
  rw [← h.starts] at hd
  obtain ⟨hroom, hended⟩ := (h.walks ho).eq_pushed hd hop he rfl (by
    rw [h.frame, h.starts, hstop, sizes_cons, sizes_nil, Nat.add_zero])
  have hvalue := h.values 0 value rfl
  have hpushed : ended.stack[start.top]? = some other := by
    rw [hended]
    exact Array.getElem?_setIfInBounds_self_of_lt hroom
  exact Option.some.inj (hvalue.symm.trans hpushed)

end Machine

end StackScript
