import StackScript.Proofs.Machine.Frames
import StackScript.Proofs.Machine.Twin

/-!
# Activations

An activation lasts from the step that enters a function to the step that leaves it, with all calls
that are made in between. Throughout it the frames below its own are those that there were, and so are
the slots below its floor, but for the locals that its own instructions store. The step that leaves it
puts the value that it returns in the slot of the closure.
-/

namespace StackScript

namespace Machine

/-- The running frame is about to store a value in a slot. -/
def Writes (machine : Machine) (slot : Nat) : Prop :=
  ∃ instruction, Instruction.decode machine.frame.fn.code machine.frame.next = .ok instruction ∧
    machine.Stores instruction slot

/-- The running frame is about to return a value. -/
def Returns (machine : Machine) (value : Value) : Prop :=
  ∃ instruction, Instruction.decode machine.frame.fn.code machine.frame.next = .ok instruction ∧
    ((instruction.op = .returnValue ∧ machine.topValue? = some value) ∨
      (instruction.op = .returnNull ∧ value = .null))

/-- A machine is in the activation of a function that another machine has just entered, and has come
there by steps from machines with some property. -/
inductive During (property : Machine → Prop) (entered : Machine) : Machine → Prop where
  | enter : During property entered entered
  | step {machine after : Machine} (before : During property entered machine)
    (holds : property machine) (step : Act.step machine = .ok true after)
    (inside : entered.depth ≤ after.depth) : During property entered after

/-- The frames of a machine in an activation: those of calls that it has made, its own one, and those
below it. -/
structure Stacked (entered machine : Machine) (inner : List Frame) (own : Frame) : Prop where
  frames : machine.frames = inner ++ own :: entered.callers
  own : own = { entered.frame with next := own.next }
  above : ∀ frame ∈ inner, entered.frame.floor < frame.base

namespace Stacked

variable {entered machine after : Machine} {inner : List Frame} {own : Frame}

theorem depth (h : entered.Stacked machine inner own) :
    machine.depth = inner.length + entered.depth := by
  have hlength := congrArg List.length h.frames
  simp only [Machine.frames, List.length_cons, List.length_append] at hlength
  unfold Machine.depth
  omega

/-- The running frame of an activation that has made no call is its own. -/
theorem of_nil (h : entered.Stacked machine [] own) :
    machine.frame = own ∧ machine.callers = entered.callers := by
  simpa [Machine.frames] using h.frames

theorem floor_eq (h : entered.Stacked machine inner own) : own.floor = entered.frame.floor := by
  rw [h.own]
  rfl

theorem base_eq (h : entered.Stacked machine inner own) : own.base = entered.frame.base := by
  rw [h.own]

/-- A step of the own frame that does not leave it. -/
theorem moves_own {instruction : Instruction} (h : entered.Stacked machine [] own)
    (hm : machine.Moves instruction after) (hd : entered.depth ≤ after.depth) :
    (∃ inner own, entered.Stacked after inner own) ∧
      ∀ slot < entered.frame.floor, ¬ machine.Stores instruction slot →
        after.stack[slot]? = machine.stack[slot]? := by
  obtain ⟨hframe, hcallers⟩ := h.of_nil
  have hfloor : machine.frame.floor = entered.frame.floor := by rw [hframe, h.floor_eq]
  cases hm with
  | goes goes callee =>
      refine ⟨⟨[], after.frame, ?_, ?_, List.forall_mem_nil _⟩, ?_⟩
      · simp [Machine.frames, goes.callers, hcallers]
      · rw [goes.frame, hframe, h.own]
      · rw [← hfloor]
        exact goes.locals
  | enters call callee frame callers arguments top above kept fresh =>
      refine ⟨⟨[after.frame], { machine.frame with next := machine.frame.next + 2 }, ?_, ?_, ?_⟩, ?_⟩
      · simp [Machine.frames, callers, hcallers]
      · rw [hframe, h.own]
      · simpa [hfloor] using above
      · intro slot hslot _
        have hbase : after.frame.base ≤ machine.top := by
          rw [frame]
          exact Nat.sub_le _ _
        exact kept slot (by omega)
  | leaves around frame callers top above kept result returned =>
      rw [hcallers] at around
      simp only [Machine.depth, around, callers, List.length_cons] at hd
      omega

/-- A step of a frame that the activation has called, which may be left. -/
theorem moves_inner {instruction : Instruction} {running : Frame}
    (h : entered.Stacked machine (running :: inner) own) (hm : machine.Moves instruction after) :
    (∃ inner own, entered.Stacked after inner own) ∧
      ∀ slot < entered.frame.floor, after.stack[slot]? = machine.stack[slot]? := by
  obtain ⟨hframe, hcallers⟩ : machine.frame = running ∧
      machine.callers = inner ++ own :: entered.callers := by
    simpa [Machine.frames] using h.frames
  obtain ⟨habove, hinner⟩ := List.forall_mem_cons.mp h.above
  rw [← hframe] at habove
  have hle : machine.frame.base ≤ machine.frame.floor := Nat.le_add_right _ _
  cases hm with
  | goes goes callee =>
      refine ⟨⟨after.frame :: inner, own, ?_, h.own, ?_⟩, ?_⟩
      · simp [Machine.frames, goes.callers, hcallers]
      · rw [List.forall_mem_cons]
        refine ⟨?_, hinner⟩
        rw [goes.frame]
        exact habove
      · intro slot hslot
        refine goes.locals slot (by omega) ?_
        rintro ⟨-, rfl⟩
        omega
  | enters call callee frame callers arguments top above kept fresh =>
      refine ⟨⟨after.frame :: { machine.frame with next := machine.frame.next + 2 } :: inner, own,
        ?_, h.own, ?_⟩, ?_⟩
      · simp [Machine.frames, callers, hcallers]
      · rw [List.forall_mem_cons, List.forall_mem_cons]
        exact ⟨by omega, habove, hinner⟩
      · intro slot hslot
        have hbase : after.frame.base ≤ machine.top := by
          rw [frame]
          exact Nat.sub_le _ _
        exact kept slot (by omega)
  | leaves around frame callers top above kept result returned =>
      refine ⟨⟨inner, own, ?_, h.own, hinner⟩, fun slot hslot => kept slot (by omega)⟩
      rw [Machine.frames, frame, callers, ← around, hcallers]

end Stacked

variable {property : Machine → Prop} {entered machine after : Machine}

/-- In an activation the frames below are those that there were, and so is every slot below its floor
that its own instructions do not store. -/
theorem During.stacked (ho : entered.Orderly) (h : entered.During property machine) :
    machine.Orderly ∧ (∃ inner own, entered.Stacked machine inner own) ∧
      ∀ slot < entered.frame.floor,
        (∀ before, property before → before.depth = entered.depth →
          before.frame.base = entered.frame.base → ¬ before.Writes slot) →
        machine.stack[slot]? = entered.stack[slot]? := by
  induction h with
  | enter => exact ⟨ho, ⟨[], entered.frame, rfl, rfl, List.forall_mem_nil _⟩, fun _ _ _ => rfl⟩
  | @step machine after before holds step inside ih =>
      obtain ⟨hmachine, ⟨inner, own, hstacked⟩, hkept⟩ := ih
      obtain ⟨hafter, instruction, hdecode, hmoves⟩ := hmachine.moves step
      refine ⟨hafter, ?_⟩
      cases inner with
      | nil =>
          obtain ⟨hnext, hsame⟩ := hstacked.moves_own hmoves inside
          refine ⟨hnext, fun slot hslot hquiet => ?_⟩
          have hdepth : machine.depth = entered.depth := by simpa using hstacked.depth
          have hbase : machine.frame.base = entered.frame.base := by
            rw [hstacked.of_nil.1, hstacked.base_eq]
          rw [hsame slot hslot fun hstores =>
            hquiet machine holds hdepth hbase ⟨instruction, hdecode, hstores⟩]
          exact hkept slot hslot hquiet
      | cons running inner =>
          obtain ⟨hnext, hsame⟩ := hstacked.moves_inner hmoves
          refine ⟨hnext, fun slot hslot hquiet => ?_⟩
          rw [hsame slot hslot]
          exact hkept slot hslot hquiet

/-- A program runs in the activation of its own frame. -/
theorem During.of_run {steps : Nat} (ht : entered.callers = [])
    (h : entered.During (fun _ => True) machine) (hr : machine.run steps = .unfinished after) :
    entered.During (fun _ => True) after := by
  induction steps generalizing machine with
  | zero =>
      obtain rfl : machine = after := by
        cases hr
        rfl
      exact h
  | succ steps ih =>
      rw [Machine.run] at hr
      split at hr
      case h_1 next hs =>
          refine ih (.step h trivial hs ?_) hr
          rw [depth, ht]
          exact Nat.le_add_left 1 _
      case h_2 => cases hr
      case h_3 => cases hr

/-- In an activation no slot below its base changes. -/
theorem During.kept_below (ho : entered.Orderly) (h : entered.During property machine) {slot : Nat}
    (hs : slot < entered.frame.base) : machine.stack[slot]? = entered.stack[slot]? := by
  refine (h.stacked ho).2.2 slot (Nat.lt_of_lt_of_le hs (Nat.le_add_right _ _)) ?_
  rintro before - - hbase ⟨instruction, -, -, rfl⟩
  omega

/-- The step that leaves an activation gives the frames below it back, and puts the value that it
returns in the slot of the closure. -/
theorem During.leaves (ho : entered.Orderly) (h : entered.During property machine)
    (hs : Act.step machine = .ok true after) (hd : after.depth < entered.depth) :
    after.frames = entered.callers ∧ after.top = entered.frame.base ∧
      (∀ slot < entered.frame.base - 1, after.stack[slot]? = entered.stack[slot]?) ∧
      ∃ value, after.stack[entered.frame.base - 1]? = some value ∧ machine.Returns value := by
  obtain ⟨hmachine, ⟨inner, own, hstacked⟩, -⟩ := h.stacked ho
  obtain ⟨hafter, instruction, hdecode, hmoves⟩ := hmachine.moves hs
  have hdepth := hstacked.depth
  cases hmoves with
  | goes goes callee =>
      simp only [depth, goes.callers] at hd hdepth
      omega
  | enters call callee frame callers arguments top above kept fresh =>
      simp only [depth, callers, List.length_cons] at hd hdepth
      omega
  | @leaves caller callers value around frame hcallers top above kept result returned =>
      have hinner : inner = [] := by
        simp only [depth, hcallers, around, List.length_cons] at hd hdepth
        exact List.eq_nil_of_length_eq_zero (by omega)
      subst hinner
      obtain ⟨hframe, hbelow⟩ := hstacked.of_nil
      have hbase : machine.frame.base = entered.frame.base := by rw [hframe, hstacked.base_eq]
      rw [hbase] at top kept result
      refine ⟨?_, top, fun slot hslot => ?_, value, result, instruction, hdecode, returned⟩
      · rw [Machine.frames, frame, hcallers, ← around, hbelow]
      · rw [kept slot hslot]
        exact h.kept_below ho (by omega)

end Machine

end StackScript
