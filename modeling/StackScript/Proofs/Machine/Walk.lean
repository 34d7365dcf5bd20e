import Mathlib.Logic.Relation
import StackScript.Proofs.Machine.Activation

/-!
# Walks through the code of one frame

Seen from one frame, a call is an instruction like the others: when the function has returned, there
is its value instead of the callee and the arguments. A frame strides from instruction to instruction
in this way, always forward. If its code leads from where it is to a single offset, then it comes by
this offset on its way to anything behind it, with the values that it should have there.
-/

namespace StackScript

namespace Machine

/-- The running frame has gone on behind one instruction, and a function that this has called has
returned. -/
structure Strides (instruction : Instruction) (machine after : Machine) : Prop where
  decode : Instruction.decode machine.frame.fn.code machine.frame.next = .ok instruction
  goes : machine.Goes instruction after
  during : machine.During (fun _ => True) after
  step : instruction.op ≠ .call → Act.step machine = .ok true after

/-- The instruction has entered a function. -/
structure Calls (instruction : Instruction) (machine entered : Machine) : Prop where
  orderly : machine.Orderly
  decode : Instruction.decode machine.frame.fn.code machine.frame.next = .ok instruction
  step : Act.step machine = .ok true entered
  moves : machine.Moves instruction entered
  deeper : machine.depth < entered.depth

/-- The running frame has gone on behind some instructions. -/
abbrev Walks : Machine → Machine → Prop :=
  Relation.ReflTransGen fun machine after => ∃ instruction, machine.Strides instruction after

variable {start machine middle after ended : Machine} {instruction : Instruction}

theorem Goes.depth_eq (h : machine.Goes instruction after) : after.depth = machine.depth := by
  rw [depth, h.callers]
  rfl

theorem During.trans {property : Machine → Prop} (h : start.During property middle)
    (hr : middle.During property after) (hd : start.depth ≤ middle.depth) :
    start.During property after := by
  induction hr with
  | enter => exact h
  | step before holds step inside ih => exact .step ih holds step (Nat.le_trans hd inside)

/-! ## Walks and activations -/

/-- The function that a machine has called returns: the call is one stride. -/
theorem Calls.strides {entered inside : Machine} (h : machine.Calls instruction entered)
    (hi : entered.During (fun _ => True) inside) (hreturn : Act.step inside = .ok true after)
    (hleft : after.depth < entered.depth) : machine.Strides instruction after := by
  obtain ⟨ho, hd, hs, hm, hdeeper⟩ := h
  have hentered : entered.Orderly := (ho.moves hs).1
  obtain ⟨hframes, htop, hkept, -⟩ := hi.leaves hentered hreturn hleft
  cases hm with
  | goes goes callee => exact absurd goes.depth_eq (Nat.ne_of_gt hdeeper)
  | leaves around frame callers top above kept result returned =>
      simp only [depth, around, callers, List.length_cons] at hdeeper
      omega
  | enters call callee frame callers arguments top above kept fresh =>
      obtain ⟨op, operands⟩ := instruction
      obtain rfl : op = .call := call
      obtain ⟨hframe, hcallers⟩ : after.frame = { machine.frame with next := machine.frame.next + 2 } ∧
          after.callers = machine.callers := by
        simpa [frames, callers] using hframes
      have hbase : entered.frame.base = machine.top - Instruction.first ⟨.call, operands⟩ := by
        rw [frame]
      have htakes : Instruction.takes ⟨.call, operands⟩ =
          Instruction.first ⟨.call, operands⟩ + 1 := rfl
      refine ⟨hd, ⟨by rw [hframe], hcallers, ?_, ?_, by omega, ?_, ?_, ?_⟩, ?_, ?_⟩
      · rw [hframe]
        exact List.mem_cons_self
      · rw [hframe]
        exact Nat.lt_add_of_pos_right Nat.two_pos
      · show after.top = _ + 1
        omega
      · intro slot hslot _
        rw [hkept slot (by omega), kept slot (by omega)]
      · intro slot _ hslot
        rw [hkept slot (by omega), kept slot (by omega)]
      · have hdepth : machine.depth = after.depth := by
          rw [depth, depth, hcallers]
        exact .step (During.trans (.step .enter trivial hs (Nat.le_of_lt hdeeper)) hi
          (Nat.le_of_lt hdeeper)) trivial hreturn (Nat.le_of_eq hdepth)
      · exact fun hne => absurd rfl hne

/-- In an activation, the frame that was entered has walked to where it is, or to a call of a function
that has not returned. -/
theorem During.walks_or_calls (ho : start.Orderly) (h : start.During (fun _ => True) machine) :
    machine.depth = start.depth ∧ start.Walks machine ∨
      ∃ caller entered instruction, start.Walks caller ∧ caller.depth = start.depth ∧
        caller.Calls instruction entered ∧ entered.During (fun _ => True) machine := by
  induction h with
  | enter => exact .inl ⟨rfl, .refl⟩
  | @step machine after before _ hstep inside ih =>
      obtain ⟨hdepth, hwalks⟩ |
        ⟨caller, entered, instruction, hwalks, hdepth, hcalls, hentered⟩ := ih
      · have hmachine := (before.stacked ho).1
        obtain ⟨-, instruction, hd, hm⟩ := hmachine.moves hstep
        have hmoves := hm
        cases hm with
        | goes goes callee =>
            have hsame := goes.depth_eq
            refine .inl ⟨hsame.trans hdepth, hwalks.tail ⟨instruction, hd, goes, ?_, ?_⟩⟩
            · exact .step .enter trivial hstep (Nat.le_of_eq hsame.symm)
            · exact fun _ => hstep
        | enters call callee frame callers arguments top above kept fresh =>
            refine .inr ⟨machine, after, instruction, hwalks, hdepth,
              ⟨hmachine, hd, hstep, hmoves, ?_⟩, .enter⟩
            simp only [depth, callers, List.length_cons]
            omega
        | leaves around frame callers top above kept result returned =>
            simp only [depth, around, callers, List.length_cons] at hdepth inside
            omega
      · by_cases hleft : after.depth < entered.depth
        · have hstrides := hcalls.strides hentered hstep hleft
          exact .inl ⟨hstrides.goes.depth_eq.trans hdepth, hwalks.tail ⟨instruction, hstrides⟩⟩
        · exact .inr ⟨caller, entered, instruction, hwalks, hdepth, hcalls,
            .step hentered trivial hstep (Nat.le_of_not_lt hleft)⟩

/-- A frame that runs again has walked to where it is. -/
theorem During.walks (ho : start.Orderly) (h : start.During (fun _ => True) ended)
    (hd : ended.depth = start.depth) : start.Walks ended := by
  obtain ⟨-, hwalks⟩ | ⟨caller, entered, instruction, -, hdepth, hcalls, hentered⟩ :=
    h.walks_or_calls ho
  · exact hwalks
  · have hdeeper := hcalls.deeper
    have hinside : entered.depth ≤ ended.depth := by
      cases hentered with
      | enter => exact Nat.le_refl _
      | step _ _ _ inside => exact inside
    omega

theorem Walks.during (h : start.Walks ended) :
    ended.depth = start.depth ∧ start.During (fun _ => True) ended := by
  induction h with
  | refl => exact ⟨rfl, .enter⟩
  | tail _ hstrides ih =>
      obtain ⟨instruction, hstrides⟩ := hstrides
      exact ⟨hstrides.goes.depth_eq.trans ih.1,
        ih.2.trans hstrides.during (Nat.le_of_eq ih.1.symm)⟩

theorem Walks.frame_eq (h : start.Walks ended) :
    ended.frame = { start.frame with next := ended.frame.next } := by
  induction h with
  | refl => rfl
  | tail _ hstrides ih =>
      obtain ⟨instruction, hstrides⟩ := hstrides
      rw [hstrides.goes.frame, ih]

theorem Walks.callers_eq (h : start.Walks ended) : ended.callers = start.callers := by
  induction h with
  | refl => rfl
  | tail _ hstrides ih =>
      obtain ⟨instruction, hstrides⟩ := hstrides
      rw [hstrides.goes.callers, ih]

theorem Walks.next_le (h : start.Walks ended) : start.frame.next ≤ ended.frame.next := by
  induction h with
  | refl => exact Nat.le_refl _
  | tail _ hstrides ih =>
      obtain ⟨instruction, hstrides⟩ := hstrides
      exact Nat.le_of_lt (Nat.lt_of_le_of_lt ih hstrides.goes.forward)

/-- A frame that has not gone on has done nothing. -/
theorem Walks.eq_of_next_eq (h : start.Walks ended)
    (hn : ended.frame.next = start.frame.next) : ended = start := by
  cases h.cases_head with
  | inl heq => exact heq.symm
  | inr hstep =>
      obtain ⟨after, ⟨instruction, hstrides⟩, hwalks⟩ := hstep
      have hforward := hstrides.goes.forward
      have hle := Walks.next_le hwalks
      omega

/-! ## Coming by an offset -/

/-- A frame whose code leads to a single offset comes by this offset on its way to anything behind
it. The values that lie below those that the code accounts for are kept. -/
theorem Walks.passes {code : Code} {stop high low height next : Nat}
    (hl : Instruction.Leads
      (fun next instruction => Instruction.decode code next = .ok instruction ∧ next < stop)
      (fun next height => next = stop ∧ height = high) next height)
    (h : start.Walks ended) (hcode : start.frame.fn.code = code) (hnext : start.frame.next = next)
    (htop : start.top = low + height) (hlow : start.frame.floor ≤ low)
    (hstop : stop ≤ ended.frame.next) :
    ∃ middle, start.Walks middle ∧ middle.Walks ended ∧ middle.frame.next = stop ∧
      middle.top = low + high ∧ ∀ slot, start.frame.floor ≤ slot → slot < low →
        middle.stack[slot]? = start.stack[slot]? := by
  induction hl generalizing start with
  | stop hstops =>
      obtain ⟨rfl, rfl⟩ := hstops
      exact ⟨start, .refl, h, hnext, htop, fun _ _ _ => rfl⟩
  | @next _ height instruction read enough _ _ ih =>
      obtain ⟨hdecode, hlt⟩ := read
      cases h.cases_head with
      | inl heq =>
          subst heq
          omega
      | inr hstep =>
          obtain ⟨after, ⟨other, hstrides⟩, hwalks⟩ := hstep
          obtain rfl : other = instruction := by
            have hother := hstrides.decode
            rw [hcode, hnext, hdecode] at hother
            exact (Except.ok.inj hother).symm
          have hgoes := hstrides.goes
          have hfloor : after.frame.floor = start.frame.floor := by
            rw [hgoes.frame]
            rfl
          have hsuccessor := hgoes.successor
          rw [hnext] at hsuccessor
          obtain ⟨middle, hfirst, hrest, hmiddle, hhigh, hkept⟩ :=
            ih _ hsuccessor hwalks (by rw [hgoes.frame]; exact hcode) rfl
              (by rw [hgoes.top]; omega) (by rw [hfloor]; exact hlow)
          refine ⟨middle, .head ⟨other, hstrides⟩ hfirst, hrest, hmiddle, hhigh, ?_⟩
          intro slot hslot hbelow
          rw [hkept slot (by rw [hfloor]; exact hslot) hbelow]
          exact hgoes.temporaries slot hslot (by omega)

end Machine

end StackScript
