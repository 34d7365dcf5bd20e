import StackScript.Proofs.Simulation.State

/-!
# Actions of machines at a state

What the actions that instructions are made of do to a machine that is at a state of an evaluation:
the machine that they leave is at a state again.
-/

namespace StackScript

open StackScript.Core

namespace Setting

/-- Errors that say that a limit has been reached are allowed. -/
def Allows (setting : Setting) (fail : RuntimeError → Machine → Prop) : Prop :=
  ∀ error machine, setting.Limit error → setting.Sane machine → fail error machine

theorem allows_fails (setting : Setting) (result : EStateM.Result Interrupt State α) :
    setting.Allows (setting.Fails result) :=
  fun _ _ hlimit hsane => .inr ⟨hlimit, hsane⟩

end Setting

namespace At

open Act

variable {setting : Setting} {site : Site} {state : State} {temps : List Value} {next : Nat}
variable {machine : Machine} {fail : RuntimeError → Machine → Prop}

theorem jump (h : At setting site state temps next machine) (target : Nat)
    {post : PUnit → Machine → Prop}
    (hp : ∀ after, At setting site state temps target after → post () after) :
    (Act.jump target).Yields machine post fail := by
  apply yields_modify
  apply hp
  exact ⟨h.world.congr rfl rfl rfl rfl rfl, by rw [h.frame], h.callers, h.room, h.admits,
    h.stack⟩

/-- Reading an opcode moves on to what stands behind it. -/
theorem fetch (h : At setting site state temps next machine) {instruction : Instruction}
    (hd : Instruction.decode site.fn.code next = .ok instruction)
    {post : Option Opcode → Machine → Prop}
    (hp : ∀ after, At setting site state temps (next + 1) after →
      post (some instruction.op) after) :
    Act.fetch.Yields machine post fail := by
  obtain ⟨byte, hbyte, hd⟩ := Except.bind_eq_ok_iff.mp hd
  obtain ⟨op, hop, hd⟩ := Except.bind_eq_ok_iff.mp hd
  obtain ⟨operands, -, hd⟩ := Except.bind_eq_ok_iff.mp hd
  obtain rfl : ⟨op, operands⟩ = instruction := Except.ok.inj hd
  obtain ⟨value, hvalue, rfl⟩ : ∃ value, site.fn.code[next]? = some value ∧ value.toNat = byte := by
    simp only [Width.read] at hbyte
    split at hbyte
    case h_1 value hv => exact ⟨value, hv, by simpa using hbyte⟩
    case h_2 => simp at hbyte
  have hop' : Opcode.ofByte? value = some op := by
    unfold Instruction.opcode at hop
    rw [UInt8.ofNat_toNat] at hop
    split at hop
    case h_1 op' ho => rwa [Except.ok.inj hop] at ho
    case h_2 => simp at hop
  refine .bind (yields_get ?_)
  rw [h.frame]
  simp only [hvalue, hop']
  refine .bind (h.jump _ fun after hafter => ?_)
  exact yields_pure (hp after hafter)

theorem operand (h : At setting site state temps next machine) {width : Width} {value : Nat}
    (hr : width.read site.fn.code next = .ok value) {post : Nat → Machine → Prop}
    (hp : ∀ after, At setting site state temps (next + width.size) after → post value after) :
    (Act.operand width).Yields machine post fail := by
  refine .bind (yields_get ?_)
  rw [h.frame]
  simp only [hr]
  refine .bind (h.jump _ fun after hafter => ?_)
  exact yields_pure (hp after hafter)

theorem push (h : At setting site state temps next machine)
    (hl : setting.Sane machine → fail .stackOverflow machine) {value : Value}
    {post : PUnit → Machine → Prop}
    (hp : ∀ after, At setting site state (temps ++ [value]) next after → post () after) :
    (Act.push value).Yields machine post fail := by
  refine .bind (yields_get ?_)
  split
  case isTrue hlt =>
      apply yields_set
      apply hp
      obtain ⟨locals, hlocals, hstack⟩ := h.stack
      refine ⟨h.world.congr rfl rfl rfl rfl rfl, h.frame, h.callers, ?_, h.admits, locals,
        hlocals, ?_⟩
      · simpa [Machine.Room] using Nat.succ_le_of_lt hlt
      · rw [Machine.inUse_push hlt, hstack, List.append_assoc]
  case isFalse => exact yields_throw (hl h.sane)

/-- Values taken off the stack. -/
theorem drop {values : List Value} (h : At setting site state (temps ++ values) next machine) :
    At setting site state temps next { machine with top := machine.top - values.length } := by
  obtain ⟨locals, hlocals, hstack⟩ := h.stack
  rw [← List.append_assoc] at hstack
  exact ⟨h.world.congr rfl rfl rfl rfl rfl, h.frame, h.callers,
    Nat.le_trans (Nat.sub_le _ _) h.room, h.admits, locals, hlocals,
    Machine.inUse_drop h.room hstack⟩

theorem pop {value : Value} (h : At setting site state (temps ++ [value]) next machine)
    {post : Value → Machine → Prop}
    (hp : ∀ after, At setting site state temps next after → post value after) :
    Act.pop.Yields machine post fail := by
  obtain ⟨locals, hlocals, hstack⟩ := h.stack
  rw [← List.append_assoc] at hstack
  have htop := h.room.top_eq hstack
  have hvalue : machine.stack[machine.top - 1]? = some value := Machine.getElem?_below h.room hstack
  refine .bind (yields_get ?_)
  rw [if_neg (by simp at htop; omega), hvalue]
  exact .bind (yields_set (yields_pure (hp _ h.drop)))

theorem popMany {values : List Value}
    (h : At setting site state (temps ++ values) next machine)
    {post : List Value → Machine → Prop}
    (hp : ∀ after, At setting site state temps next after → post values after) :
    (Act.popMany values.length).Yields machine post fail := by
  obtain ⟨locals, hlocals, hstack⟩ := h.stack
  rw [← List.append_assoc] at hstack
  have htop := h.room.top_eq hstack
  refine .bind (yields_get ?_)
  rw [if_neg (by omega)]
  simp only [Machine.extract_top h.room hstack]
  exact .bind (yields_set (yields_pure (hp _ h.drop)))

/-- The slot of a local is in use, and holds what the local stands for. -/
theorem localSlot (h : At setting site state temps next machine) {index : Nat}
    (hi : index < state.locals.length) {post : Nat → Machine → Prop}
    (hp : ∀ top, machine.stack[site.below.length + index]? = some top →
      setting.Stands (state.locals[index]?.getD .null) top →
        post (site.below.length + index) machine) :
    (Act.localSlot index).Yields machine post fail := by
  obtain ⟨locals, hlocals, hstack⟩ := h.stack
  have hlen : index < locals.length := by rwa [← hlocals.length_eq]
  have htop := h.room.top_eq hstack
  rw [List.length_append] at htop
  have hlt : site.below.length + index < machine.top := by omega
  have hget : machine.stack[site.below.length + index]? = some locals[index] :=
    calc
      machine.stack[site.below.length + index]?
          = machine.inUse[site.below.length + index]? := (Machine.getElem?_inUse machine hlt).symm
      _ = (locals ++ temps)[index]? := by
            rw [hstack, List.append_assoc, List.getElem?_append_right (Nat.le_add_right _ _),
              Nat.add_sub_cancel_left]
      _ = some locals[index] := by
            rw [List.getElem?_append_left hlen, List.getElem?_eq_getElem hlen]
  have hstands : setting.Stands (state.locals[index]?.getD .null) locals[index] := by
    have hrel := Related.getElem? hlocals index
    rw [List.getElem?_eq_getElem hlen, List.getElem?_eq_getElem hi] at hrel
    rw [List.getElem?_eq_getElem hi]
    cases hrel with
    | some hrel => exact hrel
  refine .bind (yields_get ?_)
  simp only [h.frame]
  rw [if_pos hlt]
  exact yields_pure (hp _ hget hstands)

/-- A value that is stored in the slot of a local. -/
theorem setLocal (h : At setting site state temps next machine) {index : Nat}
    (hi : index < state.locals.length) {value : Datum} {top : Value}
    (hv : setting.Stands value top) :
    At setting site { state with locals := state.locals.set index value } temps next
      { machine with
        stack := machine.stack.setIfInBounds (site.below.length + index) top } := by
  obtain ⟨locals, hlocals, hstack⟩ := h.stack
  have hlen : index < locals.length := by rwa [← hlocals.length_eq]
  refine ⟨h.world.congr rfl rfl rfl rfl rfl, h.frame, h.callers, ?_, ?_, locals.set index top,
    ?_, ?_⟩
  · simpa [Machine.Room] using h.room
  · exact h.admits.set index value
  · exact Related.set hlocals index hv
  · simp only [Machine.inUse, Array.toList_setIfInBounds] at hstack ⊢
    rw [List.take_set, hstack, List.append_assoc, List.append_assoc,
      List.set_append_right _ _ (Nat.le_add_right _ _), Nat.add_sub_cancel_left,
      List.set_append_left _ _ hlen]

/-- A value that is stored in the slot of a global. -/
theorem setGlobal (h : At setting site state temps next machine) {index : Nat} {value : Datum}
    {top : Value} (hv : setting.Stands value top) (hi : index < machine.globals.size) :
    At setting site { state with
        globals := fun other => if other = index then value else state.globals other } temps next
      { machine with globals := machine.globals.setIfInBounds index top } := by
  refine ⟨⟨h.world.constants, h.world.limits, ?_, ?_, h.world.discarded, h.world.output⟩, h.frame,
    h.callers, h.room, h.admits, h.stack⟩
  · simpa using h.world.slots
  · intro other
    by_cases heq : other = index
    · subst heq
      simpa [hi] using hv
    · have hne : index ≠ other := fun h => heq h.symm
      simpa [heq, hne] using h.world.globals other

/-- A text that is written. -/
theorem print (h : At setting site state temps next machine) (text : String) :
    At setting site { state with output := state.output ++ text } temps next
      { machine with output := machine.output ++ text } := by
  refine ⟨⟨h.world.constants, h.world.limits, h.world.slots, h.world.globals, h.world.discarded, ?_⟩,
    h.frame, h.callers, h.room, h.admits, h.stack⟩
  exact congrArg (· ++ text) h.world.output

end At

end StackScript
