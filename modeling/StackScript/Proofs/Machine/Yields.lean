import StackScript.Machine.Run

/-!
# What actions yield

An action yields what it should if its result satisfies a postcondition, or if it fails in a way that
is allowed. A machine gets somewhere if its steps lead to a state of the right kind, or to an error
that is allowed, and if every state on the way is sane.
-/

namespace StackScript

namespace Act

variable {machine : Machine} {fail : RuntimeError → Machine → Prop}

/-- The result of an action satisfies the postcondition, or its error is allowed. -/
def Yields (action : Act α) (machine : Machine) (post : α → Machine → Prop)
    (fail : RuntimeError → Machine → Prop) : Prop :=
  match action machine with
  | .ok value machine => post value machine
  | .error error machine => fail error machine

theorem Yields.bind {action : Act α} {next : α → Act β} {post : β → Machine → Prop}
    (h : action.Yields machine (fun value machine => (next value).Yields machine post fail) fail) :
    (action >>= next).Yields machine post fail := by
  unfold Yields at h
  show (match EStateM.bind action next machine with
    | .ok value machine => post value machine
    | .error error machine => fail error machine)
  unfold EStateM.bind
  cases hr : action machine with
  | ok value after =>
      rw [hr] at h
      exact h
  | error error after =>
      rw [hr] at h
      exact h

theorem Yields.mono {action : Act α} {post post' : α → Machine → Prop}
    (h : action.Yields machine post fail)
    (hp : ∀ value machine, post value machine → post' value machine) :
    action.Yields machine post' fail := by
  unfold Yields at h ⊢
  cases hr : action machine with
  | ok value after =>
      rw [hr] at h
      exact hp value after h
  | error error after =>
      rw [hr] at h
      exact h

theorem yields_pure {value : α} {post : α → Machine → Prop} (h : post value machine) :
    (pure value : Act α).Yields machine post fail :=
  h

theorem yields_get {post : Machine → Machine → Prop} (h : post machine machine) :
    (get : Act Machine).Yields machine post fail :=
  h

theorem yields_set {after : Machine} {post : PUnit → Machine → Prop} (h : post () after) :
    (set after : Act PUnit).Yields machine post fail :=
  h

theorem yields_modify {f : Machine → Machine} {post : PUnit → Machine → Prop}
    (h : post () (f machine)) : (modify f : Act PUnit).Yields machine post fail :=
  h

theorem yields_throw {error : RuntimeError} {post : α → Machine → Prop} (h : fail error machine) :
    (throw error : Act α).Yields machine post fail :=
  h

end Act

namespace Machine

/-- The values in the slots that are in use, from the bottom up. -/
def inUse (machine : Machine) : List Value :=
  machine.stack.toList.take machine.top

/-- The stack has a slot for every value in use. -/
def Room (machine : Machine) : Prop :=
  machine.top ≤ machine.stack.size

theorem Room.length_inUse {machine : Machine} (h : machine.Room) :
    machine.inUse.length = machine.top := by
  rw [inUse, List.length_take, Array.length_toList]
  exact Nat.min_eq_left h

theorem getElem?_inUse (machine : Machine) {slot : Nat} (h : slot < machine.top) :
    machine.inUse[slot]? = machine.stack[slot]? := by
  rw [inUse, List.getElem?_take_of_lt h, Array.getElem?_toList]

/-- A machine with a value more in use. -/
theorem inUse_push {machine : Machine} (h : machine.top < machine.stack.size) (value : Value) :
    { machine with
      stack := machine.stack.setIfInBounds machine.top value
      top := machine.top + 1 }.inUse = machine.inUse ++ [value] := by
  simp only [inUse, Array.toList_setIfInBounds]
  rw [List.take_add_one, List.take_set_of_le (Nat.le_refl _), List.getElem?_set_self (by simpa using h)]
  rfl

theorem Room.top_eq {machine : Machine} {values taken : List Value} (hr : machine.Room)
    (h : machine.inUse = values ++ taken) : machine.top = values.length + taken.length := by
  rw [← hr.length_inUse, h, List.length_append]

/-- The topmost values in use. -/
theorem extract_top {machine : Machine} {values taken : List Value} (hr : machine.Room)
    (h : machine.inUse = values ++ taken) :
    (machine.stack.extract (machine.top - taken.length) machine.top).toList = taken := by
  have htop := hr.top_eq h
  have hstart : machine.top - taken.length = values.length := by omega
  calc
    (machine.stack.extract (machine.top - taken.length) machine.top).toList
        = (machine.stack.toList.drop values.length).take (machine.top - values.length) := by
          rw [hstart, Array.toList_extract, List.extract_eq_take_drop]
    _ = machine.inUse.drop values.length := by rw [inUse, ← List.drop_take]
    _ = taken := by rw [h, List.drop_left]

/-- A value in use with others above it. -/
theorem getElem?_below {machine : Machine} {values above : List Value} {value : Value}
    (hr : machine.Room) (h : machine.inUse = values ++ value :: above) :
    machine.stack[machine.top - (above.length + 1)]? = some value := by
  have htop := hr.top_eq h
  rw [List.length_cons] at htop
  have hzero : machine.top - (above.length + 1) - values.length = 0 := by omega
  calc
    machine.stack[machine.top - (above.length + 1)]?
        = machine.inUse[machine.top - (above.length + 1)]? :=
          (getElem?_inUse machine (by omega)).symm
    _ = (value :: above)[machine.top - (above.length + 1) - values.length]? := by
          rw [h, List.getElem?_append_right (by omega)]
    _ = some value := by rw [hzero, List.getElem?_cons_zero]

/-- A machine with the topmost values taken off. -/
theorem inUse_drop {machine : Machine} {values taken : List Value} (hr : machine.Room)
    (h : machine.inUse = values ++ taken) :
    { machine with top := machine.top - taken.length }.inUse = values := by
  have hlen := hr.top_eq h
  have htop : machine.top - taken.length = values.length := by omega
  have htake : machine.inUse.take values.length = values := by rw [h, List.take_left]
  rw [inUse, List.take_take, Nat.min_eq_left (by omega)] at htake
  simpa only [inUse, htop] using htake

end Machine

/-- Steps of a machine lead to a state of some kind, or to an error that is allowed, by way of
states that are sane. -/
inductive Machine.Eventually (sane : Machine → Prop) (fail : RuntimeError → Machine → Prop)
    (goal : Machine → Prop) : Machine → Prop
  | now {machine : Machine} (h : goal machine) : Eventually sane fail goal machine
  | failed {machine after : Machine} {error : RuntimeError} (hs : sane machine)
    (h : Act.step machine = .error error after) (hf : fail error after) :
    Eventually sane fail goal machine
  | step {machine after : Machine} (hs : sane machine) (h : Act.step machine = .ok true after)
    (hrest : Eventually sane fail goal after) : Eventually sane fail goal machine

namespace Machine.Eventually

variable {sane : Machine → Prop} {fail fail' : RuntimeError → Machine → Prop}
variable {goal goal' : Machine → Prop} {machine : Machine}

/-- What is reached first may lead further. -/
theorem bind (h : Eventually sane fail goal machine)
    (hf : ∀ error machine, fail error machine → fail' error machine)
    (hg : ∀ machine, goal machine → Eventually sane fail' goal' machine) :
    Eventually sane fail' goal' machine := by
  induction h with
  | now h => exact hg _ h
  | failed hs h hfail => exact .failed hs h (hf _ _ hfail)
  | step hs h _ ih => exact .step hs h ih

/-- One step, as what it yields. -/
theorem of_yields (hs : sane machine)
    (h : Act.step.Yields machine
      (fun more machine => more = true ∧ Eventually sane fail goal machine) fail) :
    Eventually sane fail goal machine := by
  unfold Act.Yields at h
  cases hr : Act.step machine with
  | ok more after =>
      rw [hr] at h
      obtain ⟨rfl, hrest⟩ := h
      exact .step hs hr hrest
  | error error after =>
      rw [hr] at h
      exact .failed hs hr h

/-- A machine that gets somewhere runs until it is there, unless it fails or has not been given
enough steps. -/
theorem run (h : Eventually sane fail goal machine) : ∃ enough, ∀ steps,
    (steps ≤ enough ∧ ∃ after, machine.run steps = .unfinished after ∧ sane after) ∨
    (∃ error after, machine.run steps = .failed error after ∧ fail error after) ∨
    (∃ rest after, machine.run steps = after.run rest ∧ goal after ∧ steps ≤ rest + enough) := by
  induction h with
  | @now machine h => exact ⟨0, fun steps => .inr (.inr ⟨steps, machine, rfl, h, Nat.le_refl _⟩)⟩
  | @failed machine after error hs h hf =>
      refine ⟨0, fun steps => ?_⟩
      cases steps with
      | zero => exact .inl ⟨Nat.le_refl _, machine, rfl, hs⟩
      | succ steps => exact .inr (.inl ⟨error, after, by rw [Machine.run, h], hf⟩)
  | @step machine after hs h _ ih =>
      obtain ⟨enough, hrun⟩ := ih
      refine ⟨enough + 1, fun steps => ?_⟩
      cases steps with
      | zero => exact .inl ⟨Nat.zero_le _, machine, rfl, hs⟩
      | succ steps =>
          rw [Machine.run, h]
          rcases hrun steps with ⟨hle, hrest⟩ | hfailed | ⟨rest, last, heq, hgoal, hle⟩
          · exact .inl ⟨Nat.succ_le_succ hle, hrest⟩
          · exact .inr (.inl hfailed)
          · exact .inr (.inr ⟨rest, last, heq, hgoal, by omega⟩)

end Machine.Eventually

end StackScript
