import StackScript.Machine.Run

/-!
# What the actions of a machine do

Each action of which instructions are made, as a function of the machine: when it fails and with
which error, and what it leaves otherwise.
-/

namespace StackScript

/-- An action goes on from where the first part of it has got. -/
theorem EStateM.bind_of_ok {action : EStateM ε σ α} {next : α → EStateM ε σ β} {state after : σ}
    {value : α} (h : action state = .ok value after) :
    (action >>= next) state = next value after := by
  show EStateM.bind action next state = next value after
  rw [EStateM.bind, h]

/-- An action fails if the first part of it does. -/
theorem EStateM.bind_of_error {action : EStateM ε σ α} {next : α → EStateM ε σ β}
    {state after : σ} {error : ε} (h : action state = .error error after) :
    (action >>= next) state = .error error after := by
  show EStateM.bind action next state = .error error after
  rw [EStateM.bind, h]

namespace Machine

/-- The machine about to go on at another offset of its running stream. -/
def goto (machine : Machine) (offset : Nat) : Machine :=
  { machine with frame := { machine.frame with next := offset } }

/-- The machine with a value more on its stack. -/
def pushed (machine : Machine) (value : Value) : Machine :=
  { machine with
    stack := machine.stack.setIfInBounds machine.top value
    top := machine.top + 1 }

/-- The machine with a frame for a closure that has been called with the topmost values. -/
def entered (machine : Machine) (fn : Function) (free : List Value) (count : Nat) : Machine :=
  { machine with
    stack := Act.clearSlots machine.stack machine.top (machine.top - count + max fn.locals count)
    top := machine.top - count + max fn.locals count
    frame := { fn, free, base := machine.top - count }
    callers := machine.frame :: machine.callers }

/-- A machine starts with null in the slots that no value was left in. -/
theorem getD_globals_start (bytecode : Bytecode) (limits : Limits) (globals : Array Value)
    (index : Nat) :
    (start bytecode limits globals).globals[index]?.getD .null = globals[index]?.getD .null := by
  rw [start, Array.getElem?_append]
  split
  · rfl
  case isFalse hge =>
      rw [Array.getElem?_eq_none (Nat.le_of_not_lt hge), Array.getElem?_replicate]
      split <;> rfl

theorem size_globals_start (bytecode : Bytecode) {limits : Limits} {globals : Array Value}
    (h : globals.size ≤ limits.globalsSize) :
    (start bytecode limits globals).globals.size = limits.globalsSize := by
  rw [start, Array.size_append, Array.size_replicate]
  omega

end Machine

namespace Act

/-- The slots below the end are those below the start, and nulls behind them. -/
theorem take_clearSlots {start count : Nat} {stack : Array Value}
    (h : start + count ≤ stack.size) :
    (clearSlots stack start (start + count)).toList.take (start + count) =
      stack.toList.take start ++ List.replicate count .null := by
  rw [clearSlots, Nat.add_sub_cancel_left]
  induction count generalizing start stack with
  | zero => simp
  | succ count ih =>
      have hlt : start < stack.size := by omega
      have hnext : start + 1 + count ≤ (stack.setIfInBounds start .null).size := by
        rw [Array.size_setIfInBounds]
        omega
      have htake : (stack.setIfInBounds start .null).toList.take (start + 1) =
          stack.toList.take start ++ [.null] := by
        rw [Array.toList_setIfInBounds, List.take_add_one, List.take_set_of_le (Nat.le_refl _),
          List.getElem?_set_self (by simpa using hlt)]
        rfl
      rw [List.range'_succ, List.foldl_cons, List.replicate_succ, List.append_cons, ← htake]
      have hsum : start + (count + 1) = start + 1 + count := by omega
      rw [hsum]
      exact ih hnext

@[simp] theorem size_clearSlots (stack : Array Value) (start stop : Nat) :
    (clearSlots stack start stop).size = stack.size := by
  rw [clearSlots]
  induction List.range' start (stop - start) generalizing stack with
  | nil => rfl
  | cons slot slots ih => rw [List.foldl_cons, ih, Array.size_setIfInBounds]

/-- The slots that are cleared are null, and all others are as before. -/
theorem getElem?_clearSlots {stack : Array Value} {start stop : Nat} (h : stop ≤ stack.size)
    (slot : Nat) :
    (clearSlots stack start stop)[slot]? =
      if start ≤ slot ∧ slot < stop then some .null else stack[slot]? := by
  rw [clearSlots]
  induction hcount : stop - start generalizing start stack with
  | zero =>
      have hnone : ¬ (start ≤ slot ∧ slot < stop) := by omega
      rw [if_neg hnone]
      rfl
  | succ count ih =>
      have hlt : start < stack.size := by omega
      rw [List.range'_succ, List.foldl_cons,
        ih (by rwa [Array.size_setIfInBounds]) (by omega), Array.getElem?_setIfInBounds]
      grind

variable (machine : Machine)

theorem push_apply (value : Value) :
    push value machine =
      if machine.top < machine.stack.size then .ok () (machine.pushed value)
      else .error .stackOverflow machine := by
  show (if _ then _ else _ : Act Unit) machine = _
  split <;> rfl

theorem pop_apply :
    pop machine =
      if machine.top = 0 then .error .stackUnderflow machine
      else .ok (machine.stack[machine.top - 1]?.getD .null)
        { machine with top := machine.top - 1 } := by
  show (if _ then _ else _ : Act Value) machine = _
  split <;> rfl

theorem popMany_apply (count : Nat) :
    popMany count machine =
      if machine.top < count then .error .stackUnderflow machine
      else .ok (machine.stack.extract (machine.top - count) machine.top).toList
        { machine with top := machine.top - count } := by
  show (if _ then _ else _ : Act (List Value)) machine = _
  split <;> rfl

theorem localSlot_apply (index : Nat) :
    localSlot index machine =
      if machine.frame.base + index < machine.top then .ok (machine.frame.base + index) machine
      else .error (.invalidOperand "local" (machine.frame.base + index)) machine := by
  show (if _ then _ else _ : Act Nat) machine = _
  split <;> rfl

theorem leave_apply (value : Value) :
    leave value machine =
      match machine.callers with
      | [] => .error .returnOutsideFunction machine
      | caller :: callers => push value
          { machine with frame := caller, callers := callers, top := machine.frame.base - 1 } := by
  show (match machine.callers with | [] => _ | caller :: callers => _ : Act Unit) machine = _
  cases machine.callers <;> rfl

theorem enter_apply (fn : Function) (free : List Value) (count : Nat) :
    enter fn free count machine =
      if count ≠ fn.parameters then .error (.wrongArgumentCount fn.parameters count) machine
      else if machine.depth ≥ machine.limits.maxFrames then
        .error (.frameOverflow machine.limits.maxFrames) machine
      else if machine.top - count + max fn.locals count > machine.stack.size then
        .error .stackOverflow machine
      else .ok () (machine.entered fn free count) := by
  unfold enter
  split
  · rfl
  · show (if _ then _ else _ : Act Unit) machine = _
    split
    · rfl
    · show (if _ then _ else _ : Act Unit) machine = _
      split <;> rfl

theorem callBuiltin_apply (builtin : Builtin) (count : Nat) :
    let arguments := (machine.stack.extract (machine.top - count) machine.top).toList
    callBuiltin builtin count machine =
      match builtin.apply arguments with
      | .error misuse => .error (.builtin builtin.name misuse.message) machine
      | .ok value => push value
          { machine with
            top := machine.top - (count + 1)
            output := machine.output ++ builtin.printed arguments } := by
  intro arguments
  show (match builtin.apply arguments with
    | .error misuse => _
    | .ok value => _ : Act Unit) machine = _
  cases builtin.apply arguments <;> rfl

theorem call_apply (count : Nat) :
    call count machine =
      if machine.top < count + 1 then .error .stackUnderflow machine
      else match machine.stack[machine.top - (count + 1)]?.getD .null with
        | .closure fn free => enter fn free count machine
        | .builtin builtin => callBuiltin builtin count machine
        | value => .error (.notCallable value.typeName) machine := by
  show (if _ then _ else _ : Act Unit) machine = _
  split
  · rfl
  · show (match machine.stack[machine.top - (count + 1)]?.getD .null with
      | .closure fn free => _
      | .builtin builtin => _
      | value => _ : Act Unit) machine = _
    cases machine.stack[machine.top - (count + 1)]?.getD .null <;> rfl

end Act

end StackScript
