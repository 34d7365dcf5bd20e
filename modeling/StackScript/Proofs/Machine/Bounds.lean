import StackScript.Proofs.Core.Errors
import StackScript.Proofs.Machine.Actions
import StackScript.Proofs.Machine.Yields

/-!
# Machines stay within their bounds

Whatever bytes a machine is given to run, and however often it is run again after an error, its stack
and its globals keep their sizes, its top and the bases of its frames lie in the stack, and it has no
more frames than it may have. A machine that checks every access to its stack, and every difference
of two positions in it, therefore runs just as one that does not.

## Implementation notes

The machine reads `null` from a slot that is not there, and a difference that would be negative is 0.
The machine with checks is a second definition of its instructions, which stops in these cases
instead. Sums of positions are natural numbers in both, so that they never wrap around.
-/

namespace StackScript

/-- Frames, the running one first, lie in a stack of some size: the program's own frame starts at its
bottom, and each call has a slot below its base. -/
def Frame.Lie (size : Nat) : Frame → List Frame → Prop
  | frame, [] => frame.base = 0
  | frame, caller :: callers => 1 ≤ frame.base ∧ frame.base ≤ size ∧ Lie size caller callers

/-- A machine is within its bounds: the stack has as many slots as the limits say and the slots in
use are among them, there are no more frames than there may be, and the globals have a fixed number
of slots. Neither the limits nor the constants ever change. -/
structure Machine.Bounded (limits : Limits) (constants : Array Value) (slots : Nat)
    (machine : Machine) : Prop where
  sameLimits : machine.limits = limits
  sameConstants : machine.constants = constants
  stack : machine.stack.size = limits.stackSize
  top : machine.top ≤ limits.stackSize
  depth : machine.depth ≤ max 1 limits.maxFrames
  frames : machine.frame.Lie limits.stackSize machine.callers
  globals : machine.globals.size = slots

/-! ## Checks -/

/-- What stops a machine that checks every access: an access out of range, or an error. -/
inductive Trap where
  | outOfRange
  | error (error : RuntimeError)

/-- An action that checks every access. -/
abbrev CheckedAct := EStateM Trap Machine

namespace CheckedAct

/-- An action in which there is nothing to check. -/
def lift (action : Act α) : CheckedAct α := fun machine =>
  match action machine with
  | .ok value after => .ok value after
  | .error error after => .error (.error error) after

/-- Stop with an error. -/
def fail (error : RuntimeError) : CheckedAct α :=
  throw (.error error)

/-- The first number less the second one, which must not be larger. -/
def minus (m n : Nat) : CheckedAct Nat :=
  if n ≤ m then return m - n else throw .outOfRange

/-- The value in a slot of the stack. -/
def slot (index : Nat) : CheckedAct Value := do
  match (← get).stack[index]? with
  | some value => return value
  | none => throw .outOfRange

/-- The values in the slots from one position up to another. -/
def slice (start stop : Nat) : CheckedAct (List Value) := do
  let machine ← get
  if start ≤ stop ∧ stop ≤ machine.stack.size then
    return (machine.stack.extract start stop).toList
  else throw .outOfRange

/-- Put a value in a slot of the stack. -/
def setSlot (index : Nat) (value : Value) : CheckedAct Unit := do
  let machine ← get
  if index < machine.stack.size then
    set { machine with stack := machine.stack.setIfInBounds index value }
  else throw .outOfRange

/-- Set the slots from one position up to another to null. -/
def clear (start stop : Nat) : CheckedAct Unit := do
  let machine ← get
  if start ≤ stop ∧ stop ≤ machine.stack.size then
    set { machine with stack := Act.clearSlots machine.stack start stop }
  else throw .outOfRange

/-- Take a value off the stack. -/
def pop : CheckedAct Value := do
  let machine ← get
  if machine.top = 0 then fail .stackUnderflow
  let top ← minus machine.top 1
  let value ← slot top
  set { machine with top }
  return value

/-- Take several values off the stack, the lowest first. -/
def popMany (count : Nat) : CheckedAct (List Value) := do
  let machine ← get
  if machine.top < count then fail .stackUnderflow
  let start ← minus machine.top count
  let values ← slice start machine.top
  set { machine with top := start }
  return values

/-- Leave the running function with a value. -/
def leave (value : Value) : CheckedAct Unit := do
  let machine ← get
  match machine.callers with
  | [] => fail .returnOutsideFunction
  | caller :: callers =>
    let top ← minus machine.frame.base 1
    set { machine with frame := caller, callers, top }
    lift (Act.push value)

/-- Open a frame for a closure whose arguments lie on the stack. -/
def enter (fn : Function) (free : List Value) (count : Nat) : CheckedAct Unit := do
  if count ≠ fn.parameters then fail (.wrongArgumentCount fn.parameters count)
  let machine ← get
  if machine.depth ≥ machine.limits.maxFrames then fail (.frameOverflow machine.limits.maxFrames)
  let base ← minus machine.top count
  let top := base + max fn.locals count
  if top > machine.stack.size then fail .stackOverflow
  clear machine.top top
  modify fun cleared => { cleared with
    top
    frame := { fn, free, base }
    callers := machine.frame :: machine.callers }

/-- Apply a builtin to the arguments on the stack. -/
def callBuiltin (builtin : Builtin) (count : Nat) : CheckedAct Unit := do
  let machine ← get
  let start ← minus machine.top count
  let arguments ← slice start machine.top
  match builtin.apply arguments with
  | .error misuse => fail (.builtin builtin.name misuse.message)
  | .ok value =>
    let top ← minus machine.top (count + 1)
    set { machine with top, output := machine.output ++ builtin.printed arguments }
    lift (Act.push value)

/-- Call the value below some arguments on the stack. -/
def call (count : Nat) : CheckedAct Unit := do
  let machine ← get
  if machine.top < count + 1 then fail .stackUnderflow
  let callee ← minus machine.top (count + 1)
  match ← slot callee with
  | .closure fn free => enter fn free count
  | .builtin builtin => callBuiltin builtin count
  | value => fail (.notCallable value.typeName)

/-- Make a closure of a function of the constant pool and of the captured values on the stack. -/
def makeClosure (index count : Nat) : CheckedAct Unit := do
  match (← get).constants[index]? with
  | none => fail (.invalidOperand Opcode.closure.mnemonic index)
  | some (.function fn) =>
    let free ← popMany count
    lift (Act.push (.closure fn free))
  | some value => fail (.notAFunction value.render)

/-- Compute with the two values on top of the stack, the upper one on the right. -/
def binary (operation : Value → Value → Except RuntimeError Value) : CheckedAct Unit := do
  let right ← pop
  let left ← pop
  lift (Act.pushResult (operation left right))

/-- Run an instruction whose opcode has been read. -/
def perform (op : Opcode) : CheckedAct Unit := do
  match op with
  | .pop =>
    let value ← pop
    modify fun machine =>
      if machine.callers.isEmpty then { machine with lastPopped := value } else machine
  | .add => binary Arithmetic.add.apply
  | .subtract => binary Arithmetic.subtract.apply
  | .multiply => binary Arithmetic.multiply.apply
  | .divide => binary Arithmetic.divide.apply
  | .equal => binary Comparison.equal.apply
  | .notEqual => binary Comparison.notEqual.apply
  | .greater => binary Comparison.greater.apply
  | .not =>
    let value ← pop
    lift (Act.push (.boolean !value.isTruthy))
  | .negate =>
    let value ← pop
    lift (Act.pushResult value.negate)
  | .jumpUnless =>
    let target ← lift (Act.operand .word)
    let condition ← pop
    if !condition.isTruthy then lift (Act.jump target)
  | .setGlobal =>
    let index ← lift (Act.operand .word)
    let value ← pop
    let machine ← get
    if index < machine.globals.size then
      set { machine with globals := machine.globals.setIfInBounds index value }
    else fail (.invalidOperand op.mnemonic index)
  | .setLocal =>
    let index ← lift (Act.operand .byte)
    let value ← pop
    let local' ← lift (Act.localSlot index)
    setSlot local' value
  | .getLocal =>
    let index ← lift (Act.operand .byte)
    let value ← slot (← lift (Act.localSlot index))
    lift (Act.push value)
  | .array =>
    let count ← lift (Act.operand .word)
    let elements ← popMany count
    lift (Act.push (.array elements))
  | .hash =>
    let count ← lift (Act.operand .word)
    let elements ← popMany count
    lift (Act.pushResult (ValueOver.hashOf elements))
  | .index => binary ValueOver.element
  | .call => call (← lift (Act.operand .byte))
  | .returnValue => leave (← pop)
  | .returnNull => leave .null
  | .closure =>
    let index ← lift (Act.operand .word)
    let count ← lift (Act.operand .byte)
    makeClosure index count
  | .constant | .pushTrue | .pushFalse | .pushNull | .jump | .getGlobal | .getBuiltin | .getFree
  | .currentClosure => lift (Act.perform op)

/-- Run one instruction, or leave a function at its end. -/
def step : CheckedAct Bool := do
  match ← lift Act.fetch with
  | some op =>
    perform op
    return true
  | none =>
    if (← get).callers.isEmpty then return false
    leave .null
    return true

end CheckedAct

/-- Take at most some number of steps. There is no outcome if an access is out of range. -/
def Machine.runChecked : (steps : Nat) → Machine → Option Run
  | 0, machine => some (.unfinished machine)
  | steps + 1, machine =>
    match CheckedAct.step machine with
    | .ok true machine => runChecked steps machine
    | .ok false machine => some (.finished machine)
    | .error (.error error) machine => some (.failed error machine)
    | .error .outOfRange _ => none

/-! ## Actions of bounded machines -/

section

variable {limits : Limits} {constants : Array Value} {slots : Nat} {machine : Machine}

/-- On a machine an action does the same with checks as without them, and it leaves the machine
within its bounds, whether it fails or not. -/
structure Safe (limits : Limits) (constants : Array Value) (slots : Nat) (checked : CheckedAct α)
    (action : Act α) (machine : Machine) (post : α → Machine → Prop) : Prop where
  same : checked machine = CheckedAct.lift action machine
  yields : action.Yields machine
    (fun value after => after.Bounded limits constants slots ∧ post value after)
    (fun error after => error ≠ .frameUnderflow ∧ after.Bounded limits constants slots)

namespace Safe

theorem bind {checked : CheckedAct α} {action : Act α} {next : α → CheckedAct β}
    {next' : α → Act β} {post : α → Machine → Prop} {post' : β → Machine → Prop}
    (h : Safe limits constants slots checked action machine post)
    (hn : ∀ value after, after.Bounded limits constants slots → post value after →
      Safe limits constants slots (next value) (next' value) after post') :
    Safe limits constants slots (checked >>= next) (action >>= next') machine post' := by
  have hsame := h.same
  have hyields := h.yields
  unfold CheckedAct.lift at hsame
  unfold Act.Yields at hyields
  cases hr : action machine with
  | ok value after =>
      rw [hr] at hsame hyields
      have hnext := hn value after hyields.1 hyields.2
      refine ⟨?_, ?_⟩
      · rw [EStateM.bind_of_ok hsame, hnext.same, CheckedAct.lift, CheckedAct.lift,
          EStateM.bind_of_ok hr]
      · rw [Act.Yields, EStateM.bind_of_ok hr]
        exact hnext.yields
  | error error after =>
      rw [hr] at hsame hyields
      refine ⟨?_, ?_⟩
      · rw [EStateM.bind_of_error hsame, CheckedAct.lift, EStateM.bind_of_error hr]
      · rw [Act.Yields, EStateM.bind_of_error hr]
        exact hyields

end Safe

theorem safe_get {next : Machine → CheckedAct β} {next' : Machine → Act β}
    {post : β → Machine → Prop}
    (h : Safe limits constants slots (next machine) (next' machine) machine post) :
    Safe limits constants slots (get >>= next) (get >>= next') machine post :=
  ⟨h.same, h.yields⟩

theorem safe_pure {value : α} {post : α → Machine → Prop}
    (h : machine.Bounded limits constants slots) (hp : post value machine) :
    Safe limits constants slots (pure value) (pure value) machine post :=
  ⟨rfl, h, hp⟩

theorem safe_fail {error : RuntimeError} {post : α → Machine → Prop}
    (h : machine.Bounded limits constants slots) (he : error ≠ .frameUnderflow) :
    Safe limits constants slots (CheckedAct.fail error) (throw error) machine post :=
  ⟨rfl, he, h⟩

theorem safe_set {after : Machine} (h : after.Bounded limits constants slots) :
    Safe limits constants slots (set after) (set after) machine fun _ _ => True :=
  ⟨rfl, h, trivial⟩

theorem safe_modify {f : Machine → Machine} (h : (f machine).Bounded limits constants slots) :
    Safe limits constants slots (modify f) (modify f) machine fun _ _ => True :=
  ⟨rfl, h, trivial⟩

theorem Frame.lie_goto {size offset : Nat} {frame : Frame} {callers : List Frame} :
    Frame.Lie size { frame with next := offset } callers ↔ frame.Lie size callers := by
  cases callers <;> rfl

namespace Machine.Bounded

theorem goto (h : machine.Bounded limits constants slots) (offset : Nat) :
    (machine.goto offset).Bounded limits constants slots where
  sameLimits := h.sameLimits
  sameConstants := h.sameConstants
  stack := h.stack
  top := h.top
  depth := h.depth
  frames := Frame.lie_goto.mpr h.frames
  globals := h.globals

/-- Values may be taken off the stack, and slots of it changed. -/
theorem of_stack (h : machine.Bounded limits constants slots) {stack : Array Value} {top : Nat}
    (hs : stack.size = machine.stack.size) (ht : top ≤ limits.stackSize) :
    { machine with stack, top }.Bounded limits constants slots where
  sameLimits := h.sameLimits
  sameConstants := h.sameConstants
  stack := hs.trans h.stack
  top := ht
  depth := h.depth
  frames := h.frames
  globals := h.globals

theorem drop (h : machine.Bounded limits constants slots) (count : Nat) :
    { machine with top := machine.top - count }.Bounded limits constants slots :=
  h.of_stack rfl (Nat.le_trans (Nat.sub_le _ _) h.top)

theorem top_le (h : machine.Bounded limits constants slots) : machine.top ≤ machine.stack.size := by
  rw [h.stack]
  exact h.top

theorem safe_push (h : machine.Bounded limits constants slots) (value : Value) :
    Safe limits constants slots (CheckedAct.lift (Act.push value)) (Act.push value) machine
      fun _ _ => True := by
  refine ⟨rfl, ?_⟩
  rw [Act.Yields, Act.push_apply]
  by_cases hlt : machine.top < machine.stack.size
  · rw [if_pos hlt]
    refine ⟨h.of_stack (by simp) ?_, trivial⟩
    rw [h.stack] at hlt
    exact hlt
  · rw [if_neg hlt]
    exact ⟨nofun, h⟩

theorem safe_pushResult (h : machine.Bounded limits constants slots)
    {result : Except RuntimeError Value} (he : Except.Blames result) :
    Safe limits constants slots (CheckedAct.lift (Act.pushResult result)) (Act.pushResult result)
      machine fun _ _ => True := by
  cases result with
  | ok value => exact h.safe_push value
  | error error =>
      refine ⟨rfl, ?_, h⟩
      rintro rfl
      cases he _ rfl

theorem safe_fetch (h : machine.Bounded limits constants slots) :
    Safe limits constants slots (CheckedAct.lift Act.fetch) Act.fetch machine fun _ _ => True := by
  refine ⟨rfl, .bind (Act.yields_get ?_)⟩
  dsimp only
  split
  · exact Act.yields_pure ⟨h, trivial⟩
  · split
    · exact Act.yields_throw ⟨nofun, h⟩
    · exact .bind (Act.yields_modify (Act.yields_pure ⟨h.goto _, trivial⟩))

theorem safe_operand (h : machine.Bounded limits constants slots) (width : Width) :
    Safe limits constants slots (CheckedAct.lift (Act.operand width)) (Act.operand width) machine
      fun _ _ => True := by
  refine ⟨rfl, .bind (Act.yields_get ?_)⟩
  dsimp only
  split
  · exact Act.yields_throw ⟨nofun, h⟩
  · exact .bind (Act.yields_modify (Act.yields_pure ⟨h.goto _, trivial⟩))

theorem safe_localSlot (h : machine.Bounded limits constants slots) (index : Nat) :
    Safe limits constants slots (CheckedAct.lift (Act.localSlot index)) (Act.localSlot index) machine
      fun slot after => slot < after.top := by
  refine ⟨rfl, ?_⟩
  rw [Act.Yields, Act.localSlot_apply]
  by_cases hlt : machine.frame.base + index < machine.top
  · rw [if_pos hlt]
    exact ⟨h, hlt⟩
  · rw [if_neg hlt]
    exact ⟨nofun, h⟩

end Machine.Bounded

namespace Safe

variable {next : α → CheckedAct β} {action : Act β} {post : β → Machine → Prop}

/-- A difference that is not negative passes its check. -/
theorem minus {next : Nat → CheckedAct β} {m n : Nat} (hle : n ≤ m)
    (h : Safe limits constants slots (next (m - n)) action machine post) :
    Safe limits constants slots (CheckedAct.minus m n >>= next) action machine post := by
  rw [CheckedAct.minus, if_pos hle, pure_bind]
  exact h

/-- Reading a slot of the stack passes its check. -/
theorem slot {next : Value → CheckedAct β} {index : Nat} (hlt : index < machine.stack.size)
    (h : Safe limits constants slots (next (machine.stack[index]?.getD .null)) action machine
      post) :
    Safe limits constants slots (CheckedAct.slot index >>= next) action machine post := by
  have hslot : CheckedAct.slot index machine =
      .ok (machine.stack[index]?.getD .null) machine := by
    show (match machine.stack[index]? with
      | some value => _
      | none => _ : CheckedAct Value) machine = _
    rw [Array.getElem?_eq_getElem hlt]
    rfl
  exact ⟨(EStateM.bind_of_ok hslot).trans h.same, h.yields⟩

/-- Reading several slots of the stack passes its check. -/
theorem slice {next : List Value → CheckedAct β} {start stop : Nat} (hle : start ≤ stop)
    (hs : stop ≤ machine.stack.size)
    (h : Safe limits constants slots (next (machine.stack.extract start stop).toList) action machine
      post) :
    Safe limits constants slots (CheckedAct.slice start stop >>= next) action machine post := by
  have hslice : CheckedAct.slice start stop machine =
      .ok (machine.stack.extract start stop).toList machine := by
    show (if _ then _ else _ : CheckedAct (List Value)) machine = _
    rw [if_pos ⟨hle, hs⟩]
    rfl
  exact ⟨(EStateM.bind_of_ok hslice).trans h.same, h.yields⟩

end Safe

namespace Machine.Bounded

open CheckedAct

theorem safe_setSlot (h : machine.Bounded limits constants slots) {index : Nat} (value : Value)
    (hi : index < machine.top) :
    Safe limits constants slots (setSlot index value)
      (modify fun machine => { machine with stack := machine.stack.setIfInBounds index value })
      machine fun _ _ => True := by
  have hlt : index < machine.stack.size := Nat.lt_of_lt_of_le hi h.top_le
  refine ⟨?_, h.of_stack (by simp) h.top, trivial⟩
  show (if _ then _ else _ : CheckedAct Unit) machine = _
  rw [if_pos hlt]
  rfl

theorem safe_pop (h : machine.Bounded limits constants slots) :
    Safe limits constants slots pop Act.pop machine fun _ _ => True := by
  have htop := h.top_le
  refine safe_get ?_
  split
  case isTrue => exact safe_fail h nofun
  case isFalse hempty =>
      refine .minus (by omega) (.slot (by omega) ?_)
      exact (safe_set (h.drop 1)).bind fun _ _ h _ => safe_pure h trivial

theorem safe_popMany (h : machine.Bounded limits constants slots) (count : Nat) :
    Safe limits constants slots (popMany count) (Act.popMany count) machine fun _ _ => True := by
  refine safe_get ?_
  split
  case isTrue => exact safe_fail h nofun
  case isFalse hshort =>
      refine .minus (by omega) (.slice (Nat.sub_le _ _) h.top_le ?_)
      exact (safe_set (h.drop count)).bind fun _ _ h _ => safe_pure h trivial

theorem safe_leave (h : machine.Bounded limits constants slots) (value : Value) :
    Safe limits constants slots (leave value) (Act.leave value) machine fun _ _ => True := by
  refine safe_get ?_
  cases hcallers : machine.callers with
  | nil => exact safe_fail h nofun
  | cons caller callers =>
      have hframes := h.frames
      have hdepth := h.depth
      rw [hcallers] at hframes
      rw [Machine.depth, hcallers, List.length_cons] at hdepth
      obtain ⟨hlow, hhigh, hrest⟩ := hframes
      refine .minus hlow ((safe_set ?_).bind fun _ _ h _ => h.safe_push value)
      refine ⟨h.sameLimits, h.sameConstants, h.stack, ?_, ?_, hrest, h.globals⟩
      · exact Nat.le_trans (Nat.sub_le _ _) hhigh
      · exact Nat.le_trans (Nat.le_succ _) hdepth

/-- A frame that is opened lies in the stack, above the slot of its closure. -/
theorem entered (h : machine.Bounded limits constants slots) (fn : Function) (free : List Value)
    {count : Nat} (hc : count < machine.top) (hd : machine.depth < limits.maxFrames)
    (ht : machine.top - count + max fn.locals count ≤ machine.stack.size) :
    (machine.entered fn free count).Bounded limits constants slots where
  sameLimits := h.sameLimits
  sameConstants := h.sameConstants
  stack := by
    rw [← h.stack]
    exact Act.size_clearSlots _ _ _
  top := by
    rw [← h.stack]
    exact ht
  depth := Nat.le_trans hd (Nat.le_max_right _ _)
  frames := by
    have htop := h.top
    refine ⟨?_, ?_, h.frames⟩
    · show 1 ≤ machine.top - count
      omega
    · show machine.top - count ≤ limits.stackSize
      omega
  globals := h.globals

theorem safe_enter (h : machine.Bounded limits constants slots) (fn : Function) (free : List Value)
    {count : Nat} (hc : count < machine.top) :
    Safe limits constants slots (enter fn free count) (Act.enter fn free count) machine
      fun _ _ => True := by
  unfold enter Act.enter
  split
  case isTrue => exact safe_fail h nofun
  case isFalse hcount =>
      refine safe_get ?_
      split
      case isTrue => exact safe_fail h nofun
      case isFalse hdepth =>
          refine .minus (Nat.le_of_lt hc) ?_
          dsimp only
          split
          case isTrue => exact safe_fail h nofun
          case isFalse hroom =>
              have hstart : machine.top ≤ machine.top - count + max fn.locals count := by omega
              have hclear : clear machine.top (machine.top - count + max fn.locals count) machine =
                  .ok () { machine with
                    stack := Act.clearSlots machine.stack machine.top
                      (machine.top - count + max fn.locals count) } := by
                show (if _ then _ else _ : CheckedAct Unit) machine = _
                rw [if_pos ⟨hstart, Nat.le_of_not_lt hroom⟩]
                rfl
              have hdepth' : machine.depth < limits.maxFrames := by
                rw [← h.sameLimits]
                exact Nat.lt_of_not_le hdepth
              exact ⟨EStateM.bind_of_ok hclear,
                h.entered fn free hc hdepth' (Nat.le_of_not_lt hroom), trivial⟩

theorem safe_callBuiltin (h : machine.Bounded limits constants slots) (builtin : Builtin)
    {count : Nat} (hc : count < machine.top) :
    Safe limits constants slots (callBuiltin builtin count) (Act.callBuiltin builtin count) machine
      fun _ _ => True := by
  refine safe_get (.minus (Nat.le_of_lt hc) (.slice (Nat.sub_le _ _) h.top_le ?_))
  dsimp only
  cases builtin.apply (machine.stack.extract (machine.top - count) machine.top).toList with
  | error misuse => exact safe_fail h nofun
  | ok value =>
      refine .minus hc ((safe_set ?_).bind fun _ _ h _ => h.safe_push value)
      have hdrop := h.drop (count + 1)
      exact ⟨hdrop.sameLimits, hdrop.sameConstants, hdrop.stack, hdrop.top, hdrop.depth,
        hdrop.frames, hdrop.globals⟩

theorem safe_call (h : machine.Bounded limits constants slots) (count : Nat) :
    Safe limits constants slots (call count) (Act.call count) machine fun _ _ => True := by
  have htop := h.top_le
  refine safe_get ?_
  split
  case isTrue => exact safe_fail h nofun
  case isFalse hshort =>
      have hc : count < machine.top := by omega
      refine .minus hc (.slot (by omega) ?_)
      dsimp only
      cases machine.stack[machine.top - (count + 1)]?.getD .null with
      | closure fn free => exact h.safe_enter fn free hc
      | builtin builtin => exact h.safe_callBuiltin builtin hc
      | _ => exact safe_fail h nofun

theorem safe_makeClosure (h : machine.Bounded limits constants slots) (index count : Nat) :
    Safe limits constants slots (makeClosure index count) (Act.makeClosure index count) machine
      fun _ _ => True := by
  refine safe_get ?_
  cases machine.constants[index]? with
  | none => exact safe_fail h nofun
  | some value =>
      cases value with
      | function fn =>
          exact (h.safe_popMany count).bind fun free _ h _ => h.safe_push (.closure fn free)
      | _ => exact safe_fail h nofun

theorem safe_binary (h : machine.Bounded limits constants slots)
    {operation : Value → Value → Except RuntimeError Value}
    (ho : ∀ left right, Except.Blames (operation left right)) :
    Safe limits constants slots (binary operation) (Act.binary operation) machine
      fun _ _ => True :=
  h.safe_pop.bind fun right _ h _ => h.safe_pop.bind fun left _ h _ =>
    h.safe_pushResult (ho left right)

theorem setGlobal (h : machine.Bounded limits constants slots) (index : Nat) (value : Value) :
    { machine with
      globals := machine.globals.setIfInBounds index value }.Bounded limits constants slots where
  sameLimits := h.sameLimits
  sameConstants := h.sameConstants
  stack := h.stack
  top := h.top
  depth := h.depth
  frames := h.frames
  globals := Array.size_setIfInBounds.trans h.globals

/-- Putting what an instruction refers to on the stack leaves a machine within its bounds. -/
theorem yields_operandValue (h : machine.Bounded limits constants slots) (op : Opcode)
    (operand : Nat) (value? : Option α) (value : α → Value) :
    (Act.operandValue op operand value? >>= fun found => Act.push (value found)).Yields machine
      (fun _ after => after.Bounded limits constants slots ∧ True)
      (fun error after => error ≠ .frameUnderflow ∧ after.Bounded limits constants slots) := by
  cases value? with
  | some found => exact (h.safe_push (value found)).yields
  | none => exact ⟨nofun, h⟩

theorem safe_perform (h : machine.Bounded limits constants slots) (op : Opcode) :
    Safe limits constants slots (perform op) (Act.perform op) machine fun _ _ => True := by
  cases op
  case pop =>
      refine h.safe_pop.bind fun value after h _ => safe_modify ?_
      split
      · exact ⟨h.sameLimits, h.sameConstants, h.stack, h.top, h.depth, h.frames, h.globals⟩
      · exact h
  case add | subtract | multiply | divide => exact h.safe_binary (Arithmetic.blames _)
  case equal | notEqual | greater => exact h.safe_binary (Comparison.blames _)
  case index => exact h.safe_binary ValueOver.blames_element
  case not => exact h.safe_pop.bind fun value _ h _ => h.safe_push _
  case negate => exact h.safe_pop.bind fun value _ h _ => h.safe_pushResult value.blames_negate
  case jumpUnless =>
      refine (h.safe_operand _).bind fun target _ h _ => h.safe_pop.bind fun value _ h _ => ?_
      split
      · exact ⟨rfl, h.goto target, trivial⟩
      · exact safe_pure h trivial
  case setGlobal =>
      refine (h.safe_operand _).bind fun index _ h _ => h.safe_pop.bind fun value _ h _ => ?_
      refine safe_get ?_
      split
      · exact safe_set (h.setGlobal index value)
      · exact safe_fail h nofun
  case setLocal =>
      refine (h.safe_operand _).bind fun index _ h _ => h.safe_pop.bind fun value _ h _ => ?_
      exact (h.safe_localSlot index).bind fun slot _ h hlt => h.safe_setSlot value hlt
  case getLocal =>
      refine (h.safe_operand _).bind fun index _ h _ => ?_
      refine (h.safe_localSlot index).bind fun slot after h hlt => ?_
      have hpush := h.safe_push (after.stack[slot]?.getD .null)
      exact .slot (Nat.lt_of_lt_of_le hlt h.top_le) ⟨hpush.same, hpush.yields⟩
  case array =>
      refine (h.safe_operand _).bind fun count _ h _ => ?_
      exact (h.safe_popMany count).bind fun elements _ h _ => h.safe_push _
  case hash =>
      refine (h.safe_operand _).bind fun count _ h _ => ?_
      exact (h.safe_popMany count).bind fun elements _ h _ =>
        h.safe_pushResult (Core.Collection.hash.blames elements)
  case call => exact (h.safe_operand _).bind fun count _ h _ => h.safe_call count
  case returnValue => exact h.safe_pop.bind fun value _ h _ => h.safe_leave value
  case returnNull => exact h.safe_leave .null
  case closure =>
      refine (h.safe_operand _).bind fun index _ h _ => ?_
      exact (h.safe_operand _).bind fun count _ h _ => h.safe_makeClosure index count
  case pushTrue | pushFalse | pushNull => exact h.safe_push _
  case currentClosure => exact ⟨rfl, .bind (Act.yields_get (h.safe_push _).yields)⟩
  case jump =>
      refine ⟨rfl, .bind ((h.safe_operand _).yields.mono fun target after h => ?_)⟩
      exact ⟨h.1.goto target, trivial⟩
  case constant | getGlobal | getFree =>
      refine ⟨rfl, .bind ((h.safe_operand _).yields.mono fun index after h => ?_)⟩
      exact .bind (Act.yields_get (h.1.yields_operandValue _ _ _ id))
  case getBuiltin =>
      refine ⟨rfl, .bind ((h.safe_operand _).yields.mono fun index after h => ?_)⟩
      exact h.1.yields_operandValue _ _ _ .builtin

/-- A step of a bounded machine does the same with checks as without them. -/
theorem safe_step (h : machine.Bounded limits constants slots) :
    Safe limits constants slots step Act.step machine fun _ _ => True := by
  refine h.safe_fetch.bind fun op? after h _ => ?_
  cases op? with
  | some op => exact (h.safe_perform op).bind fun _ _ h _ => safe_pure h trivial
  | none =>
      refine safe_get ?_
      split
      · exact safe_pure h trivial
      · exact (h.safe_leave .null).bind fun _ _ h _ => safe_pure h trivial

/-- A run of a bounded machine does the same with checks as without them, and leaves the machine
within its bounds. -/
theorem run (h : machine.Bounded limits constants slots) (steps : Nat) :
    machine.runChecked steps = some (machine.run steps) ∧
      (machine.run steps).machine.Bounded limits constants slots ∧
      ∀ after, machine.run steps ≠ .failed .frameUnderflow after := by
  induction steps generalizing machine with
  | zero => exact ⟨rfl, h, nofun⟩
  | succ steps ih =>
      have hsame := h.safe_step.same
      have hyields := h.safe_step.yields
      rw [CheckedAct.lift] at hsame
      rw [Act.Yields] at hyields
      rw [runChecked, Machine.run]
      cases hr : Act.step machine with
      | ok more after =>
          rw [hr] at hsame hyields
          rw [hsame]
          cases more with
          | true => exact ih hyields.1
          | false =>
              refine ⟨rfl, hyields.1, ?_⟩
              intro stopped hstopped
              cases hstopped
      | error error after =>
          rw [hr] at hsame hyields
          rw [hsame]
          refine ⟨rfl, hyields.2, ?_⟩
          rintro _ ⟨⟩
          exact hyields.1 rfl

end Machine.Bounded

end

namespace Machine

/-- The machine after several runs, each of which goes on where the one before has stopped, after an
error too. -/
def afterRuns (machine : Machine) (history : List Nat) : Machine :=
  history.foldl (fun machine steps => (machine.run steps).machine) machine

theorem Bounded.afterRuns {limits : Limits} {constants : Array Value} {slots : Nat}
    {machine : Machine} (h : machine.Bounded limits constants slots) (history : List Nat) :
    (machine.afterRuns history).Bounded limits constants slots := by
  induction history generalizing machine with
  | nil => exact h
  | cons steps history ih => exact ih (h.run steps).2.1

theorem bounded_start (bytecode : Bytecode) (limits : Limits) (globals : Array Value) :
    (start bytecode limits globals).Bounded limits bytecode.constants
      (max limits.globalsSize globals.size) where
  sameLimits := rfl
  sameConstants := rfl
  stack := Array.size_replicate
  top := Nat.zero_le _
  depth := Nat.le_max_left _ _
  frames := rfl
  globals := by
    rw [start, Array.size_append, Array.size_replicate]
    omega

/-- On arbitrary bytecode, after any number of runs, each of any number of steps, a machine is within
its bounds, and a further run comes out the same if every access is checked. It never lacks a
frame. -/
theorem run_inBounds (bytecode : Bytecode) (limits : Limits) (globals : Array Value)
    (history : List Nat) :
    let machine := (start bytecode limits globals).afterRuns history
    machine.Bounded limits bytecode.constants (max limits.globalsSize globals.size) ∧
      1 ≤ machine.depth ∧
      ∀ steps, machine.runChecked steps = some (machine.run steps) ∧
        ∀ after, machine.run steps ≠ .failed .frameUnderflow after := by
  intro machine
  have hb := (bounded_start bytecode limits globals).afterRuns history
  refine ⟨hb, Nat.le_add_left 1 _, fun steps => ?_⟩
  obtain ⟨hsame, -, hframes⟩ := hb.run steps
  exact ⟨hsame, hframes⟩

end Machine

end StackScript
