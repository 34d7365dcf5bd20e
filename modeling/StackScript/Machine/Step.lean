import StackScript.Builtin.Apply
import StackScript.Machine.Basic
import StackScript.Machine.Operator

/-!
# Running instructions

A step runs one instruction, or leaves a function at whose end no instruction is left. A program
ends at the end of its own stream.
-/

namespace StackScript.Act

/-- What an instruction refers to, or the error that it refers to nothing. -/
def operandValue (op : Opcode) (operand : Nat) : Option α → Act α
  | some value => return value
  | none => throw (.invalidOperand op.mnemonic operand)

/-- Put the result of an operation on the stack, or fail with its error. -/
def pushResult : Except RuntimeError Value → Act Unit
  | .ok value => push value
  | .error error => throw error

/-- Leave the running function with a value, which takes the place of the closure below the base of
the frame. -/
def leave (value : Value) : Act Unit := do
  let machine ← get
  match machine.callers with
  | [] => throw .returnOutsideFunction
  | caller :: callers =>
    set { machine with frame := caller, callers := callers, top := machine.frame.base - 1 }
    push value

/-- Set the slots from one position up to another to null. -/
def clearSlots (stack : Array Value) (start stop : Nat) : Array Value :=
  (List.range' start (stop - start)).foldl (fun stack slot => stack.setIfInBounds slot .null) stack

/-- Open a frame for a closure whose arguments lie on the stack. Its other locals start as null. -/
def enter (fn : Function) (free : List Value) (count : Nat) : Act Unit := do
  if count ≠ fn.parameters then throw (.wrongArgumentCount fn.parameters count)
  let machine ← get
  if machine.depth ≥ machine.limits.maxFrames then
    throw (.frameOverflow machine.limits.maxFrames)
  let base := machine.top - count
  let top := base + max fn.locals count
  if top > machine.stack.size then throw .stackOverflow
  set { machine with
    stack := clearSlots machine.stack machine.top top
    top := top
    frame := { fn, free, base }
    callers := machine.frame :: machine.callers }

/-- Apply a builtin to the arguments on the stack. -/
def callBuiltin (builtin : Builtin) (count : Nat) : Act Unit := do
  let machine ← get
  let arguments := (machine.stack.extract (machine.top - count) machine.top).toList
  match builtin.apply arguments with
  | .error misuse => throw (.builtin builtin.name misuse.message)
  | .ok value =>
    set { machine with
      top := machine.top - (count + 1)
      output := machine.output ++ builtin.printed arguments }
    push value

/-- Call the value below some arguments on the stack. -/
def call (count : Nat) : Act Unit := do
  let machine ← get
  if machine.top < count + 1 then throw .stackUnderflow
  match machine.stack[machine.top - (count + 1)]?.getD .null with
  | .closure fn free => enter fn free count
  | .builtin builtin => callBuiltin builtin count
  | value => throw (.notCallable value.typeName)

/-- Make a closure of a function of the constant pool and of the captured values on the stack. -/
def makeClosure (index count : Nat) : Act Unit := do
  match (← get).constants[index]? with
  | none => throw (.invalidOperand Opcode.closure.mnemonic index)
  | some (.function fn) =>
    let free ← popMany count
    push (.closure fn free)
  | some value => throw (.notAFunction value.render)

/-- Compute with the two values on top of the stack, the upper one on the right. -/
def binary (operation : Value → Value → Except RuntimeError Value) : Act Unit := do
  let right ← pop
  let left ← pop
  pushResult (operation left right)

/-- Run an instruction whose opcode has been read. -/
def perform (op : Opcode) : Act Unit := do
  match op with
  | .constant =>
    let index ← operand .word
    push (← operandValue op index (← get).constants[index]?)
  | .pop =>
    let value ← pop
    modify fun machine =>
      if machine.callers.isEmpty then { machine with lastPopped := value } else machine
  | .add => binary Arithmetic.add.apply
  | .subtract => binary Arithmetic.subtract.apply
  | .multiply => binary Arithmetic.multiply.apply
  | .divide => binary Arithmetic.divide.apply
  | .equal => binary Comparison.equal.apply
  | .notEqual => binary Comparison.notEqual.apply
  | .greater => binary Comparison.greater.apply
  | .pushTrue => push (.boolean true)
  | .pushFalse => push (.boolean false)
  | .pushNull => push .null
  | .not =>
    let value ← pop
    push (.boolean !value.isTruthy)
  | .negate =>
    let value ← pop
    pushResult value.negate
  | .jump => jump (← operand .word)
  | .jumpUnless =>
    let target ← operand .word
    let condition ← pop
    if !condition.isTruthy then jump target
  | .setGlobal =>
    let index ← operand .word
    let value ← pop
    let machine ← get
    if index < machine.globals.size then
      set { machine with globals := machine.globals.setIfInBounds index value }
    else throw (.invalidOperand op.mnemonic index)
  | .getGlobal =>
    let index ← operand .word
    push (← operandValue op index (← get).globals[index]?)
  | .setLocal =>
    let index ← operand .byte
    let value ← pop
    let slot ← localSlot index
    modify fun machine => { machine with stack := machine.stack.setIfInBounds slot value }
  | .getLocal =>
    let index ← operand .byte
    let slot ← localSlot index
    push ((← get).stack[slot]?.getD .null)
  | .getBuiltin =>
    let index ← operand .byte
    push (.builtin (← operandValue op index (Builtin.ofIndex? index)))
  | .getFree =>
    let index ← operand .byte
    push (← operandValue op index (← get).frame.free[index]?)
  | .currentClosure =>
    let frame := (← get).frame
    push (.closure frame.fn frame.free)
  | .array =>
    let count ← operand .word
    push (.array (← popMany count))
  | .hash =>
    let count ← operand .word
    pushResult (ValueOver.hashOf (← popMany count))
  | .index => binary ValueOver.element
  | .call => call (← operand .byte)
  | .returnValue => leave (← pop)
  | .returnNull => leave .null
  | .closure =>
    let index ← operand .word
    let count ← operand .byte
    makeClosure index count

/-- Run one instruction, or leave a function at its end. At the end of the program nothing is left
to run. -/
def step : Act Bool := do
  match ← fetch with
  | some op =>
    perform op
    return true
  | none =>
    if (← get).callers.isEmpty then return false
    leave .null
    return true

end StackScript.Act
