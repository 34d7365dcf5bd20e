import StackScript.Proofs.Simulation.Action

/-!
# Instructions of machines at a state

Each instruction does to a machine what the evaluation does to its state: values that operations
give are on the stack afterwards, errors are the same, and slots hold what has been stored.
-/

namespace StackScript

open StackScript.Core

namespace Instruction

/-- The only operand of an instruction stands behind its opcode. -/
theorem read_of_decode {code : Code} {next operand : Nat} {op : Opcode} {width : Width}
    (hd : decode code next = .ok ⟨op, [operand]⟩) (hw : op.widths = [width]) :
    width.read code (next + 1) = .ok operand := by
  obtain ⟨byte, -, hd⟩ := Except.bind_eq_ok_iff.mp hd
  obtain ⟨op', -, hd⟩ := Except.bind_eq_ok_iff.mp hd
  obtain ⟨operands, hr, hd⟩ := Except.bind_eq_ok_iff.mp hd
  obtain ⟨rfl, rfl⟩ : op' = op ∧ operands = [operand] := by simpa [pure, Except.pure] using hd
  rw [hw] at hr
  obtain ⟨value, hvalue, hr⟩ := Except.bind_eq_ok_iff.mp hr
  obtain ⟨values, -, hr⟩ := Except.bind_eq_ok_iff.mp hr
  obtain ⟨rfl, -⟩ : value = operand ∧ values = [] := by simpa [pure, Except.pure] using hr
  exact hvalue

/-- The operands of an instruction that makes a closure. -/
theorem read_of_decode_closure {code : Code} {next index count : Nat}
    (hd : decode code next = .ok ⟨.closure, [index, count]⟩) :
    Width.word.read code (next + 1) = .ok index ∧ Width.byte.read code (next + 3) = .ok count := by
  obtain ⟨byte, -, hd⟩ := Except.bind_eq_ok_iff.mp hd
  obtain ⟨op', -, hd⟩ := Except.bind_eq_ok_iff.mp hd
  obtain ⟨operands, hr, hd⟩ := Except.bind_eq_ok_iff.mp hd
  obtain ⟨rfl, rfl⟩ : op' = .closure ∧ operands = [index, count] := by
    simpa [pure, Except.pure] using hd
  obtain ⟨value, hvalue, hr⟩ := Except.bind_eq_ok_iff.mp hr
  obtain ⟨values, hvalues, hr⟩ := Except.bind_eq_ok_iff.mp hr
  obtain ⟨rfl, rfl⟩ : value = index ∧ values = [count] := by simpa [pure, Except.pure] using hr
  obtain ⟨value', hvalue', hr⟩ := Except.bind_eq_ok_iff.mp hvalues
  obtain ⟨values', -, hr⟩ := Except.bind_eq_ok_iff.mp hr
  obtain ⟨rfl, -⟩ : value' = count ∧ values' = [] := by simpa [pure, Except.pure] using hr
  exact ⟨hvalue, hvalue'⟩

end Instruction

namespace Act

theorem perform_unary (op : Unary) :
    perform op.opcode = pop >>= fun value => pushResult (op.apply value) := by
  cases op <;> rfl

theorem perform_binary (op : Binary) : perform op.opcode = Act.binary op.apply := by
  rcases op with (_ | _ | _ | _) | (_ | _ | _) | _ <;> rfl

theorem perform_collection (kind : Collection) : perform kind.opcode =
    operand .word >>= fun count => popMany count >>= fun values =>
      pushResult (kind.apply values) := by
  cases kind <;> rfl

end Act

/-- A machine has the value of an expression on its stack. -/
def Valued (setting : Setting) (site : Site) (temps : List Value) (next : Nat) (value : Datum)
    (state : State) (machine : Machine) : Prop :=
  ∃ top, setting.Stands value top ∧ At setting site state (temps ++ [top]) next machine

/-- A machine has run a statement. -/
def Done (setting : Setting) (site : Site) (temps : List Value) (next : Nat) (_ : PUnit)
    (state : State) (machine : Machine) : Prop :=
  At setting site state temps next machine

/-- A machine is about to leave the running function with a value: it gets where leaving gets. -/
def Leaving (setting : Setting) (site : Site) (value : Datum) (state : State)
    (machine : Machine) : Prop :=
  ∃ top, setting.Stands value top ∧ ∀ fail goal,
    (∀ temps next before, At setting site state temps next before →
      (Act.leave top).Yields before
        (fun _ after => Machine.Eventually setting.Sane fail goal after) fail) →
    Machine.Eventually setting.Sane fail goal machine

/-- Entering a closure with its arguments on the stack simulates what entering it means, and gives
back its value in their place. -/
def Enters (setting : Setting) (fuel : Nat) (enter : Enter) : Prop :=
  ∀ (site : Site) (state : State) (temps tops : List Value) (next : Nat) (machine : Machine)
    (original : FunctionOver Core.Block) (fn : Function) (captured : List Datum)
    (free : List Value) (arguments : List Datum) (leaving : Datum → State → Machine → Prop),
    site.Valid setting fuel →
    At setting site state (temps ++ .closure fn free :: tops) next machine →
    Implements setting.constants setting.names captured.length original fn →
    List.Forall₂ setting.Stands captured free →
    List.Forall₂ setting.Stands arguments tops →
    arguments.length = original.parameters →
    (Act.enter fn free tops.length).Yields machine
      (fun _ after => Simulates setting (enter original captured arguments state)
        (Valued setting site temps next) leaving after)
      (setting.Fails (enter original captured arguments state))

namespace At

open Act Instruction

variable {setting : Setting} {site : Site} {state : State} {temps : List Value} {next : Nat}
variable {machine : Machine} {fail : RuntimeError → Machine → Prop} {goal : Machine → Prop}
variable {leaving : Datum → State → Machine → Prop}

/-- A machine gets where its next instruction leads. -/
theorem step (h : At setting site state temps next machine) {op : Opcode} {operands : List Nat}
    (hd : decode site.fn.code next = .ok ⟨op, operands⟩)
    (hp : ∀ after, At setting site state temps (next + 1) after →
      (perform op).Yields after
        (fun _ after => Machine.Eventually setting.Sane fail goal after) fail) :
    Machine.Eventually setting.Sane fail goal machine := by
  apply Machine.Eventually.of_yields h.sane
  refine .bind (h.fetch hd fun after hafter => ?_)
  exact .bind ((hp after hafter).mono fun _ _ hrest => yields_pure ⟨rfl, hrest⟩)

/-- A value that is put on the stack is that of the expression. -/
theorem pushValue (h : At setting site state temps next machine) {value : Datum} {top : Value}
    (hv : setting.Stands value top) :
    (Act.push top).Yields machine
      (fun _ after => Simulates setting (.ok value state) (Valued setting site temps next) leaving
        after)
      (setting.Fails (.ok value state : EStateM.Result Interrupt State Datum)) :=
  h.push (setting.allows_fails _ _ _ .stack) fun _ hafter => .now ⟨top, hv, hafter⟩

/-- The result of an operation is put on the stack, or its error is that of the evaluation. -/
theorem pushResult (h : At setting site state temps next machine)
    {result : Except RuntimeError Datum} {top : Except RuntimeError Value}
    (ha : Agree setting.Stands result top) :
    (Act.pushResult top).Yields machine
      (fun _ after => Simulates setting (ofExcept result state) (Valued setting site temps next)
        leaving after)
      (setting.Fails (ofExcept result state)) := by
  cases ha with
  | ok hv => exact h.pushValue hv
  | error error => exact .inl ⟨state, rfl, h.world⟩

/-- What an operation gives for the value on top of the stack is put in its place. -/
theorem applyUnary {top : Value} (h : At setting site state (temps ++ [top]) next machine)
    (op : Unary) (hd : decode site.fn.code next = .ok ⟨op.opcode, []⟩)
    (hp : ∀ after, At setting site state temps (next + op.opcode.size) after →
      (Act.pushResult (op.apply top)).Yields after
        (fun _ after => Machine.Eventually setting.Sane fail goal after) fail) :
    Machine.Eventually setting.Sane fail goal machine := by
  have hsize : op.opcode.size = 1 := by cases op <;> rfl
  rw [hsize] at hp
  apply h.step hd
  intro after hafter
  rw [perform_unary]
  exact .bind (hafter.pop fun after hafter => hp after hafter)

theorem unary {top : Value} (h : At setting site state (temps ++ [top]) next machine) (op : Unary)
    (hd : decode site.fn.code next = .ok ⟨op.opcode, []⟩) {value : Datum}
    (hv : setting.Stands value top) :
    Simulates setting (ofExcept (op.apply value) state)
      (Valued setting site temps (next + op.opcode.size)) leaving machine :=
  h.applyUnary op hd fun _ hafter => hafter.pushResult (op.apply_agree hv)

/-- What an operation gives for the two topmost values of the stack is put in their place. -/
theorem applyBinary {first second : Value}
    (h : At setting site state (temps ++ [first] ++ [second]) next machine) (op : Binary)
    (hd : decode site.fn.code next = .ok ⟨op.opcode, []⟩)
    (hp : ∀ after, At setting site state temps (next + op.opcode.size) after →
      (Act.pushResult (op.apply first second)).Yields after
        (fun _ after => Machine.Eventually setting.Sane fail goal after) fail) :
    Machine.Eventually setting.Sane fail goal machine := by
  have hsize : op.opcode.size = 1 := by rcases op with (_ | _ | _ | _) | (_ | _ | _) | _ <;> rfl
  rw [hsize] at hp
  apply h.step hd
  intro after hafter
  rw [perform_binary]
  refine .bind (hafter.pop fun after hafter => ?_)
  exact .bind (hafter.pop fun after hafter => hp after hafter)

theorem binary {first second : Value}
    (h : At setting site state (temps ++ [first] ++ [second]) next machine) (op : Binary)
    (hd : decode site.fn.code next = .ok ⟨op.opcode, []⟩) {left right : Datum}
    (hl : setting.Stands left first) (hr : setting.Stands right second) :
    Simulates setting (ofExcept (op.apply left right) state)
      (Valued setting site temps (next + op.opcode.size)) leaving machine :=
  h.applyBinary op hd fun _ hafter => hafter.pushResult (op.apply_agree hl hr)

/-- The collection of the topmost values of the stack is put in their place. -/
theorem applyCollect {tops : List Value} (h : At setting site state (temps ++ tops) next machine)
    (kind : Collection)
    (hd : decode site.fn.code next = .ok ⟨kind.opcode, [tops.length]⟩)
    (hp : ∀ after, At setting site state temps (next + kind.opcode.size) after →
      (Act.pushResult (kind.apply tops)).Yields after
        (fun _ after => Machine.Eventually setting.Sane fail goal after) fail) :
    Machine.Eventually setting.Sane fail goal machine := by
  have hsize : kind.opcode.size = 3 := by cases kind <;> rfl
  rw [hsize] at hp
  have hw : kind.opcode.widths = [.word] := by cases kind <;> rfl
  apply h.step hd
  intro after hafter
  rw [perform_collection]
  refine .bind (hafter.operand (read_of_decode hd hw) fun after hafter => ?_)
  exact .bind (hafter.popMany fun after hafter => hp after hafter)

theorem collect {tops : List Value} (h : At setting site state (temps ++ tops) next machine)
    (kind : Collection)
    (hd : decode site.fn.code next = .ok ⟨kind.opcode, [tops.length]⟩) {values : List Datum}
    (hv : List.Forall₂ setting.Stands values tops) :
    Simulates setting (ofExcept (kind.apply values) state)
      (Valued setting site temps (next + kind.opcode.size)) leaving machine :=
  h.applyCollect kind hd fun _ hafter => hafter.pushResult (kind.apply_agree hv)

/-- A constant is put on the stack. -/
theorem pushConstant (h : At setting site state temps next machine) {index : Nat}
    (hd : decode site.fn.code next = .ok ⟨.constant, [index]⟩) {top : Value}
    (hc : setting.constants[index]? = some top)
    (hp : ∀ after, At setting site state temps (next + 3) after →
      (Act.push top).Yields after
        (fun _ after => Machine.Eventually setting.Sane fail goal after) fail) :
    Machine.Eventually setting.Sane fail goal machine := by
  apply h.step hd
  intro after hafter
  refine .bind (hafter.operand (read_of_decode hd rfl) fun after hafter => ?_)
  refine .bind (yields_get ?_)
  rw [hafter.world.constants, hc]
  exact .bind (yields_pure (hp after hafter))

theorem constant (h : At setting site state temps next machine) {index : Nat}
    (hd : decode site.fn.code next = .ok ⟨.constant, [index]⟩) {value : Datum} {top : Value}
    (hc : setting.constants[index]? = some top) (hv : setting.Stands value top) :
    Simulates setting (.ok value state) (Valued setting site temps (next + 3)) leaving machine :=
  h.pushConstant hd hc fun _ hafter => hafter.pushValue hv

theorem boolean (h : At setting site state temps next machine) (value : Bool)
    (hd : decode site.fn.code next = .ok ⟨if value then .pushTrue else .pushFalse, []⟩) :
    Simulates setting (.ok (.boolean value) state)
      (Valued setting site temps (next + (if value then Opcode.pushTrue else .pushFalse).size))
      leaving machine := by
  cases value with
  | true => exact h.step hd fun after hafter => hafter.pushValue (.boolean true)
  | false => exact h.step hd fun after hafter => hafter.pushValue (.boolean false)

theorem pushNull (h : At setting site state temps next machine)
    (hd : decode site.fn.code next = .ok ⟨.pushNull, []⟩) :
    Simulates setting (.ok .null state) (Valued setting site temps (next + 1)) leaving machine :=
  h.step hd fun _ hafter => hafter.pushValue .null

/-- Loading a global. It is only out of reach if more globals have names than slots. -/
theorem loadGlobal (h : At setting site state temps next machine) {index : Nat}
    (hn : index < setting.names) (hd : decode site.fn.code next = .ok ⟨.getGlobal, [index]⟩) :
    Simulates setting (.ok (state.globals index) state) (Valued setting site temps (next + 3))
      leaving machine := by
  apply h.step hd
  intro after hafter
  refine .bind (hafter.operand (read_of_decode hd rfl) fun after hafter => ?_)
  refine .bind (yields_get ?_)
  have hstands := hafter.world.globals index
  cases hg : after.globals[index]? with
  | none =>
      have hsize : setting.slots ≤ index := by
        rw [← hafter.world.slots]
        exact Array.getElem?_eq_none_iff.mp hg
      exact .bind (yields_throw (setting.allows_fails _ _ _ (.getGlobal hsize hn) hafter.sane))
  | some top =>
      rw [hg] at hstands
      exact .bind (yields_pure (hafter.pushValue hstands))

theorem loadLocal (h : At setting site state temps next machine) {index : Nat}
    (hi : index < state.locals.length)
    (hd : decode site.fn.code next = .ok ⟨.getLocal, [index]⟩) :
    Simulates setting (.ok (state.locals[index]?.getD .null) state)
      (Valued setting site temps (next + 2)) leaving machine := by
  apply h.step hd
  intro after hafter
  refine .bind (hafter.operand (read_of_decode hd rfl) fun after hafter => ?_)
  refine .bind (hafter.localSlot hi fun top hget hstands => ?_)
  refine .bind (yields_get ?_)
  rw [hget]
  exact hafter.pushValue hstands

theorem loadBuiltin (h : At setting site state temps next machine) {index : Nat}
    {builtin : Builtin} (hb : Builtin.ofIndex? index = some builtin)
    (hd : decode site.fn.code next = .ok ⟨.getBuiltin, [index]⟩) :
    Simulates setting (.ok (.builtin builtin) state) (Valued setting site temps (next + 2)) leaving
      machine := by
  apply h.step hd
  intro after hafter
  refine .bind (hafter.operand (read_of_decode hd rfl) fun after hafter => ?_)
  rw [hb]
  refine .bind (yields_pure ?_)
  exact hafter.pushValue (.builtin builtin)

/-- Loading a value that the running closure has captured. -/
theorem loadFree (h : At setting site state temps next machine) {index : Nat}
    {captured : List Datum} (hfree : List.Forall₂ setting.Stands captured site.free)
    (hi : index < captured.length) (hd : decode site.fn.code next = .ok ⟨.getFree, [index]⟩) :
    Simulates setting (.ok captured[index] state) (Valued setting site temps (next + 2)) leaving
      machine := by
  have hrel := Related.getElem? hfree index
  rw [List.getElem?_eq_getElem hi] at hrel
  apply h.step hd
  intro after hafter
  refine .bind (hafter.operand (read_of_decode hd rfl) fun after hafter => ?_)
  refine .bind (yields_get ?_)
  rw [hafter.frame]
  generalize site.free[index]? = top? at hrel
  cases hrel with
  | some hstands => exact .bind (yields_pure (hafter.pushValue hstands))

/-- Loading the running closure itself. -/
theorem loadClosure (h : At setting site state temps next machine)
    {original : FunctionOver Core.Block} {captured : List Datum}
    (hi : Implements setting.constants setting.names captured.length original site.fn)
    (hfree : List.Forall₂ setting.Stands captured site.free)
    (hd : decode site.fn.code next = .ok ⟨.currentClosure, []⟩) :
    Simulates setting (.ok (.closure original captured) state)
      (Valued setting site temps (next + 1)) leaving machine := by
  apply h.step hd
  intro after hafter
  refine .bind (yields_get ?_)
  rw [hafter.frame]
  exact hafter.pushValue (.closure hi hfree)

/-- Loading what a symbol stands for. -/
theorem load {fuel : Nat} (hs : site.Valid setting fuel)
    (h : At setting site state temps next machine) {symbol : Symbol}
    (hf : symbol.Fits (site.self.bounds setting.names))
    (hd : decode site.fn.code next = .ok symbol.load) :
    Simulates setting (.ok (site.self.read state symbol) state)
      (Valued setting site temps (next + symbol.load.size)) leaving machine := by
  obtain ⟨name, place, index⟩ := symbol
  cases place with
  | global =>
      rw [Symbol.Fits, site.self.names_bounds] at hf
      exact h.loadGlobal hf hd
  | «local» => exact h.loadLocal (Nat.lt_of_lt_of_le hf (h.admits.le _)) hd
  | builtin =>
      obtain ⟨builtin, hb⟩ : ∃ builtin, Builtin.ofIndex? index = some builtin :=
        ⟨_, List.getElem?_eq_getElem hf⟩
      have hread : site.self.read state ⟨name, .builtin, index⟩ = .builtin builtin := by
        simp [Activation.read, hb]
      rw [hread]
      exact h.loadBuiltin hb hd
  | free =>
      cases hself : site.self with
      | program =>
          rw [hself] at hf
          exact absurd hf (Nat.not_lt_zero index)
      | call original captured =>
          rw [hself] at hf
          obtain ⟨-, -, hfree⟩ := hs.call original captured hself
          have hread : Activation.read (.call original captured) state ⟨name, .free, index⟩ =
              captured[index] := by
            simp [Activation.read, List.getElem?_eq_getElem hf]
          rw [hread]
          exact h.loadFree hfree hf hd
  | function =>
      cases hself : site.self with
      | program =>
          rw [hself] at hf
          exact absurd hf Bool.false_ne_true
      | call original captured =>
          obtain ⟨-, himplements, hfree⟩ := hs.call original captured hself
          exact h.loadClosure himplements hfree hd

/-- Storing a value in the slot of a variable. -/
theorem store {top : Value} (h : At setting site state (temps ++ [top]) next machine)
    {symbol : Symbol} (hv : symbol.IsVariable)
    (hf : symbol.Fits (site.self.bounds setting.names))
    (hd : decode site.fn.code next = .ok symbol.store) {value : Datum}
    (hs : setting.Stands value top) :
    Simulates setting (.ok () (state.write symbol value))
      (Done setting site temps (next + symbol.store.size)) leaving machine := by
  obtain ⟨name, place, index⟩ := symbol
  rcases hv with rfl | rfl
  · have hn : index < setting.names := by
      rw [← site.self.names_bounds setting.names]
      exact hf
    apply h.step hd
    intro after hafter
    refine .bind (hafter.operand (read_of_decode hd rfl) fun after hafter => ?_)
    refine .bind (hafter.pop fun after hafter => ?_)
    refine .bind (yields_get ?_)
    split
    case isTrue hlt => exact yields_set (.now (hafter.setGlobal hs hlt))
    case isFalse hge =>
        have hsize : setting.slots ≤ index := by
          rw [← hafter.world.slots]
          exact Nat.le_of_not_lt hge
        exact yields_throw (setting.allows_fails _ _ _ (.setGlobal hsize hn) hafter.sane)
  · apply h.step hd
    intro after hafter
    refine .bind (hafter.operand (read_of_decode hd rfl) fun after hafter => ?_)
    refine .bind (hafter.pop fun after hafter => ?_)
    have hlt := Nat.lt_of_lt_of_le hf (hafter.admits.le _)
    refine .bind (hafter.localSlot hlt fun _ _ _ => ?_)
    exact yields_modify (.now (hafter.setLocal hlt hs))

/-- A value that a statement discards. -/
theorem discard {fuel : Nat} (hs : site.Valid setting fuel) {top : Value}
    (h : At setting site state (temps ++ [top]) next machine)
    (hd : decode site.fn.code next = .ok ⟨.pop, []⟩) {value : Datum}
    (hv : setting.Stands value top) :
    Simulates setting (.ok () (site.self.discard value state))
      (Done setting site temps (next + 1)) leaving machine := by
  apply h.step hd
  intro after hafter
  refine .bind (hafter.pop fun after hafter => ?_)
  apply yields_modify
  apply Machine.Eventually.now
  obtain ⟨self, fn, free, below, callers⟩ := site
  cases self with
  | program =>
      have hcallers : after.callers.isEmpty = true := by
        rw [hafter.callers]
        simpa using hs.program rfl
      rw [if_pos hcallers]
      exact ⟨⟨hafter.world.constants, hafter.world.limits, hafter.world.slots,
        hafter.world.globals, hv, hafter.world.output⟩, hafter.frame, hafter.callers, hafter.room,
        hafter.admits, hafter.stack⟩
  | call original captured =>
      have hcallers : after.callers.isEmpty = false := by
        rw [hafter.callers]
        simpa using (hs.call original captured rfl).1
      rw [if_neg (by simp [hcallers])]
      exact hafter

/-- A value on which a jump depends. -/
theorem jumpUnless {top : Value} (h : At setting site state (temps ++ [top]) next machine)
    {target : Nat} (hd : decode site.fn.code next = .ok ⟨.jumpUnless, [target]⟩)
    (hg : ∀ after, At setting site state temps (if top.isTruthy then next + 3 else target) after →
      Machine.Eventually setting.Sane fail goal after) :
    Machine.Eventually setting.Sane fail goal machine := by
  apply h.step hd
  intro after hafter
  refine .bind (hafter.operand (read_of_decode hd rfl) fun after hafter => ?_)
  refine .bind (hafter.pop fun after hafter => ?_)
  cases ht : top.isTruthy with
  | true =>
      rw [ht] at hg
      exact yields_pure (hg _ hafter)
  | false =>
      rw [ht] at hg
      exact hafter.jump target fun after hafter => hg after hafter

theorem goto (h : At setting site state temps next machine) {target : Nat}
    (hd : decode site.fn.code next = .ok ⟨.jump, [target]⟩)
    (hg : ∀ after, At setting site state temps target after →
      Machine.Eventually setting.Sane fail goal after) :
    Machine.Eventually setting.Sane fail goal machine := by
  apply h.step hd
  intro after hafter
  refine .bind (hafter.operand (read_of_decode hd rfl) fun after hafter => ?_)
  exact hafter.jump target fun after hafter => hg after hafter

/-- A closure of captured values on the stack. -/
theorem makeClosure {tops : List Value} (h : At setting site state (temps ++ tops) next machine)
    {index : Nat} (hd : decode site.fn.code next = .ok ⟨.closure, [index, tops.length]⟩)
    {fn : Function} (hc : setting.constants[index]? = some (.function fn))
    {original : FunctionOver Core.Block} {captured : List Datum}
    (hi : Implements setting.constants setting.names captured.length original fn)
    (hv : List.Forall₂ setting.Stands captured tops) :
    Simulates setting (.ok (.closure original captured) state)
      (Valued setting site temps (next + 4)) leaving machine := by
  obtain ⟨hindex, hcount⟩ := read_of_decode_closure hd
  apply h.step hd
  intro after hafter
  refine .bind (hafter.operand hindex fun after hafter => ?_)
  refine .bind (hafter.operand hcount fun after hafter => ?_)
  refine .bind (yields_get ?_)
  rw [hafter.world.constants, hc]
  refine .bind (hafter.popMany fun after hafter => ?_)
  exact hafter.pushValue (.closure hi hv)

theorem returnValue {top : Value} (h : At setting site state (temps ++ [top]) next machine)
    (hd : decode site.fn.code next = .ok ⟨.returnValue, []⟩) {value : Datum}
    (hv : setting.Stands value top) : Leaving setting site value state machine := by
  refine ⟨top, hv, fun fail goal hleave => ?_⟩
  apply h.step hd
  intro after hafter
  exact .bind (hafter.pop fun after hafter => hleave _ _ _ hafter)

theorem returnNull (h : At setting site state temps next machine)
    (hd : decode site.fn.code next = .ok ⟨.returnNull, []⟩) :
    Leaving setting site .null state machine :=
  ⟨.null, .null, fun _ _ hleave => h.step hd fun _ hafter => hleave _ _ _ hafter⟩

/-- Applying a builtin to arguments on the stack. -/
theorem callBuiltin (builtin : Builtin) {top : Value} {tops : List Value}
    (h : At setting site state (temps ++ top :: tops) next machine) {arguments : List Datum}
    (ha : List.Forall₂ setting.Stands arguments tops) (enter : Enter) :
    (Act.callBuiltin builtin tops.length).Yields machine
      (fun _ after => Simulates setting (apply enter (.builtin builtin) arguments state)
        (Valued setting site temps next) leaving after)
      (setting.Fails (apply enter (.builtin builtin) arguments state)) := by
  obtain ⟨locals, hlocals, hstack⟩ := h.stack
  rw [List.append_cons, ← List.append_assoc] at hstack
  have hlabel : ∀ count original fn, Implements setting.constants setting.names count original fn →
      original.label = fn.label := by
    intro count original fn hi
    rw [FunctionOver.label, FunctionOver.label, hi.name, hi.parameters]
  refine .bind (yields_get ?_)
  have hagree := Related.builtin_apply builtin ha
  have hprinted := Related.printed_eq hlabel builtin ha
  simp only [Machine.extract_top h.room hstack, apply]
  generalize builtin.apply arguments = result at hagree ⊢
  generalize builtin.apply tops = result' at hagree ⊢
  cases hagree with
  | error misuse => exact yields_throw (.inl ⟨state, rfl, h.world⟩)
  | ok hv =>
      rw [← hprinted]
      exact .bind (yields_set ((h.drop.print (builtin.printed arguments)).pushValue hv))

/-- Applying a value to arguments on the stack. -/
theorem call {fuel : Nat} {enter : Enter} (he : Enters setting fuel enter)
    (hs : site.Valid setting fuel) {top : Value} {tops : List Value}
    (h : At setting site state (temps ++ top :: tops) next machine)
    (hd : decode site.fn.code next = .ok ⟨.call, [tops.length]⟩) {value : Datum}
    {arguments : List Datum} (hv : setting.Stands value top)
    (ha : List.Forall₂ setting.Stands arguments tops) :
    Simulates setting (apply enter value arguments state) (Valued setting site temps (next + 2))
      leaving machine := by
  apply h.step hd
  intro after hafter
  refine .bind (hafter.operand (read_of_decode hd rfl) fun after hafter => ?_)
  refine .bind (yields_get ?_)
  obtain ⟨locals, hlocals, hstack⟩ := hafter.stack
  rw [← List.append_assoc] at hstack
  have htop := hafter.room.top_eq hstack
  rw [List.length_cons] at htop
  rw [if_neg (by omega), Machine.getElem?_below hafter.room hstack]
  cases hv with
  | @closure original fn captured free hi hc =>
      by_cases hlen : arguments.length = original.parameters
      · have happly : apply enter (.closure original captured) arguments =
            enter original captured arguments := by rw [apply, if_pos hlen]
        rw [happly]
        exact he site state temps tops _ after original fn captured free arguments leaving hs hafter
          hi hc ha hlen
      · have happly : apply enter (.closure original captured) arguments =
            throw (.failed (.wrongArgumentCount original.parameters arguments.length)) := by
          rw [apply, if_neg hlen]
        have hcount : tops.length ≠ fn.parameters := by
          rwa [← ha.length_eq, ← hi.parameters]
        rw [happly, hi.parameters, ha.length_eq]
        simp only [Option.getD_some, Act.enter]
        rw [if_pos hcount]
        exact yields_throw (.inl ⟨state, rfl, hafter.world⟩)
  | builtin builtin => exact hafter.callBuiltin builtin ha enter
  | _ => exact yields_throw (.inl ⟨state, rfl, hafter.world⟩)

end At

end StackScript
