import StackScript.Proofs.Scope.Locals
import StackScript.Proofs.Session.Activations
import StackScript.Proofs.Session.Result

/-!
# Every call starts with fresh locals

The compiler gives the locals of a function their slots, and the machine lays out the arguments and
the nulls behind them by their numbers alone. The two agree if no parameter is listed twice: a
parameter then reads its own argument and every other local reads null, whatever the stack held,
until the activation stores it.

## Implementation notes

A parameter that is listed twice has one slot and takes two arguments. The locals behind it then lie
one slot below the place for their values, and read an argument that is not theirs.
-/

namespace StackScript

/-! ## Reading locals -/

namespace Machine

/-- The next step of the machine puts a value on the stack, if there is room for it. -/
def Reads (machine : Machine) (value : Value) : Prop :=
  Act.step machine =
    if machine.top < machine.stack.size then
      .ok true ((machine.goto (machine.frame.next + 2)).pushed value)
    else .error .stackOverflow (machine.goto (machine.frame.next + 2))

/-- In an activation that has just been entered, a local reads a value until it is stored. Only the
instructions of its own frame count as stores. -/
def ReadsUntilStored (entered : Machine) (index : Nat) (value : Value) : Prop :=
  ∀ inside, entered.During (fun before => before.depth = entered.depth →
      ¬ before.Writes (entered.frame.base + index)) inside →
    inside.depth = entered.depth →
    Instruction.decode inside.frame.fn.code inside.frame.next = .ok ⟨.getLocal, [index]⟩ →
    inside.Reads value

theorem reads_getLocal {machine : Machine} {index : Nat} {value : Value}
    (hd : Instruction.decode machine.frame.fn.code machine.frame.next = .ok ⟨.getLocal, [index]⟩)
    (ht : machine.frame.base + index < machine.top)
    (hv : machine.stack[machine.frame.base + index]? = some value) : machine.Reads value := by
  have hslot : Act.localSlot index (machine.goto (machine.frame.next + 2)) =
      .ok (machine.frame.base + index) (machine.goto (machine.frame.next + 2)) := by
    rw [Act.localSlot_apply]
    exact if_pos ht
  have hpush : Act.execute ⟨.getLocal, [index]⟩ (machine.goto (machine.frame.next + 2)) =
      Act.push value (machine.goto (machine.frame.next + 2)) := by
    show (Act.localSlot index >>= fun slot => get >>= fun machine : Machine =>
      Act.push (machine.stack[slot]?.getD .null)) _ = _
    rw [EStateM.bind_of_ok hslot]
    show Act.push (machine.stack[machine.frame.base + index]?.getD .null) _ = _
    rw [hv, Option.getD_some]
  have hstep : Act.step machine = (Act.execute ⟨.getLocal, [index]⟩ >>= fun _ => pure true)
      (machine.goto (machine.frame.next + 2)) := Act.step_of_decode hd
  rw [Act.push_apply] at hpush
  rw [Reads, hstep]
  by_cases hroom : machine.top < machine.stack.size
  · rw [if_pos hroom]
    rw [if_pos (by exact hroom)] at hpush
    exact EStateM.bind_of_ok hpush
  · rw [if_neg hroom]
    rw [if_neg (by exact hroom)] at hpush
    exact EStateM.bind_of_error hpush

variable {entered : Machine} {index : Nat} {value : Value}

/-- What a slot holds when a function is entered is read there until it is stored. -/
theorem Orderly.readsUntilStored (ho : entered.Orderly)
    (hi : entered.frame.base + index < entered.frame.floor)
    (hv : entered.stack[entered.frame.base + index]? = some value) :
    entered.ReadsUntilStored index value := by
  intro inside hinside hdepth hdecode
  obtain ⟨horderly, ⟨inner, own, hstacked⟩, hkept⟩ := hinside.stacked ho
  obtain rfl : inner = [] := by
    have hlength := hstacked.depth
    exact List.eq_nil_of_length_eq_zero (by omega)
  obtain ⟨hframe, -⟩ := hstacked.of_nil
  have hbase : inside.frame.base = entered.frame.base := by rw [hframe, hstacked.base_eq]
  have hfloor : inside.frame.floor = entered.frame.floor := by rw [hframe, hstacked.floor_eq]
  obtain ⟨height, htop, -⟩ := horderly.frames.stands.height
  refine reads_getLocal hdecode (by omega) ?_
  rw [hbase, hkept _ hi fun before hquiet hsame _ => hquiet hsame, hv]

end Machine

/-! ## Compiled functions -/

/-- The function that a literal is compiled to has the locals that its body has left in scope. -/
theorem Expr.locals_of_compile {name : Option String} {params : List String} {body : List Stmt}
    {before inner after : Assembly} {fn : Function}
    (hbody : Stmt.compileAll body (before.enterFunction name params) = .ok inner)
    (h : (Expr.function name params body).compile before = .ok after)
    (hc : after.constants.back? = some (.function fn)) :
    fn.parameters = params.length ∧ fn.locals = inner.scope.table.definitions ∧
      ∃ stmts, Stmt.resolveAll body (before.scope.enterFunction name params) =
        .ok (stmts, inner.scope) := by
  obtain ⟨stmts, hresolve, -⟩ :=
    Stmt.compileAll_emitsAll (compositional_compiles.statements body) hbody
  obtain ⟨core, hfunction, hgenerates⟩ := compositional_compiles.expression _ before after h
  obtain ⟨⟨stmts', scope⟩, hresolve', hfunction⟩ := Except.bind_eq_ok_iff.mp hfunction
  obtain ⟨rfl, rfl⟩ := Prod.mk.inj (Except.ok.inj (hresolve.symm.trans hresolve'))
  obtain ⟨rfl, -⟩ := Prod.mk.inj (Except.ok.inj hfunction)
  have hconstants := hgenerates.constants
  rw [Core.Expr.generate] at hconstants
  rw [hconstants] at hc
  let code := ((Core.Block.ofStmts stmts).generateBody 0 before.constants.size).code
  obtain rfl : Core.assembled ⟨name, code, inner.scope.table.definitions, params.length⟩ = fn := by
    simpa [Core.Generator.closure, Core.Constant.toValue] using hc
  exact ⟨rfl, rfl, stmts, hresolve⟩

/-! ## Calls -/

/-- Every call starts with fresh locals. Of a function literal that has been compiled, a parameter has
the slot of its argument if no name is listed twice up to it, and reads that argument until it is
stored. If no parameter is listed twice at all, every other local reads null until it is stored. -/
theorem call_starts_fresh (limits : Limits) (history : List (String × Nat)) {program : Program}
    {bytecode : Bytecode} {assembly : Assembly} {steps : Nat} {machine entered : Machine}
    {count k : Nat} {fn : Function} {free : List Value} {name : Option String}
    {params : List String} {body : List Stmt} {before inner after : Assembly}
    (hbody : Stmt.compileAll body (before.enterFunction name params) = .ok inner)
    (hliteral : (Expr.function name params body).compile before = .ok after)
    (hfn : after.constants.back? = some (.function fn))
    (h : program.compile (({ limits } : Session).afterAll history).assembly =
      .ok (bytecode, assembly))
    (hr : (Machine.start bytecode limits (({ limits } : Session).afterAll history).globals).run
      steps = .unfinished machine)
    (hd : Instruction.decode machine.frame.fn.code machine.frame.next = .ok ⟨.call, [count]⟩)
    (ht : machine.top = k + (count + 1)) (hc : machine.stack[k]? = some (.closure fn free))
    (hs : Act.step machine = .ok true entered) :
    (∀ index param, params[index]? = some param → (params.take (index + 1)).Nodup →
      inner.scope.table.find? param = some ⟨param, .local, index⟩ ∧
      ∃ argument, machine.stack[k + 1 + index]? = some argument ∧
        entered.ReadsUntilStored index argument) ∧
    (params.Nodup → ∀ other index, other ∉ params →
      inner.scope.table.find? other = some ⟨other, .local, index⟩ →
        entered.ReadsUntilStored index .null) := by
  have hmachine := Session.orderly_of_run h hr
  obtain ⟨ho, hframe, hcount, -, hsame, hfresh⟩ := hmachine.enters hd ht hc hs
  obtain ⟨hparameters, hlocals, stmts, hresolve⟩ := Expr.locals_of_compile hbody hliteral hfn
  have hbase : entered.frame.base = k + 1 := by rw [hframe]
  have hfloor : entered.frame.floor = k + 1 + max fn.locals fn.parameters := by
    rw [hframe, Frame.floor]
  refine ⟨fun index param hparam hnodup => ⟨Scope.binds_param hresolve hparam hnodup, ?_⟩, ?_⟩
  · have hindex : index < params.length := (List.getElem?_eq_some_iff.mp hparam).1
    have hroom : machine.top ≤ machine.stack.size := hmachine.room
    have hargument : k + 1 + index < machine.stack.size := by omega
    refine ⟨_, Array.getElem?_eq_getElem hargument, ho.readsUntilStored (by omega) ?_⟩
    rw [hbase, hsame _ (by omega)]
    exact Array.getElem?_eq_getElem hargument
  · intro hnodup other index hother hbinds
    obtain ⟨hbehind, hlt⟩ := Scope.local_behind_params hresolve hbinds hother hnodup
    refine ho.readsUntilStored (by omega) (hfresh _ (by omega) (by omega))

/-- A program calls with its fourth step, on an empty stack, the function that a literal is compiled
to. The second of its arguments is 5, and reading it comes first in the function, which has a third
local with the name "c". -/
def callsToRead (body : List Stmt) (program : Program) : Bool :=
  match Stmt.compileAll body (Assembly.initial.enterFunction none ["a", "b"]),
    (Expr.function none ["a", "b"] body).compile Assembly.initial,
    program.compile Assembly.initial with
  | .ok inner, .ok after, .ok (bytecode, _) =>
    match after.constants.back?, (Machine.start bytecode ⟨16, 8, 4⟩ #[]).run 3 with
    | some (ValueOver.function fn), .unfinished machine =>
      match Instruction.decode machine.frame.fn.code machine.frame.next, machine.stack[0]?,
        machine.stack[2]?, Act.step machine with
      | .ok ⟨.call, [2]⟩, some (ValueOver.closure callee _), some (ValueOver.integer 5),
        .ok true entered =>
        match Instruction.decode entered.frame.fn.code entered.frame.next with
        | .ok ⟨.getLocal, [1]⟩ =>
          decide (machine.top = 3 ∧ callee = fn ∧
            inner.scope.table.find? "c" = some ⟨"c", .local, 2⟩)
        | _ => false
      | _, _, _, _ => false
    | _, _ => false
  | _, _, _ => false

/-- A function reads its second parameter and then binds a name in a branch that is skipped. -/
theorem call_starts_fresh_skipped :
    let body : List Stmt := [.expr (.name "b"),
      .expr (.condition (.name "a") [.binding "c" (.integer 1)] none), .expr (.name "c")]
    ∃ bytecode assembly machine entered,
      Program.compile [.expr (.call (.function none ["a", "b"] body)
        [.boolean false, .integer 5])] Assembly.initial = .ok (bytecode, assembly) ∧
      (Machine.start bytecode ⟨16, 8, 4⟩ #[]).run 3 = .unfinished machine ∧
      Act.step machine = .ok true entered ∧ entered.Reads (.integer 5) ∧
      entered.ReadsUntilStored 2 .null := by
  intro body
  have hends : callsToRead body [.expr (.call (.function none ["a", "b"] body)
      [.boolean false, .integer 5])] = true := by
    decide +kernel
  unfold callsToRead at hends
  split at hends
  case h_2 => cases hends
  case h_1 inner after bytecode assembly hbody hliteral h =>
  split at hends
  case h_2 => cases hends
  case h_1 fn machine hfn hr =>
  split at hends
  case h_2 => cases hends
  case h_1 callee free entered hd hc hfive hs =>
  split at hends
  case h_2 => cases hends
  case h_1 hread =>
  obtain ⟨ht, rfl, hlocal⟩ := of_decide_eq_true hends
  obtain ⟨hparams, hlocals⟩ :=
    call_starts_fresh ⟨16, 8, 4⟩ [] hbody hliteral hfn h hr hd ht hc hs
  obtain ⟨-, argument, hargument, hreads⟩ := hparams 1 "b" rfl (by decide)
  obtain rfl : .integer 5 = argument := Option.some.inj (hfive.symm.trans hargument)
  refine ⟨bytecode, assembly, machine, entered, h, hr, hs, ?_, ?_⟩
  · exact hreads entered .enter rfl hread
  · exact hlocals (by decide) "c" 2 (by decide) hlocal

/-- Behind a parameter that is listed twice, the next one reads the argument before its own, and a
local that was never stored reads an argument. -/
theorem call_shifts_behind_repeated :
    (({ limits := ⟨16, 8, 4⟩ } : Session).eval "fn(a, a, b) \x7b b \x7d(1, 2, 3)" 20).1.verdict =
      .value (.integer 2) ∧
    (({ limits := ⟨16, 8, 4⟩ } : Session).eval
      "fn(a, a) \x7b if (false) \x7b let c = 1; \x7d; c \x7d(1, 2)" 20).1.verdict =
      .value (.integer 2) := by
  constructor
  · apply Session.eq_of_integer?
    decide +kernel
  · apply Session.eq_of_integer?
    decide +kernel

end StackScript
