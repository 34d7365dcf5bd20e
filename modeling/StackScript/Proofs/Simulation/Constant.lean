import StackScript.Proofs.Core.Constant
import StackScript.Proofs.Simulation.Program

/-!
# Code of constant expressions

A machine that runs the code of a constant expression puts its value on the stack. It enters no call
and reads no global, so that it may only run out of slots on the stack: the other limits of a run do
not matter to it.
-/

namespace StackScript

open StackScript.Core Instruction

/-- The error says that the stack is full. -/
def Overflows (error : RuntimeError) (_ : Machine) : Prop :=
  error = .stackOverflow

/-- The code of an expression puts a value on the stack, unless the stack is full. -/
def Core.Expr.Leaves (setting : Setting) (core : Expr) (value : Value) : Prop :=
  ∀ (site : Site) (state : State) (temps : List Value) (start pool : Nat) (machine : Machine),
    site.Runs setting core.generate start pool → At setting site state temps start machine →
    Machine.Eventually setting.Sane Overflows
      (At setting site state (temps ++ [value]) (core.generate.stop start pool)) machine

namespace At

variable {setting : Setting} {site : Site} {state : State} {temps : List Value} {next : Nat}
variable {machine : Machine}

theorem pushOne (h : At setting site state temps next machine) (value : Value) :
    (Act.push value).Yields machine (fun _ after => Machine.Eventually setting.Sane Overflows
      (At setting site state (temps ++ [value]) next) after) Overflows :=
  h.push (fun _ => rfl) fun _ hafter => .now hafter

end At

namespace Core.Expr

variable {setting : Setting}

theorem leaves_constant {core : Expr} (constant : Constant)
    (h : core.generate = .constant constant) : core.Leaves setting constant.toValue := by
  intro site state temps start pool machine hr hat
  rw [h] at hr ⊢
  exact hat.pushConstant hr.carries.1 (hr.held 0 _ rfl) fun _ hafter => hafter.pushOne _

theorem leaves_boolean (value : Bool) : (Expr.boolean value).Leaves setting (.boolean value) := by
  intro site state temps start pool machine hr hat
  cases value with
  | true => exact hat.step hr.single fun _ hafter => hafter.pushOne _
  | false => exact hat.step hr.single fun _ hafter => hafter.pushOne _

theorem Leaves.unary {op : Unary} {argument : Expr} {value result : Value}
    (h : argument.Leaves setting value) (hr : op.apply value = .ok result) :
    (Expr.unary op argument).Leaves setting result := by
  intro site state temps start pool machine hruns hat
  refine (h site state temps start pool machine hruns.left hat).bind (fun _ _ => id) fun _ hat => ?_
  apply hat.applyUnary op hruns.right.single
  intro after hafter
  rw [hr, Expr.generate, Generator.stop_append]
  exact hafter.pushOne result

theorem Leaves.binary {op : Binary} {left right : Expr} {first second result : Value}
    (hl : left.Leaves setting first) (hs : right.Leaves setting second)
    (hr : op.apply first second = .ok result) :
    (Expr.binary op left right).Leaves setting result := by
  intro site state temps start pool machine hruns hat
  refine (hl site state temps start pool machine hruns.left.left hat).bind (fun _ _ => id)
    fun machine hat => ?_
  refine (hs site state _ _ _ machine hruns.left.right hat).bind (fun _ _ => id)
    fun machine hat => ?_
  have hd := hruns.right.single
  rw [Generator.stop_append] at hd
  apply hat.applyBinary op hd
  intro after hafter
  rw [hr, Expr.generate, Generator.stop_append, Generator.stop_append]
  exact hafter.pushOne result

/-- The code of several expressions puts their values on the stack one above the other. -/
theorem leaves_all {parts : List (Expr × Value)}
    (h : ∀ part ∈ parts, part.1.Leaves setting part.2) {site : Site} {state : State}
    {temps : List Value} {start pool : Nat} {machine : Machine}
    (hr : site.Runs setting (Expr.generateAll (parts.map Prod.fst)) start pool)
    (hat : At setting site state temps start machine) :
    Machine.Eventually setting.Sane Overflows
      (At setting site state (temps ++ parts.map Prod.snd)
        ((Expr.generateAll (parts.map Prod.fst)).stop start pool)) machine := by
  induction parts generalizing temps start pool machine with
  | nil =>
      rw [List.map_nil, List.append_nil]
      exact .now hat
  | cons part parts ih =>
      rw [List.forall_mem_cons] at h
      refine (h.1 site state temps start pool machine hr.left hat).bind (fun _ _ => id)
        fun after hat => ?_
      have hrest := ih h.2 hr.right hat
      rw [List.append_assoc] at hrest
      simp only [List.map_cons, Expr.generateAll, Generator.stop_append]
      exact hrest

theorem leaves_collect {kind : Collection} {parts : List (Expr × Value)} {result : Value}
    (h : ∀ part ∈ parts, part.1.Leaves setting part.2)
    (hr : kind.apply (parts.map Prod.snd) = .ok result) :
    (Expr.collect kind (parts.map Prod.fst)).Leaves setting result := by
  intro site state temps start pool machine hruns hat
  refine (leaves_all h hruns.left hat).bind (fun _ _ => id) fun _ hat => ?_
  have hd := hruns.right.single
  rw [List.length_map, ← List.length_map Prod.snd] at hd
  apply hat.applyCollect kind hd
  intro after hafter
  rw [hr, Expr.generate, Generator.stop_append]
  exact hafter.pushOne result

/-- The code of a constant expression puts its value on the stack. -/
theorem Computes.leaves {core : Expr} {value : Value} (h : core.Computes value) :
    core.Leaves setting value := by
  induction h with
  | integer value => exact leaves_constant (.integer value) rfl
  | text value => exact leaves_constant (.text value) rfl
  | boolean value => exact leaves_boolean value
  | unary _ hr ih => exact ih.unary hr
  | binary _ _ hr ihl ihs => exact ihl.binary ihs hr
  | collect _ hr ih => exact leaves_collect ih hr

end Core.Expr

/-- A machine has come to the end of a program, and this is the last value that it has discarded. -/
def Machine.EndedWith (value : Value) (machine : Machine) : Prop :=
  machine.lastPopped = value ∧ ∀ steps, machine.run (steps + 1) = .finished machine

/-- A machine on a program of one constant expression ends with its value. -/
theorem Setting.eventually_endedWith {setting : Setting} {core : Core.Expr} {value : Value}
    (hc : core.Computes value) {code : Code} {pool : Nat}
    (hr : (Site.main code).Runs setting (Core.Stmt.generateAll [.discard core]) 0 pool)
    (hstop : (Core.Stmt.generateAll [.discard core]).stop 0 pool = code.size) {state : State}
    {machine : Machine} (h : At setting (Site.main code) state [] 0 machine) :
    Machine.Eventually setting.Sane Overflows (Machine.EndedWith value) machine := by
  have hlast : core.generate.stop 0 pool + 1 = code.size := by
    rw [← hstop, Core.Stmt.generateAll, Core.Stmt.generate, Generator.stop_append,
      Generator.stop_append]
    rfl
  refine (hc.leaves (Site.main code) state [] 0 pool machine hr.left.left h).bind (fun _ _ => id)
    fun machine hat => ?_
  apply hat.step hr.left.right.single
  intro machine hat
  refine .bind (hat.pop fun machine hat => ?_)
  apply Act.yields_modify
  have hcallers : machine.callers.isEmpty = true := by
    rw [hat.callers]
    rfl
  have hend : machine.frame.fn.code[machine.frame.next]? = none := by
    rw [hat.frame]
    exact Array.getElem?_eq_none (Nat.le_of_eq hlast.symm)
  rw [if_pos hcallers]
  exact .now ⟨rfl, Machine.run_of_end hend hcallers⟩

/-- A run of a constant expression gives its value, unless the stack is full or it has not been given
enough steps. -/
theorem Program.run_constant {expr : Expr} {core : Core.Expr} {value : Value}
    (hres : expr.ResolvesTo core) (hc : core.Computes value) {before after : Assembly}
    {bytecode : Bytecode} (hr : before.Ready)
    (h : Program.compile [.expr expr] before = .ok (bytecode, after)) {limits : Limits}
    {globals : Array Value} (hsize : globals.size ≤ limits.globalsSize) {values : Nat → Datum}
    (hg : ∀ index : Nat,
      (before.setting limits).Stands (values index) (globals[index]?.getD .null)) :
    ∃ enough, ∀ steps,
      (∃ machine, (Machine.start bytecode limits globals).run steps = .finished machine ∧
        machine.lastPopped = value) ∨
      (∃ machine, (Machine.start bytecode limits globals).run steps =
        .failed .stackOverflow machine) ∨
      ((∃ machine, (Machine.start bytecode limits globals).run steps = .unfinished machine) ∧
        steps ≤ enough) := by
  obtain ⟨stmts, later, hresolve, -, hruns, hstop, hstart⟩ := Program.starts hr h hsize hg
  have hstmts : Stmt.resolveAll [.expr expr] before.scope = .ok ([.discard core], before.scope) := by
    simp [Stmt.resolveAll, Stmt.resolve, hres before.scope, bind, Except.bind, pure, Except.pure]
  obtain ⟨rfl, -⟩ := Prod.mk.inj (Except.ok.inj (hstmts.symm.trans hresolve))
  obtain ⟨enough, hrun⟩ := (Setting.eventually_endedWith hc hruns hstop hstart).run
  refine ⟨enough, fun steps => ?_⟩
  rcases hrun steps with ⟨hle, after, heq, -⟩ | ⟨error, after, heq, rfl⟩ |
    ⟨rest, after, heq, ⟨hvalue, hend⟩, hle⟩
  · exact .inr (.inr ⟨⟨after, heq⟩, hle⟩)
  · exact .inr (.inl ⟨after, heq⟩)
  · cases rest with
    | zero => exact .inr (.inr ⟨⟨after, heq⟩, by omega⟩)
    | succ rest => exact .inl ⟨after, heq.trans (hend rest), hvalue⟩

end StackScript
