import StackScript.Proofs.Core.Discard
import StackScript.Proofs.Session.Safety

/-!
# The value of a source

A source has the value of the last expression statement of its program, or null if it has none,
provided that the statements behind it are quiet. A block of a condition in them that discards a value
of its own takes the place of that value.
-/

namespace StackScript

namespace Core

theorem execAll_append (enter : Enter) (stmts others : List Stmt) :
    execAll enter (stmts ++ others) = execAll enter stmts >>= fun _ => execAll enter others := by
  induction stmts with
  | nil => exact (pure_bind _ _).symm
  | cons stmt stmts ih => rw [List.cons_append, execAll, execAll, ih, bind_assoc]

/-- An evaluation has a value if its parts do. -/
theorem exists_of_bind_eq_ok {first : Eval α} {next : α → Eval β} {state after : State} {value : β}
    (h : (first >>= next) state = .ok value after) :
    ∃ result middle, first state = .ok result middle ∧ next result middle = .ok value after := by
  change EStateM.bind first next state = .ok value after at h
  unfold EStateM.bind at h
  cases hr : first state with
  | ok result middle =>
      rw [hr] at h
      exact ⟨result, middle, rfl, h⟩
  | error interrupt middle =>
      rw [hr] at h
      cases h

theorem Quiet.discarded_eq {action : Eval α} (h : Quiet action) {state after : State} {value : α}
    (hr : action state = .ok value after) : after.discarded = state.discarded := by
  have hkept := h state
  rwa [hr] at hkept

/-- A program that comes to its end has run all its statements. -/
theorem exists_of_run_finished {fuel : Nat} {stmts : List Stmt} {world after : World}
    (h : run fuel stmts world = (.finished, after)) :
    ∃ state : State, execAll (enter fuel) stmts { world with locals := [] } = .ok () state ∧
      state.toWorld = after := by
  unfold run at h
  generalize execAll (enter fuel) stmts _ = result at h ⊢
  rcases result with ⟨⟨⟩, state⟩ | ⟨_ | _ | _, state⟩
  · exact ⟨state, rfl, congrArg Prod.snd h⟩
  · cases h
  · cases h
  · cases h

end Core

open StackScript.Core

namespace Program

/-- What comes of an expression behind some statements, in a scope and a world. -/
def resultBehind (fuel : Nat) (front : Program) (last : Expr) (scope : Scope) (world : World) :
    Except CompileError (EStateM.Result Interrupt State Datum) := do
  let (stmts, scope) ← Stmt.resolveAll front scope
  let (core, _) ← last.resolve scope
  let action : Eval Datum := do
    execAll (enter fuel) stmts
    core.eval (enter fuel) .program
  return action { world with locals := [] }

variable {fuel : Nat} {scope : Scope} {world after : World}

/-- A program leaves the value of its last expression statement if what follows is quiet. -/
theorem result_of_meaning {front back : Program} {last : Expr}
    (hq : ∀ stmt ∈ back, stmt.isQuiet false)
    (h : Program.meaning fuel (front ++ .expr last :: back) scope world =
      .ok (.finished, after)) :
    ∃ state, front.resultBehind fuel last scope world = .ok (.ok after.discarded state) := by
  obtain ⟨⟨stmts, later⟩, hresolve, hrun⟩ := Except.bind_eq_ok_iff.mp h
  obtain ⟨ended, hexec, rfl⟩ := exists_of_run_finished (Except.ok.inj hrun)
  obtain ⟨first, others, middle, hfront, hothers, rfl⟩ := Stmt.exists_of_resolveAll_append hresolve
  obtain ⟨⟨core, next⟩, hlast, hothers⟩ := Except.bind_eq_ok_iff.mp hothers
  obtain ⟨⟨second, final⟩, hback, hothers⟩ := Except.bind_eq_ok_iff.mp hothers
  obtain ⟨⟨value, found⟩, hvalue, hlast⟩ := Except.bind_eq_ok_iff.mp hlast
  obtain ⟨rfl, rfl⟩ := Prod.mk.inj (Except.ok.inj hothers)
  obtain ⟨rfl, rfl⟩ := Prod.mk.inj (Except.ok.inj hlast)
  rw [execAll_append] at hexec
  obtain ⟨⟨⟩, reached, hfirst, hexec⟩ := exists_of_bind_eq_ok hexec
  obtain ⟨⟨⟩, discarded, hdiscard, hsecond⟩ := exists_of_bind_eq_ok hexec
  obtain ⟨datum, evaluated, heval, hdiscard⟩ := exists_of_bind_eq_ok hdiscard
  obtain rfl : { evaluated with discarded := datum } = discarded := by
    cases hdiscard
    rfl
  -- What is run behind the expression statement keeps the value that this has discarded.
  have hkept : ended.discarded = datum :=
    (Program.quiet_resolveAll hq (quiet_enter fuel) hback).discarded_eq hsecond
  refine ⟨evaluated, ?_⟩
  rw [hkept]
  simp only [resultBehind, hfront, hvalue, bind, Except.bind, pure, Except.pure, EStateM.bind,
    hfirst]
  rw [heval]

/-- A program that is quiet leaves the value that has been discarded before. -/
theorem discarded_of_meaning {program : Program} (hq : ∀ stmt ∈ program, stmt.isQuiet false)
    (h : program.meaning fuel scope world = .ok (.finished, after)) :
    after.discarded = world.discarded := by
  obtain ⟨⟨stmts, later⟩, hresolve, hrun⟩ := Except.bind_eq_ok_iff.mp h
  obtain ⟨ended, hexec, rfl⟩ := exists_of_run_finished (Except.ok.inj hrun)
  exact (Program.quiet_resolveAll hq (quiet_enter fuel) hresolve).discarded_eq hexec

end Program

namespace Session

/-- A source that has a value was compiled, and its value is what its program has discarded last. -/
theorem Sound.meaning_of_value {session : Session} (hs : session.Sound) {source : String}
    {steps : Nat} {program : Program} {value : Value} (hp : Program.parse source = .ok program)
    (hv : (session.eval source steps).1.verdict = .value value) :
    ∃ values world,
      (∀ index : Nat, (session.assembly.setting session.limits).Stands (values index)
        (session.globals[index]?.getD .null)) ∧
      program.meaning session.limits.maxFrames session.assembly.scope { globals := values } =
        .ok (.finished, world) ∧
      ((session.eval source steps).2.assembly.setting session.limits).Stands world.discarded
        value := by
  obtain ⟨error, heq, -⟩ | ⟨program', bytecode, assembly, hparse, h, heq⟩ :=
    session.eval_cases source steps
  · rw [heq] at hv
    cases hv
  · obtain rfl : program = program' := Except.ok.inj (hp.symm.trans hparse)
    obtain ⟨values, hvalues⟩ := hs.globals
    obtain ⟨ending, hmeaning, enough, houtcome⟩ :=
      Program.outcome hs.ready h hs.size hvalues (Nat.le_succ _)
    have hout := (houtcome steps).1
    rw [heq] at hv ⊢
    dsimp only at hv ⊢
    cases hrun : (Machine.start bytecode session.limits session.globals).run steps with
    | finished machine =>
        rw [hrun] at hv hout
        cases hv
        cases hout with
        | finished hk ht hc => exact ⟨values, _, hvalues, hmeaning, hk.discarded⟩
    | failed error machine =>
        rw [hrun] at hv
        cases hv
    | unfinished machine =>
        rw [hrun] at hv
        cases hv

/-- The value of a source is that of the last expression statement of its program, and null if there
is none, whatever the session has evaluated before. The statements behind must be quiet, as their
values are if no block in them has an expression statement in front of its last statement. -/
theorem eval_value_of_last_expression (limits : Limits) (history : List (String × Nat))
    (source : String) (steps : Nat) :
    let session := ({ limits } : Session).afterAll history
    let assembly := (session.eval source steps).2.assembly
    ∀ program value, Program.parse source = .ok program →
      (session.eval source steps).1.verdict = .value value →
      ∃ globals : Nat → Datum,
        (∀ index : Nat, (session.assembly.setting limits).Stands (globals index)
          (session.globals[index]?.getD .null)) ∧
        (∀ front last back, program = front ++ .expr last :: back →
          (∀ stmt ∈ back, stmt.isQuiet false) →
          ∃ datum state, Program.resultBehind limits.maxFrames front last session.assembly.scope
              { globals } = .ok (.ok datum state) ∧
            (assembly.setting limits).Stands datum value) ∧
        ((∀ stmt ∈ program, stmt.isQuiet false) → value = .null) := by
  intro session assembly program value hparse hvalue
  have hs : session.Sound := (sound_initial limits).afterAll history
  have hlimits : session.limits = limits := limits_afterAll _ history
  obtain ⟨values, world, hvalues, hmeaning, hstands⟩ := hs.meaning_of_value hparse hvalue
  rw [hlimits] at hvalues hmeaning hstands
  refine ⟨values, hvalues, ?_, ?_⟩
  · rintro front last back rfl hquiet
    obtain ⟨state, hresult⟩ := Program.result_of_meaning hquiet hmeaning
    exact ⟨world.discarded, state, hresult, hstands⟩
  · intro hquiet
    have hnull : world.discarded = .null := Program.discarded_of_meaning hquiet hmeaning
    rw [hnull] at hstands
    cases hstands
    rfl

/-- The integer that a program begins with, and the statement that it ends with, where a name stands
between them and nothing else. -/
def integerNameThen? : Except SyntaxError Program → Option (Int64 × Stmt)
  | .ok [.expr (.integer value), .expr (.name _), stmt] => some (value, stmt)
  | _ => none

theorem exists_of_integerNameThen? {parsed : Except SyntaxError Program} {value : Int64} {stmt : Stmt}
    (h : integerNameThen? parsed = some (value, stmt)) :
    ∃ name, parsed = .ok [.expr (.integer value), .expr (.name name), stmt] := by
  unfold integerNameThen? at h
  split at h
  case h_1 =>
      cases h
      exact ⟨_, rfl⟩
  case h_2 => cases h

/-- The last expression statement reads a global of an earlier source, and a binding follows it. -/
theorem eval_value_of_last_expression_before_binding :
    let session := ({ limits := ⟨16, 8, 4⟩ } : Session).afterAll [("let a = 1;", 9)]
    let assembly := (session.eval "2; a; let b = [a];" 20).2.assembly
    ∃ name binding value globals datum state,
      Program.parse "2; a; let b = [a];" =
        .ok ([.expr (.integer 2)] ++ .expr (.name name) :: [binding]) ∧
      (session.eval "2; a; let b = [a];" 20).1.verdict = .value value ∧
      Program.resultBehind 8 [.expr (.integer 2)] (.name name) session.assembly.scope { globals } =
        .ok (.ok datum state) ∧
      (assembly.setting ⟨16, 8, 4⟩).Stands datum value := by
  intro session assembly
  have hshape : (integerNameThen? (Program.parse "2; a; let b = [a];")).map
      (fun found => (found.1, found.2.isQuiet false)) = some (2, true) := by
    decide +kernel
  have hverdict : (session.eval "2; a; let b = [a];" 20).1.verdict.ctorIdx = 0 := by decide +kernel
  obtain ⟨value, hvalue⟩ := Verdict.exists_of_ctorIdx hverdict
  obtain ⟨⟨two, binding⟩, hfound, hsame⟩ := Option.map_eq_some_iff.mp hshape
  obtain ⟨rfl, hquiet⟩ := Prod.mk.inj hsame
  obtain ⟨name, hprogram⟩ := exists_of_integerNameThen? hfound
  obtain ⟨globals, -, hlast, -⟩ := eval_value_of_last_expression ⟨16, 8, 4⟩
    [("let a = 1;", 9)] "2; a; let b = [a];" 20 _ value hprogram hvalue
  obtain ⟨datum, state, hresult, hstands⟩ := hlast [.expr (.integer 2)] (.name name) [binding] rfl
    (List.forall_mem_singleton.mpr hquiet)
  exact ⟨name, binding, value, globals, datum, state, hprogram, hvalue, hresult, hstands⟩

/-- The integer that a program begins with, where a binding follows it and nothing else. -/
def integerBinding? : Except SyntaxError Program → Option Int64
  | .ok [.expr (.integer value), .binding _ _] => some value
  | _ => none

theorem exists_of_integerBinding? {parsed : Except SyntaxError Program} {value : Int64}
    (h : integerBinding? parsed = some value) :
    ∃ name bound, parsed = .ok [.expr (.integer value), .binding name bound] := by
  unfold integerBinding? at h
  split at h
  case h_1 =>
      cases h
      exact ⟨_, _, rfl⟩
  case h_2 => cases h

/-- The integer that a source has as its value. -/
def integer? : Verdict → Option Int64
  | .value (.integer value) => some value
  | _ => none

theorem eq_of_integer? {verdict : Verdict} {value : Int64} (h : integer? verdict = some value) :
    verdict = .value (.integer value) := by
  unfold integer? at h
  split at h
  case h_1 =>
      cases h
      rfl
  case h_2 => cases h

/-- A value that is discarded in a block of a binding takes the place of that of the last expression
statement, which is 5. -/
theorem eval_value_discarded_in_block :
    (∃ name value, Program.parse "5; let x = if (true) \x7b 1; 2 \x7d;" =
      .ok [.expr (.integer 5), .binding name value]) ∧
    (({ limits := ⟨16, 8, 4⟩ } : Session).eval
      "5; let x = if (true) \x7b 1; 2 \x7d;" 20).1.verdict = .value (.integer 1) := by
  constructor
  · apply exists_of_integerBinding?
    decide +kernel
  · apply eq_of_integer?
    decide +kernel

end Session

end StackScript
