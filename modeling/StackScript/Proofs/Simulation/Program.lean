import StackScript.Proofs.Assembly.WellFormed
import StackScript.Proofs.Simulation.Call

/-!
# Whole programs

A machine that is started on the code of a program, with globals that stand for those of a world,
ends as the program ends that is evaluated in that world, or at one of its limits. It has ended after
some number of steps, whichever of them it is.
-/

namespace StackScript

open StackScript.Core Instruction

/-- The site of a program, outside of all calls. -/
def Site.main (code : Code) : Site where
  self := .program
  fn := ⟨none, code, 0, 0⟩
  free := []
  below := []
  callers := []

theorem Site.valid_main {setting : Setting} {fuel : Nat} (h : setting.limits.maxFrames ≤ fuel + 1)
    (code : Code) : (Site.main code).Valid setting fuel where
  depth := by
    rw [Nat.add_comm] at h
    simpa [Site.main] using h
  program _ := rfl
  call := nofun

/-- Running statements one after the other is simulated by their code. -/
theorem Core.Stmt.execAll_simulated {setting : Setting} {fuel : Nat} {code : Code}
    (hv : (Site.main code).Valid setting fuel) {stmts : List Stmt}
    (hf : ∀ stmt ∈ stmts, stmt.Fits (.outside setting.names)) {state : State} {start pool : Nat}
    {machine : Machine} (hr : (Site.main code).Runs setting (Stmt.generateAll stmts) start pool)
    (h : At setting (Site.main code) state [] start machine) :
    Simulates setting (execAll (enter fuel) stmts state)
      (Done setting (Site.main code) [] ((Stmt.generateAll stmts).stop start pool))
      (Leaving setting (Site.main code)) machine := by
  induction stmts generalizing state start pool machine with
  | nil => exact .now h
  | cons stmt stmts ih =>
      rw [List.forall_mem_cons] at hf
      have hfirst := (compositional_simulated (enters setting fuel)).statement stmt
        (Site.main code) state [] start pool machine hv hf.1 hr.left h
      apply Simulates.bind hfirst
      rintro _ state machine ⟨-, h⟩
      rw [Stmt.generateAll, Generator.stop_append]
      exact ih hf.2 hr.right h

/-- How a machine has come out that runs a program: as the program ends, at a limit, or not yet. -/
inductive Setting.Outcome (setting : Setting) : Ending × World → Run → Prop
  | finished {world : World} {machine : Machine} (hk : setting.Keeps world machine)
    (ht : machine.top = 0) (hc : machine.callers = []) :
    Outcome setting (.finished, world) (.finished machine)
  | failed {world : World} {error : RuntimeError} {machine : Machine}
    (hk : setting.Keeps world machine) :
    Outcome setting (.failed error, world) (.failed error machine)
  | limit {ending : Ending × World} {error : RuntimeError} {machine : Machine}
    (hl : setting.Limit error) (hs : setting.Sane machine) :
    Outcome setting ending (.failed error machine)
  | unfinished {ending : Ending × World} {machine : Machine} (hs : setting.Sane machine) :
    Outcome setting ending (.unfinished machine)

namespace Setting

variable {setting : Setting}

theorem Outcome.sane {ending : Ending × World} {run : Run} (h : setting.Outcome ending run) :
    setting.Sane run.machine := by
  cases h with
  | finished hk ht hc => exact hk.sane
  | failed hk => exact hk.sane
  | limit hl hs => exact hs
  | unfinished hs => exact hs

end Setting

/-- Outside of all calls a machine ends where the code does. -/
theorem Machine.run_of_end {machine : Machine}
    (hn : machine.frame.fn.code[machine.frame.next]? = none)
    (hc : machine.callers.isEmpty = true) (steps : Nat) :
    machine.run (steps + 1) = .finished machine := by
  have hstep : Act.step.Yields machine (fun more after => more = false ∧ after = machine)
      fun _ _ => False := by
    refine .bind (.bind (Act.yields_get ?_))
    simp only [hn]
    refine Act.yields_pure (.bind (Act.yields_get ?_))
    rw [if_pos hc]
    exact Act.yields_pure ⟨rfl, rfl⟩
  unfold Act.Yields at hstep
  cases hr : Act.step machine with
  | ok more after =>
      rw [hr] at hstep
      obtain ⟨rfl, rfl⟩ := hstep
      rw [Machine.run, hr]
  | error error after =>
      rw [hr] at hstep
      exact hstep.elim

namespace At

variable {setting : Setting} {code : Code} {state : State} {machine : Machine}

/-- A machine at the end of its program ends with its next step. -/
theorem finish (h : At setting (Site.main code) state [] code.size machine) (steps : Nat) :
    machine.run (steps + 1) = .finished machine := by
  apply Machine.run_of_end
  · rw [h.frame]
    exact Array.getElem?_eq_none (Nat.le_refl _)
  · rw [h.callers]
    rfl

/-- A machine between two statements of a program has nothing on its stack. -/
theorem top_eq {next : Nat} (h : At setting (Site.main code) state [] next machine) :
    machine.top = 0 := by
  obtain ⟨locals, hlocals, hstack⟩ := h.stack
  have hnone : state.locals = [] := h.admits
  rw [hnone] at hlocals
  cases hlocals
  simpa [Site.main] using h.room.top_eq hstack

/-- A program cannot return. -/
theorem returnOutside {top : Value} {temps : List Value} {next : Nat}
    (h : At setting (Site.main code) state temps next machine)
    {post : PUnit → Machine → Prop} {fail : RuntimeError → Machine → Prop}
    (hf : fail .returnOutsideFunction machine) : (Act.leave top).Yields machine post fail := by
  refine .bind (Act.yields_get ?_)
  rw [h.callers]
  exact Act.yields_throw hf

end At

/-- A machine comes to the end of the code of some statements, or fails as they do. -/
theorem Setting.eventually_ends {setting : Setting} {fuel : Nat}
    (hfuel : setting.limits.maxFrames ≤ fuel + 1) {stmts : List Core.Stmt}
    (hf : ∀ stmt ∈ stmts, stmt.Fits (.outside setting.names)) {code : Code} {pool : Nat}
    (hr : (Site.main code).Runs setting (Core.Stmt.generateAll stmts) 0 pool)
    (hstop : (Core.Stmt.generateAll stmts).stop 0 pool = code.size) {world : World}
    {machine : Machine}
    (h : At setting (Site.main code) { world with locals := [] } [] 0 machine) :
    Machine.Eventually setting.Sane
      (fun error after => setting.Outcome (run fuel stmts world) (.failed error after))
      (fun after => ∃ state : State, run fuel stmts world = (.finished, state.toWorld) ∧
        At setting (Site.main code) state [] code.size after) machine := by
  have hs := Core.Stmt.execAll_simulated (Site.valid_main hfuel code) hf hr h
  rw [hstop] at hs
  refine Machine.Eventually.bind hs ?_ ?_
  · rintro error after (⟨state, heq, hkeeps⟩ | ⟨hlimit, hsane⟩)
    · have hrun : run fuel stmts world = (.failed error, state.toWorld) := by rw [run, heq]
      rw [hrun]
      exact .failed hkeeps
    · exact .limit hlimit hsane
  · intro after hreached
    unfold run
    generalize execAll (enter fuel) stmts _ = result at hreached
    rcases result with ⟨⟨⟩, state⟩ | ⟨value | error | _, state⟩
    · exact .now ⟨state, rfl, hreached⟩
    · obtain ⟨top, -, hleave⟩ := hreached
      apply hleave _ _
      intro temps next before hbefore
      exact hbefore.returnOutside (.failed hbefore.world)
    · exact hreached.elim
    · exact hreached.elim

/-- With enough steps the run of a program is not unfinished. -/
theorem Setting.outcome_of_eventually {setting : Setting} {ending : Ending × World} {code : Code}
    {machine : Machine}
    (h : Machine.Eventually setting.Sane
      (fun error after => setting.Outcome ending (.failed error after))
      (fun after => ∃ state : State, ending = (.finished, state.toWorld) ∧
        At setting (Site.main code) state [] code.size after) machine) :
    ∃ enough, ∀ steps, setting.Outcome ending (machine.run steps) ∧
      ∀ after, machine.run steps = .unfinished after → steps ≤ enough := by
  obtain ⟨enough, hrun⟩ := h.run
  refine ⟨enough, fun steps => ?_⟩
  rcases hrun steps with ⟨hle, after, heq, hsane⟩ | ⟨error, after, heq, hfail⟩ |
    ⟨rest, after, heq, ⟨state, rfl, hat⟩, hle⟩
  · rw [heq]
    exact ⟨.unfinished hsane, fun _ _ => hle⟩
  · rw [heq]
    exact ⟨hfail, nofun⟩
  · rw [heq]
    cases rest with
    | zero =>
        rw [Nat.zero_add] at hle
        exact ⟨.unfinished hat.sane, fun _ _ => hle⟩
    | succ rest =>
        rw [hat.finish]
        exact ⟨.finished hat.world hat.top_eq hat.callers, nofun⟩

/-! ## From the start -/

/-- What a machine has in common with all others that run code of an assembly. -/
def Assembly.setting (assembly : Assembly) (limits : Limits) : Setting where
  constants := assembly.constants
  limits := limits
  names := assembly.scope.table.definitions
  slots := limits.globalsSize

/-- Values stand for the same when constants and names are added. -/
theorem Assembly.Links.stands {before after : Assembly} {streams : List (List Instruction)}
    {added : List Constant} (h : before.Links streams added after) {limits : Limits} {value : Datum}
    {top : Value} (hv : (before.setting limits).Stands value top) :
    (after.setting limits).Stands value top := by
  have hextends : Extends before.constants after.constants := by
    rw [h.constants]
    exact extends_append _ _
  exact hv.mono (fun _ _ _ hi => hi.mono hextends h.grows) _ _

/-- The code of a compiled program is what is generated for it, and a machine that goes on with the
globals that others have left stands at the start of it. -/
theorem Program.starts {program : Program} {before after : Assembly} {bytecode : Bytecode}
    (hr : before.Ready) (h : program.compile before = .ok (bytecode, after)) {limits : Limits}
    {globals : Array Value} (hsize : globals.size ≤ limits.globalsSize) {values : Nat → Datum}
    (hg : ∀ index : Nat,
      (before.setting limits).Stands (values index) (globals[index]?.getD .null)) :
    ∃ stmts later, Stmt.resolveAll program before.scope = .ok (stmts, later) ∧
      (∀ stmt ∈ stmts, stmt.Fits (.outside (after.setting limits).names)) ∧
      (Site.main bytecode.code).Runs (after.setting limits) (Core.Stmt.generateAll stmts) 0
        before.constants.size ∧
      (Core.Stmt.generateAll stmts).stop 0 before.constants.size = bytecode.code.size ∧
      At (after.setting limits) (Site.main bytecode.code) { globals := values, locals := [] } [] 0
        (Machine.start bytecode limits globals) := by
  obtain ⟨stmts, hresolve, henc, hcode, hconstants, hafter⟩ := Program.compile_generates hr.empty h
  obtain ⟨code, added, hlinks, -, hpool⟩ := hr.links_of_compile h
  obtain ⟨-, -, hfits⟩ := hr.resolve_fits hresolve
  refine ⟨stmts, after.scope, hresolve, hfits, ⟨henc, ?_, ?_⟩, ?_, ?_⟩
  · rw [Assembly.setting, ← hpool, hconstants]
    exact held_append _ _
  · rw [Site.main, hcode]
    exact Code.carries_ofInstructions henc.code
  · rw [hcode, Code.size_ofInstructions henc.code, Generator.stop, Nat.zero_add]
  · refine ⟨⟨hpool, rfl, Machine.size_globals_start bytecode hsize, ?_, .null, rfl⟩, rfl, rfl,
      Nat.zero_le _, rfl, [], .nil, rfl⟩
    intro index
    rw [Machine.getD_globals_start]
    exact hlinks.stands (hg index)

/-- Compiled programs do what they mean: a machine that goes on with the globals that others have
left ends as the program ends, or at a limit. -/
theorem Program.outcome {program : Program} {before after : Assembly} {bytecode : Bytecode}
    (hr : before.Ready) (h : program.compile before = .ok (bytecode, after)) {limits : Limits}
    {globals : Array Value} (hsize : globals.size ≤ limits.globalsSize) {values : Nat → Datum}
    (hg : ∀ index : Nat,
      (before.setting limits).Stands (values index) (globals[index]?.getD .null))
    {fuel : Nat} (hfuel : limits.maxFrames ≤ fuel + 1) :
    ∃ ending, program.meaning fuel before.scope { globals := values } = .ok ending ∧
      ∃ enough, ∀ steps,
        (after.setting limits).Outcome ending ((Machine.start bytecode limits globals).run steps) ∧
        ∀ machine, (Machine.start bytecode limits globals).run steps = .unfinished machine →
          steps ≤ enough := by
  obtain ⟨stmts, later, hresolve, hfits, hruns, hstop, hstart⟩ :=
    Program.starts hr h hsize hg
  have hmeaning : program.meaning fuel before.scope { globals := values } =
      .ok (run fuel stmts { globals := values }) := by
    rw [Program.meaning, hresolve]
    rfl
  exact ⟨_, hmeaning, Setting.outcome_of_eventually
    (Setting.eventually_ends hfuel hfits hruns hstop hstart)⟩

/-- Values that stand for each other look the same. -/
theorem Setting.Stands.render_eq {setting : Setting} {value : Datum} {top : Value}
    (h : setting.Stands value top) : value.render = top.render := by
  refine Related.renderWith_eq ?_ false value top h
  intro count original fn hi
  rw [FunctionOver.label, FunctionOver.label, hi.name, hi.parameters]

/-- Compilation preserves meaning. A run of a program that a new compiler accepts ends as the
program means, with the same globals, the same last value and the same output, unless it reaches a
limit. -/
theorem Program.run_preserves_meaning {program : Program} {bytecode : Bytecode}
    {assembly : Assembly} (h : program.compile Assembly.initial = .ok (bytecode, assembly))
    (limits : Limits) {fuel : Nat} (hfuel : limits.maxFrames ≤ fuel + 1) (steps : Nat) :
    match (Machine.start bytecode limits #[]).run steps with
    | .finished machine => ∃ world,
        program.meaning fuel Assembly.initial.scope = .ok (.finished, world) ∧
        (assembly.setting limits).Keeps world machine
    | .failed error machine => (assembly.setting limits).Limit error ∨ ∃ world,
        program.meaning fuel Assembly.initial.scope = .ok (.failed error, world) ∧
        (assembly.setting limits).Keeps world machine
    | .unfinished _ => True := by
  have hsize : (#[] : Array Value).size ≤ limits.globalsSize := Nat.zero_le _
  have hnull : ∀ index : Nat, (Assembly.initial.setting limits).Stands .null
      ((#[] : Array Value)[index]?.getD .null) := fun _ => .null
  obtain ⟨ending, hmeaning, enough, houtcome⟩ :=
    Program.outcome Assembly.ready_initial h hsize hnull hfuel
  have hout := (houtcome steps).1
  cases hrun : (Machine.start bytecode limits #[]).run steps with
  | finished machine =>
      rw [hrun] at hout
      cases hout with
      | finished hk ht hc => exact ⟨_, hmeaning, hk⟩
  | failed error machine =>
      rw [hrun] at hout
      cases hout with
      | failed hk => exact .inr ⟨_, hmeaning, hk⟩
      | limit hl hs => exact .inl hl
  | unfinished machine => trivial

/-- A program that calls a recursive function comes to its end within small limits. -/
theorem Program.run_preserves_meaning_recursive :
    ∃ bytecode assembly machine world,
      Program.compile [.binding "f" (.function (some "f") ["x"]
          [.expr (.condition (.name "x") [.expr (.call (.name "f") [.boolean false])]
            (some [.expr (.integer 5)]))]),
        .expr (.call (.name "f") [.boolean true])] Assembly.initial = .ok (bytecode, assembly) ∧
      (Machine.start bytecode ⟨16, 8, 4⟩ #[]).run 40 = .finished machine ∧
      Program.meaning 8 [.binding "f" (.function (some "f") ["x"]
          [.expr (.condition (.name "x") [.expr (.call (.name "f") [.boolean false])]
            (some [.expr (.integer 5)]))]),
        .expr (.call (.name "f") [.boolean true])] Assembly.initial.scope =
          .ok (.finished, world) ∧
      (assembly.setting ⟨16, 8, 4⟩).Keeps world machine := by
  have hends : (match Program.compile [.binding "f" (.function (some "f") ["x"]
      [.expr (.condition (.name "x") [.expr (.call (.name "f") [.boolean false])]
        (some [.expr (.integer 5)]))]),
      .expr (.call (.name "f") [.boolean true])] Assembly.initial with
    | .ok (bytecode, _) =>
      match (Machine.start bytecode ⟨16, 8, 4⟩ #[]).run 40 with
      | .finished _ => true
      | _ => false
    | .error _ => false) = true := by
    decide +kernel
  split at hends
  case h_1 bytecode assembly h =>
      split at hends
      case h_1 machine hrun =>
          have hmeans := Program.run_preserves_meaning h ⟨16, 8, 4⟩ (Nat.le_succ 8) 40
          rw [hrun] at hmeans
          obtain ⟨world, hmeaning, hkeeps⟩ := hmeans
          exact ⟨bytecode, assembly, machine, world, h, hrun, hmeaning, hkeeps⟩
      case h_2 => cases hends
  case h_2 => cases hends

end StackScript
