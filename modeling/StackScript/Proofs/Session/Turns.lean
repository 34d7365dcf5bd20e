import StackScript.Proofs.Machine.Bounds
import StackScript.Proofs.Machine.Hosting
import StackScript.Proofs.Session.Safety

/-!
# Evaluating in turns

Evaluating a program and then another one comes to the same as evaluating both as one program. The
code of the longer program is that of the first one and, behind it, that of the second one with its
jumps moved. The run of the longer program is in step with the run of the first one up to where this
ends, and from there on with the run of the second one on a new machine.
-/

namespace StackScript

open Instruction

@[simp] theorem hosting_nil_left (instructions back : List Instruction) :
    hosting [] instructions back = instructions ++ back := by
  have hzero : shift 0 = id := funext fun _ => shift_zero
  simp [hosting, hzero]

@[simp] theorem hosting_nil_right (front instructions : List Instruction) :
    hosting front instructions [] = front ++ instructions.map (shift (sizes front)) := by
  simp [hosting]

/-! ## Compiling -/

/-- The bytecode of two programs, each by itself, and of both as one program. -/
structure Bytecode.Joins (first second whole : Bytecode) (front back : List Instruction) :
    Prop where
  codeFirst : first.code = Code.ofInstructions front
  codeSecond : second.code = Code.ofInstructions back
  codeWhole : whole.code = Code.ofInstructions (front ++ back.map (shift (sizes front)))
  constants : whole.constants = second.constants
  pool : Extends first.constants whole.constants
  hostsFirst : Hostable [] front (back.map (shift (sizes front)))
  hostsSecond : Hostable front back []

/-- The code of statements outside of functions can be run in a longer program. -/
theorem Core.Stmt.hostable {stmts : List Core.Stmt} {names pool : Nat}
    (h : ∀ stmt ∈ stmts, stmt.Fits (.outside names)) {front back : List Instruction}
    (he : ∀ instruction ∈ (generateAll stmts 0 pool).code, instruction.Encodable)
    (hh : ∀ instruction ∈ hosting front (generateAll stmts 0 pool).code back,
      instruction.Encodable) :
    Hostable front (generateAll stmts 0 pool).code back where
  encodable := he
  hosted := hh
  forward := by
    have hforward := (generateAll_sound h).2 0 pool [] trivial
    rwa [List.append_nil] at hforward
  plain := (generateAll_portable h).plain 0 pool

/-- The code of statements behind others is that of the statements alone, with its jumps moved. -/
theorem Core.Stmt.generateAll_append_shift (stmts : List Core.Stmt) {others : List Core.Stmt}
    {names : Nat} (h : ∀ stmt ∈ others, stmt.Fits (.outside names)) (pool : Nat) :
    let front := generateAll stmts 0 pool
    let back := generateAll others 0 (pool + front.constants.length)
    generateAll (stmts ++ others) 0 pool =
      ⟨front.code ++ back.code.map (shift (sizes front.code)),
        front.constants ++ back.constants⟩ := by
  intro front back
  have hportable := generateAll_portable h
  have hcode := hportable.code (sizes front.code) 0 (pool + front.constants.length)
  have hconstants := hportable.constants (sizes front.code) 0 (pool + front.constants.length)
  rw [generateAll_append, Generator.append_apply, Nat.zero_add, ← hcode, ← hconstants, Nat.add_zero]

/-- A program and another one after it compile to the parts of what they compile to as one program,
and leave the same names and constants. -/
theorem Assembly.Ready.compile_append {before middle after together : Assembly} {p q : Program}
    {first second whole : Bytecode} (hr : before.Ready)
    (hp : p.compile before = .ok (first, middle)) (hq : q.compile middle = .ok (second, after))
    (hpq : (p ++ q).compile before = .ok (whole, together)) :
    together = after ∧ ∃ front back, first.Joins second whole front back := by
  obtain ⟨stmts, hresolve, henc, hcode, hconstants, hmiddle⟩ :=
    Program.compile_generates hr.empty hp
  obtain ⟨hready, -, hfits⟩ := hr.resolve_fits hresolve
  have hempty : middle.buffer = {} := congrArg Assembly.buffer hmiddle
  have hkept : middle.constants = first.constants := congrArg Assembly.constants hmiddle
  obtain ⟨stmts', hresolve', henc', hcode', hconstants', hafter⟩ :=
    Program.compile_generates hempty hq
  have hr' : middle.Ready := ⟨hready.valid, hready.outermost, hempty⟩
  obtain ⟨-, -, hfits'⟩ := hr'.resolve_fits hresolve'
  obtain ⟨all, hall, hencw, hcodew, hconstantsw, htogether⟩ :=
    Program.compile_generates hr.empty hpq
  obtain ⟨rfl, hscope⟩ : stmts ++ stmts' = all ∧ after.scope = together.scope := by
    have hboth := Stmt.resolveAll_append hresolve hresolve'
    exact Prod.mk.inj (Except.ok.inj (hboth.symm.trans hall))
  have hpool : middle.constants.size = before.constants.size +
      (Core.Stmt.generateAll stmts 0 before.constants.size).constants.length := by
    simp [hkept, hconstants]
  have hwhole := Core.Stmt.generateAll_append_shift stmts hfits' before.constants.size
  dsimp only at hwhole
  rw [← hpool] at hwhole
  rw [hwhole] at hencw hcodew hconstantsw
  have hpools : whole.constants = second.constants := by
    rw [hconstantsw, hconstants', hkept, hconstants]
    simp
  refine ⟨?_, _, _, hcode, hcode', hcodew, hpools, ?_,
    Core.Stmt.hostable hfits henc.code (by simpa using hencw.code),
    Core.Stmt.hostable hfits' henc'.code (by simpa using hencw.code)⟩
  · rw [htogether, hafter, hpools, hscope]
  · rw [hpools, hconstants', hkept]
    exact extends_append _ _

/-! ## Running -/

/-- A program by itself, and the same program in front of another one. Nothing is said about how it
fails. -/
def leading (front back : List Instruction) : Pairing where
  main := Hosts [] front (back.map (shift (sizes front)))
  written := ""
  missed _ := True

/-- A program by itself, and the same program behind another one, which has written something. -/
def trailing (front back : List Instruction) (written : String) : Pairing where
  main := Hosts front back []
  written := written
  missed _ := False

namespace Bytecode.Joins

variable {first second whole : Bytecode} {front back : List Instruction} {limits : Limits}
  {globals : Array Value}

/-- The longer program starts in step with the first one. -/
theorem twin_leading (h : first.Joins second whole front back) (limits : Limits)
    (globals : Array Value) :
    Twin (leading front back) True (.start first limits globals) (.start whole limits globals) where
  frames := .main ⟨h.codeFirst, by rw [hosting_nil_left]; exact h.codeWhole, [], front, rfl, rfl,
    rfl⟩ rfl
  roomy := {
    stack := .inl rfl
    calls := .inl rfl
    globals := .inl rfl
    constants := .inr ⟨h.pool, fun _ => ⟨trivial, trivial⟩⟩ }
  top := rfl
  stack slot hr := absurd hr (Machine.not_inReach_start first limits globals slot)
  globals _ := rfl
  lastPopped _ := rfl
  output := String.empty_append.symm

/-- Where the first program ends, the longer one goes on in step with the second one on a new
machine. -/
theorem twin_trailing (h : first.Joins second whole front back) {machine other : Machine}
    (ht : Twin (leading front back) True machine other)
    (hb : machine.Bounded limits first.constants (max limits.globalsSize globals.size))
    (hb' : other.Bounded limits whole.constants (max limits.globalsSize globals.size))
    (hended : machine.Ended) (htop : machine.top = 0) :
    Twin (trailing front back machine.output) False (.start second limits machine.globals)
      other where
  frames := by
    rcases ht.frames.head with ⟨-, hcallers⟩ | ⟨hhosts, hc, hc'⟩
    · rw [hended.1] at hcallers
      cases hcallers
    · rw [Machine.frames, Machine.frames, hc']
      refine .main ⟨h.codeSecond, ?_, [], back, rfl, rfl, ?_⟩ ?_
      · rw [hhosts.host, hosting_nil_left, hosting_nil_right]
      · rw [hhosts.next_of_end h.hostsFirst.encodable hended.2]
        simp
      · have hbase := hb'.frames
        rw [hc'] at hbase
        exact hbase
  roomy := {
    stack := .inl (by rw [hb'.stack, Machine.start, Array.size_replicate])
    calls := .inl (by rw [hb'.sameLimits]; rfl)
    globals := by
      refine .inl ?_
      rw [hb'.globals, (Machine.bounded_start second limits machine.globals).globals, hb.globals]
      omega
    constants := .inl (by rw [hb'.sameConstants, h.constants]; rfl) }
  top := ht.top.trans htop
  stack slot hr := absurd hr (Machine.not_inReach_start second limits machine.globals slot)
  globals index := by rw [Machine.getD_globals_start, ht.globals]
  lastPopped := False.elim
  output := by
    rw [ht.output]
    show "" ++ machine.output = machine.output ++ ""
    rw [String.empty_append, String.append_empty]

/-- After as many steps as the first program takes, the longer one comes out like the second one. -/
theorem run (h : first.Joins second whole front back) {steps : Nat} {machine : Machine}
    (hrun : (Machine.start first limits globals).run steps = .finished machine)
    (htop : machine.top = 0) :
    ∃ used ≤ steps, ∀ more, (trailing front back machine.output).RunsAlike False
      ((Machine.start second limits machine.globals).DiscardsWithin more)
      ((Machine.start second limits machine.globals).run more)
      ((Machine.start whole limits globals).run (used + more)) := by
  -- The first program alone has come to its end when the longer one comes to the second program.
  have hruns := (h.twin_leading limits globals).run (h.hostsFirst.follows rfl) steps
  rw [Pairing.Accompanied, hrun] at hruns
  obtain ⟨used, hlt, other, hused, hended, hother, ht⟩ := hruns
  have hb := ((Machine.bounded_start first limits globals).run used).2.1
  have hb' := ((Machine.bounded_start whole limits globals).run used).2.1
  rw [hused] at hb
  rw [hother] at hb'
  have htrailing := h.twin_trailing (ht.mono .inl) hb hb' hended htop
  refine ⟨used, Nat.le_of_lt hlt, fun more => ?_⟩
  have hends : (trailing front back machine.output).EndsTogether :=
    fun _ _ hhosts hend => hhosts.end_of_end h.hostsSecond hend
  have hmore := htrailing.run_alike (h.hostsSecond.follows rfl) hends more
  rw [Machine.run_of_unfinished hother]
  simpa only [false_or] using hmore

end Bytecode.Joins

/-! ## Evaluating -/

/-- A program keeps the number of slots for globals that another one has left. -/
theorem Machine.size_globals_run {first second whole : Bytecode} {limits : Limits}
    {globals : Array Value} {steps : Nat} {machine : Machine}
    (hrun : (start first limits globals).run steps = .finished machine) (used more : Nat) :
    ((start whole limits globals).run used).machine.globals.size =
      ((start second limits machine.globals).run more).machine.globals.size := by
  have hfirst := ((bounded_start first limits globals).run steps).2.1.globals
  have hsecond := ((bounded_start second limits machine.globals).run more).2.1.globals
  have hwhole := ((bounded_start whole limits globals).run used).2.1.globals
  rw [hrun, Run.machine] at hfirst
  omega

/-- Globals that are as many and the same in every slot are the same. -/
theorem Pairing.Alike.globals_eq {pairing : Pairing} {settled : Prop} {machine other : Machine}
    (h : pairing.Alike settled machine other) (hs : other.globals.size = machine.globals.size) :
    other.globals = machine.globals := by
  refine Array.ext hs fun index hi hi' => ?_
  have hvalue := h.globals index
  rwa [Array.getElem?_eq_getElem hi, Array.getElem?_eq_getElem hi', Option.getD_some,
    Option.getD_some] at hvalue

/-- The second verdict is the first one, except that a value need not be the same if it is not known
to be. -/
def Verdict.Matches (known : Prop) : Verdict → Verdict → Prop
  | .value first, verdict => ∃ second, verdict = .value second ∧ (known → second = first)
  | .error cause, verdict => verdict = .error cause
  | .unfinished, verdict => verdict = .unfinished

/-- Runs that come out alike leave the same globals, and amount to the same evaluation. -/
theorem Pairing.RunsAlike.evaluation {pairing : Pairing} {settled later : Prop} {run run' : Run}
    (h : pairing.RunsAlike settled later run run') (hm : ∀ error, ¬ pairing.missed error)
    (hs : run'.machine.globals.size = run.machine.globals.size) :
    run'.machine.globals = run.machine.globals ∧
      run'.evaluation.output = pairing.written ++ run.evaluation.output ∧
      run.evaluation.verdict.Matches later run'.evaluation.verdict := by
  cases h with
  | finished h => exact ⟨h.globals_eq hs, h.output, _, rfl, h.lastPopped⟩
  | failed error h => exact ⟨h.globals_eq hs, h.output, rfl⟩
  | missed h => exact absurd h (hm _)
  | unfinished h => exact ⟨h.globals_eq hs, h.output, rfl⟩

namespace Session

/-- The run of a program that has a value is finished, and leaves nothing on the stack. -/
theorem Sound.finished_of_value {session : Session} (hs : session.Sound) {program : Program}
    {steps : Nat} {value : Value}
    (hv : (session.evalProgram program steps).1.verdict = .value value) :
    ∃ bytecode assembly machine, program.compile session.assembly = .ok (bytecode, assembly) ∧
      (Machine.start bytecode session.limits session.globals).run steps = .finished machine ∧
      machine.top = 0 := by
  unfold Session.evalProgram at hv
  cases h : program.compile session.assembly with
  | error error =>
      rw [h] at hv
      cases hv
  | ok result =>
      obtain ⟨bytecode, assembly⟩ := result
      obtain ⟨values, ending, -, enough, houtcome⟩ := hs.outcome h
      have hout := (houtcome steps).1
      rw [h] at hv
      dsimp only at hv
      refine ⟨bytecode, assembly, ?_⟩
      cases hrun : (Machine.start bytecode session.limits session.globals).run steps with
      | finished machine =>
          rw [hrun] at hout
          cases hout with
          | finished hk ht hc => exact ⟨machine, rfl, rfl, ht⟩
      | failed error machine =>
          rw [hrun] at hv
          cases hv
      | unfinished machine =>
          rw [hrun] at hv
          cases hv

theorem evalProgram_of_compile {session : Session} {program : Program} {bytecode : Bytecode}
    {assembly : Assembly} (h : program.compile session.assembly = .ok (bytecode, assembly))
    (steps : Nat) :
    session.evalProgram program steps =
      (((Machine.start bytecode session.limits session.globals).run steps).evaluation,
        { session with
          assembly
          globals :=
            ((Machine.start bytecode session.limits session.globals).run steps).machine.globals }) := by
  rw [Session.evalProgram, h]

/-- A program that compiles is evaluated within some number of steps. -/
theorem Sound.ends {session : Session} (hs : session.Sound) {program : Program}
    {bytecode : Bytecode} {assembly : Assembly}
    (h : program.compile session.assembly = .ok (bytecode, assembly)) :
    ∃ enough, ∀ steps, enough < steps →
      (session.evalProgram program steps).1.verdict ≠ .unfinished := by
  obtain ⟨values, ending, -, enough, houtcome⟩ := hs.outcome h
  refine ⟨enough, fun steps hlt => ?_⟩
  rw [evalProgram_of_compile h]
  cases hrun : (Machine.start bytecode session.limits session.globals).run steps with
  | finished machine => nofun
  | failed error machine => nofun
  | unfinished machine => exact absurd ((houtcome steps).2 machine hrun) (Nat.not_le_of_lt hlt)

/-- Evaluating a program that succeeds and then another one comes to the same as evaluating both as
one program: the same error or success, the same output in total, the same names, constants and
globals, and the same value if the second program discards one of its own. With enough steps both
come to an end. -/
theorem evalProgram_append (limits : Limits) (history : List (String × Nat)) (p q : Program)
    (steps : Nat) :
    let session := ({ limits } : Session).afterAll history
    let first := session.evalProgram p steps
    ∀ value bytecode assembly whole, first.1.verdict = .value value →
      q.compile first.2.assembly = .ok (bytecode, assembly) →
      (p ++ q).compile session.assembly = .ok whole →
      ∃ used ≤ steps, ∃ enough, ∀ more,
        let second := first.2.evalProgram q more
        let together := session.evalProgram (p ++ q) (used + more)
        together.2 = second.2 ∧ together.1.output = first.1.output ++ second.1.output ∧
        second.1.verdict.Matches
          ((Machine.start bytecode limits first.2.globals).DiscardsWithin more)
          together.1.verdict ∧
        (enough < more → second.1.verdict ≠ .unfinished) := by
  intro session first value bytecode assembly whole hvalue hq hpq
  have hs : session.Sound := (sound_initial limits).afterAll history
  have hlimits : session.limits = limits := limits_afterAll _ history
  have hs' : first.2.Sound := hs.evalProgram p steps
  clear_value session
  subst hlimits
  obtain ⟨bytecodeFirst, middle, machine, hp, hrun, htop⟩ := hs.finished_of_value hvalue
  have hfirst : first = ((Run.finished machine).evaluation,
      { session with assembly := middle, globals := machine.globals }) := by
    have heval := evalProgram_of_compile hp steps
    rwa [hrun] at heval
  clear_value first
  subst hfirst
  obtain ⟨bytecodeWhole, together⟩ := whole
  obtain ⟨rfl, front, back, hj⟩ := hs.ready.compile_append hp hq hpq
  obtain ⟨used, hle, hruns⟩ := hj.run hrun htop
  obtain ⟨enough, hends⟩ := hs'.ends hq
  refine ⟨used, hle, enough, fun more => ?_⟩
  obtain ⟨hglobals, houtput, hverdict⟩ := (hruns more).evaluation (fun _ => id)
    (Machine.size_globals_run hrun _ _)
  rw [evalProgram_of_compile hq, evalProgram_of_compile hpq]
  refine ⟨?_, houtput, hverdict, fun hlt => ?_⟩
  · rw [hglobals]
  · rw [← evalProgram_of_compile hq]
    exact hends more hlt

/-- A program that defines a function. -/
def definesFunction : Program :=
  [.binding "f" (.function (some "f") ["x"]
    [.expr (.call (.name "print") [.name "x"]), .expr (.binary .add (.name "x") (.name "a"))])]

/-- A program that calls the function in the test of a condition and in a branch. -/
def callsFunction : Program :=
  [.expr (.condition (.binary .less (.integer 3) (.call (.name "f") [.integer 3]))
    [.expr (.call (.name "f") [.integer 5])] none)]

/-- A function that a program defines can be called in the same program and in the next one. -/
theorem evalProgram_append_calling :
    let session := ({ limits := ⟨16, 8, 4⟩ } : Session).afterAll [("let a = 1;", 9)]
    ∃ used ≤ 9, ∃ value,
      (session.evalProgram (definesFunction ++ callsFunction) (used + 40)).1.verdict =
        .value value ∧
      (session.evalProgram (definesFunction ++ callsFunction) (used + 40)).1.output =
        "3\n5\n" := by
  intro session
  obtain ⟨hfirst, hq, hpq, hsilent, hsecond, hprints⟩ :
      (session.evalProgram definesFunction 9).1.verdict.ctorIdx = 0 ∧
      (callsFunction.compile (session.evalProgram definesFunction 9).2.assembly).isOk = true ∧
      ((definesFunction ++ callsFunction).compile session.assembly).isOk = true ∧
      (session.evalProgram definesFunction 9).1.output = "" ∧
      ((session.evalProgram definesFunction 9).2.evalProgram callsFunction 40).1.verdict.ctorIdx =
        0 ∧
      ((session.evalProgram definesFunction 9).2.evalProgram callsFunction 40).1.output =
        "3\n5\n" := by
    decide +kernel
  obtain ⟨value, hvalue⟩ := Verdict.exists_of_ctorIdx hfirst
  obtain ⟨⟨bytecode, assembly⟩, hq⟩ := Except.exists_of_isOk hq
  obtain ⟨whole, hpq⟩ := Except.exists_of_isOk hpq
  obtain ⟨used, hle, enough, hmore⟩ := evalProgram_append ⟨16, 8, 4⟩ [("let a = 1;", 9)]
    definesFunction callsFunction 9 value bytecode assembly whole hvalue hq hpq
  obtain ⟨-, houtput, hverdict, -⟩ := hmore 40
  obtain ⟨last, hlast⟩ := Verdict.exists_of_ctorIdx hsecond
  rw [hlast] at hverdict
  obtain ⟨value', hvalue', -⟩ := hverdict
  refine ⟨used, hle, value', hvalue', ?_⟩
  rw [houtput, hsilent, hprints]
  rfl

end Session

end StackScript
