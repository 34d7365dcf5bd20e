import StackScript.Proofs.Core.Errors
import StackScript.Proofs.Simulation.Program
import StackScript.Session

/-!
# Sessions never go wrong

Whatever sources a session has evaluated, its globals stand for values of the language, whose closures
have code of the assembly. Every further source therefore runs as it means: it does not fail inside
the machine, and it ends.
-/

namespace StackScript

open StackScript.Core Instruction

/-- An error says that something is wrong inside the machine: with its stack, with its code, or with
what an instruction refers to that is not about globals. -/
inductive RuntimeError.IsFault : RuntimeError → Prop
  | stackUnderflow : IsFault .stackUnderflow
  | frameUnderflow : IsFault .frameUnderflow
  | unknownOpcode (byte : Nat) : IsFault (.unknownOpcode byte)
  | truncatedInstruction (offset : Nat) : IsFault (.truncatedInstruction offset)
  | notAFunction (value : String) : IsFault (.notAFunction value)
  | invalidOperand {op : String} (operand : Nat) (hg : op ≠ Opcode.getGlobal.mnemonic)
    (hs : op ≠ Opcode.setGlobal.mnemonic) : IsFault (.invalidOperand op operand)

theorem RuntimeError.OfProgram.not_isFault {error : RuntimeError} (h : error.OfProgram) :
    ¬ error.IsFault := by
  cases h <;> nofun

theorem Setting.Limit.not_isFault {setting : Setting} {error : RuntimeError}
    (h : setting.Limit error) : ¬ error.IsFault := by
  cases h with
  | stack => nofun
  | frames => nofun
  | getGlobal _ _ =>
      rintro ⟨⟩
      contradiction
  | setGlobal _ _ =>
      rintro ⟨⟩
      contradiction

/-- An operand of an instruction about globals is invalid only if more globals have names than
slots. -/
theorem Setting.Limit.slots_le {setting : Setting} {op : String} {operand : Nat}
    (h : setting.Limit (.invalidOperand op operand)) :
    setting.slots ≤ operand ∧ operand < setting.names := by
  cases h with
  | getGlobal hs hn => exact ⟨hs, hn⟩
  | setGlobal hs hn => exact ⟨hs, hn⟩

/-- A value is the first thing that may become of a program. -/
theorem Verdict.exists_of_ctorIdx {verdict : Verdict} (h : verdict.ctorIdx = 0) :
    ∃ value, verdict = .value value := by
  cases verdict with
  | value value => exact ⟨value, rfl⟩
  | error error => cases h
  | unfinished => cases h

namespace Session

/-- A session can go on: its assembly is ready, and its globals stand for values. -/
structure Sound (session : Session) : Prop where
  ready : session.assembly.Ready
  size : session.globals.size ≤ session.limits.globalsSize
  globals : ∃ values : Nat → Datum, ∀ index : Nat,
    (session.assembly.setting session.limits).Stands (values index)
      (session.globals[index]?.getD .null)

theorem sound_initial (limits : Limits) : Sound { limits } where
  ready := Assembly.ready_initial
  size := Nat.zero_le _
  globals := ⟨fun _ => .null, fun _ => .null⟩

variable {session : Session} {program : Program} {bytecode : Bytecode} {assembly : Assembly}

/-- A program of a session that can go on runs as it means. -/
theorem Sound.outcome (hs : session.Sound)
    (h : program.compile session.assembly = .ok (bytecode, assembly)) :
    ∃ values ending,
      program.meaning session.limits.maxFrames session.assembly.scope { globals := values } =
        .ok ending ∧
      ∃ enough, ∀ steps,
        (assembly.setting session.limits).Outcome ending
          ((Machine.start bytecode session.limits session.globals).run steps) ∧
        ∀ machine, (Machine.start bytecode session.limits session.globals).run steps =
          .unfinished machine → steps ≤ enough := by
  obtain ⟨values, hvalues⟩ := hs.globals
  exact ⟨values, Program.outcome hs.ready h hs.size hvalues (Nat.le_succ _)⟩

/-- A source leaves the session as it was if it does not compile, and is run otherwise. -/
theorem eval_cases (session : Session) (source : String) (steps : Nat) :
    (∃ error, session.eval source steps = (⟨.error error, ""⟩, session) ∧
      ∀ runtime, error ≠ .runtime runtime) ∨
    ∃ program bytecode assembly, Program.parse source = .ok program ∧
      program.compile session.assembly = .ok (bytecode, assembly) ∧
      session.eval source steps =
        (((Machine.start bytecode session.limits session.globals).run steps).evaluation,
          { session with
            assembly
            globals :=
              ((Machine.start bytecode session.limits session.globals).run steps).machine.globals }) := by
  unfold Session.eval
  cases hparse : Program.parse source with
  | error error => exact .inl ⟨.parse error, rfl, nofun⟩
  | ok program =>
      simp only [Session.evalProgram]
      cases hcompile : program.compile session.assembly with
      | error error => exact .inl ⟨.compile error, rfl, nofun⟩
      | ok result => exact .inr ⟨program, result.1, result.2, rfl, hcompile, rfl⟩

theorem Sound.evalProgram (hs : session.Sound) (program : Program) (steps : Nat) :
    (session.evalProgram program steps).2.Sound := by
  unfold Session.evalProgram
  cases h : program.compile session.assembly with
  | error error => exact hs
  | ok result =>
      obtain ⟨bytecode, assembly⟩ := result
      obtain ⟨values, ending, -, enough, houtcome⟩ := hs.outcome h
      obtain ⟨hsize, hglobals⟩ := (houtcome steps).1.sane
      obtain ⟨code, added, hlinks, -, -⟩ := hs.ready.links_of_compile h
      exact ⟨hlinks.ready, Nat.le_of_eq hsize, hglobals⟩

theorem Sound.eval (hs : session.Sound) (source : String) (steps : Nat) :
    (session.eval source steps).2.Sound := by
  unfold Session.eval
  cases Program.parse source with
  | error error => exact hs
  | ok program => exact hs.evalProgram program steps

/-- The session after some sources, each of which may take some number of steps. -/
def afterAll (session : Session) (history : List (String × Nat)) : Session :=
  history.foldl (fun session entry => (session.eval entry.1 entry.2).2) session

theorem Sound.afterAll (hs : session.Sound) (history : List (String × Nat)) :
    (session.afterAll history).Sound := by
  induction history generalizing session with
  | nil => exact hs
  | cons entry history ih => exact ih (hs.eval entry.1 entry.2)

/-- Sources leave the limits of a session alone. -/
theorem limits_afterAll (session : Session) (history : List (String × Nat)) :
    (session.afterAll history).limits = session.limits := by
  induction history generalizing session with
  | nil => rfl
  | cons entry history ih =>
      apply (ih _).trans
      show (session.eval entry.1 entry.2).2.limits = session.limits
      obtain ⟨error, heq, -⟩ | ⟨program, bytecode, assembly, -, -, heq⟩ :=
        session.eval_cases entry.1 entry.2
      · rw [heq]
      · rw [heq]

/-- The error of a run is no fault, and an operand that is invalid stands for a global without a
slot. -/
theorem Sound.error_of_run (hs : session.Sound)
    (h : program.compile session.assembly = .ok (bytecode, assembly)) {steps : Nat}
    {error : RuntimeError} {machine : Machine}
    (hrun : (Machine.start bytecode session.limits session.globals).run steps =
      .failed error machine) :
    ¬ error.IsFault ∧ ∀ op operand, error = .invalidOperand op operand →
      session.limits.globalsSize ≤ operand ∧ operand < assembly.scope.table.definitions := by
  obtain ⟨values, ending, hmeaning, enough, houtcome⟩ := hs.outcome h
  have hout := (houtcome steps).1
  rw [hrun] at hout
  cases hout with
  | failed hk =>
      have hprogram := Program.ofProgram_of_meaning hmeaning
      refine ⟨hprogram.not_isFault, ?_⟩
      rintro op operand rfl
      cases hprogram
  | limit hl hsane =>
      refine ⟨hl.not_isFault, ?_⟩
      rintro op operand rfl
      exact hl.slots_le

/-- No source that a session evaluates goes wrong inside the machine: its error is no fault, the
operand of an instruction about globals is invalid only if more globals have names than slots, and
if it comes to its end then with nothing on the stack and without callers. -/
theorem eval_safe (limits : Limits) (history : List (String × Nat)) (source : String)
    (steps : Nat) :
    let session := ({ limits } : Session).afterAll history
    (∀ error, (session.eval source steps).1.verdict = .error (.runtime error) →
      ¬ error.IsFault ∧ ∀ op operand, error = .invalidOperand op operand →
        limits.globalsSize ≤ operand ∧
        operand < (session.eval source steps).2.assembly.scope.table.definitions) ∧
    ∀ (program : Program) bytecode assembly machine,
      program.compile session.assembly = .ok (bytecode, assembly) →
      (Machine.start bytecode limits session.globals).run steps = .finished machine →
      machine.top = 0 ∧ machine.callers = [] := by
  intro session
  have hs : session.Sound := (sound_initial limits).afterAll history
  have hlimits : session.limits = limits := limits_afterAll _ history
  constructor
  · intro error hverdict
    obtain ⟨error', heq, hne⟩ | ⟨program, bytecode, assembly, -, h, heq⟩ :=
      session.eval_cases source steps
    · rw [heq] at hverdict
      cases hverdict
      exact absurd rfl (hne error)
    · rw [heq] at hverdict ⊢
      cases hrun : (Machine.start bytecode session.limits session.globals).run steps with
      | failed error' machine =>
          rw [hrun] at hverdict
          cases hverdict
          rw [← hlimits]
          exact hs.error_of_run h hrun
      | finished machine =>
          rw [hrun] at hverdict
          cases hverdict
      | unfinished machine =>
          rw [hrun] at hverdict
          cases hverdict
  · intro program bytecode assembly machine h hrun
    obtain ⟨values, ending, -, enough, houtcome⟩ := hs.outcome h
    have hout := (houtcome steps).1
    rw [hlimits, hrun] at hout
    cases hout with
    | finished hk ht hc => exact ⟨ht, hc⟩

/-- Every program that a session can compile ends, with a value or with an error. -/
theorem evalProgram_ends (limits : Limits) (history : List (String × Nat)) (program : Program) :
    ∃ enough, ∀ steps, enough < steps →
      ((({ limits } : Session).afterAll history).evalProgram program steps).1.verdict ≠
        .unfinished := by
  generalize hsession : ({ limits } : Session).afterAll history = session
  have hs : session.Sound := by
    rw [← hsession]
    exact (sound_initial limits).afterAll history
  unfold Session.evalProgram
  cases h : program.compile session.assembly with
  | error error => exact ⟨0, fun _ _ => nofun⟩
  | ok result =>
      obtain ⟨values, ending, -, enough, houtcome⟩ := hs.outcome h
      refine ⟨enough, fun steps hlt => ?_⟩
      simp only
      cases hrun : (Machine.start result.1 session.limits session.globals).run steps with
      | finished machine => nofun
      | failed error machine => nofun
      | unfinished machine =>
          exact absurd ((houtcome steps).2 machine hrun) (Nat.not_le_of_lt hlt)

end Session

end StackScript
