import StackScript.Proofs.Core.Eval
import StackScript.Proofs.Core.Sound
import StackScript.Proofs.Machine.Yields
import StackScript.Proofs.Value.Related

/-!
# Machines and evaluations side by side

A machine is at a state of an evaluation if its globals, its output and its stack are what the state
says. The slots in use are those of the callers, then the locals of the running function, then the
values that its expressions have computed so far.

## Implementation notes

What stays the same while a function runs is kept apart from what changes: a setting belongs to a
run, a site to a call in it, and only the rest to a single state.
-/

namespace StackScript

open StackScript.Core

/-- A compiled function is what is generated for the block of a function that captures a number of
values, and its constants are in the pool. -/
structure Implements (constants : Array Value) (names captures : Nat)
    (original : FunctionOver Core.Block) (fn : Function) : Prop where
  name : original.name = fn.name
  parameters : original.parameters = fn.parameters
  locals : original.locals = fn.locals
  fits : original.code.Fits (.within names original.locals captures)
  code : ∃ pool, fn.code = Code.ofInstructions (original.code.generateBody 0 pool).code ∧
    (original.code.generateBody 0 pool).Encodable ∧
    Held constants pool (original.code.generateBody 0 pool).constants

theorem Held.mono {constants more : Array Value} {pool : Nat} {added : List Constant}
    (h : Held constants pool added) (hm : Extends constants more) : Held more pool added :=
  fun k constant hk => hm _ _ (h k constant hk)

theorem Implements.mono {constants more : Array Value} {names wider captures : Nat}
    {original : FunctionOver Core.Block} {fn : Function}
    (h : Implements constants names captures original fn) (hm : Extends constants more)
    (hw : names ≤ wider) : Implements more wider captures original fn where
  name := h.name
  parameters := h.parameters
  locals := h.locals
  fits := h.fits.mono (Bounds.within_le hw _ _)
  code := by
    obtain ⟨pool, hcode, henc, hheld⟩ := h.code
    exact ⟨pool, hcode, henc, hheld.mono hm⟩

/-- What all states of a run have in common: the pool, the limits, and the numbers of globals that
have a name and that have a slot. -/
structure Setting where
  constants : Array Value
  limits : Limits
  names : Nat
  slots : Nat

namespace Setting

variable (setting : Setting)

/-- A value of the machine stands for a value of the evaluation. -/
def Stands : Datum → Value → Prop :=
  Related (Implements setting.constants setting.names)

/-- The machine keeps the world: what its globals, its last discarded value and its output stand
for. -/
structure Keeps (world : World) (machine : Machine) : Prop where
  constants : machine.constants = setting.constants
  limits : machine.limits = setting.limits
  slots : machine.globals.size = setting.slots
  globals : ∀ index : Nat,
    setting.Stands (world.globals index) (machine.globals[index]?.getD .null)
  discarded : setting.Stands world.discarded machine.lastPopped
  output : machine.output = world.output

/-- What is kept shows in these parts of a machine alone. -/
theorem Keeps.congr {setting : Setting} {world : World} {machine after : Machine}
    (h : setting.Keeps world machine) (hc : after.constants = machine.constants)
    (hl : after.limits = machine.limits) (hg : after.globals = machine.globals)
    (hp : after.lastPopped = machine.lastPopped) (ho : after.output = machine.output) :
    setting.Keeps world after where
  constants := hc.trans h.constants
  limits := hl.trans h.limits
  slots := by rw [hg, h.slots]
  globals := by
    rw [hg]
    exact h.globals
  discarded := by
    rw [hp]
    exact h.discarded
  output := ho.trans h.output

/-- The globals stand for something. -/
def Sane (machine : Machine) : Prop :=
  machine.globals.size = setting.slots ∧ ∃ globals : Nat → Datum,
    ∀ index : Nat, setting.Stands (globals index) (machine.globals[index]?.getD .null)

theorem Keeps.sane {setting : Setting} {world : World} {machine : Machine}
    (h : setting.Keeps world machine) : setting.Sane machine :=
  ⟨h.slots, world.globals, h.globals⟩

/-- An error says that a limit has been reached: of the stack, of the calls, or of the globals. -/
inductive Limit : RuntimeError → Prop
  | stack : Limit .stackOverflow
  | frames : Limit (.frameOverflow setting.limits.maxFrames)
  | getGlobal {index : Nat} (hs : setting.slots ≤ index) (hn : index < setting.names) :
    Limit (.invalidOperand Opcode.getGlobal.mnemonic index)
  | setGlobal {index : Nat} (hs : setting.slots ≤ index) (hn : index < setting.names) :
    Limit (.invalidOperand Opcode.setGlobal.mnemonic index)

/-- A machine may fail with the error with which an evaluation fails, or because of a limit. -/
def Fails (result : EStateM.Result Interrupt State α) (error : RuntimeError)
    (machine : Machine) : Prop :=
  (∃ state, result = .error (.failed error) state ∧ setting.Keeps state.toWorld machine) ∨
    (setting.Limit error ∧ setting.Sane machine)

end Setting

/-- A machine has come as far as an evaluation: it has the value, or it is about to return. -/
def Reached (post : α → State → Machine → Prop) (leaving : Datum → State → Machine → Prop) :
    EStateM.Result Interrupt State α → Machine → Prop
  | .ok value state, machine => post value state machine
  | .error (.returned value) state, machine => leaving value state machine
  | .error (.failed _) _, _ | .error .outOfFuel _, _ => False

/-- A machine runs until it has come as far as an evaluation, unless it reaches a limit before. -/
def Simulates (setting : Setting) (result : EStateM.Result Interrupt State α)
    (post : α → State → Machine → Prop) (leaving : Datum → State → Machine → Prop) :
    Machine → Prop :=
  Machine.Eventually setting.Sane (setting.Fails result) (Reached post leaving result)

/-- An evaluation is simulated if its parts are. -/
theorem Simulates.bind {setting : Setting} {first : Eval α} {next : α → Eval β} {state : State}
    {post : α → State → Machine → Prop} {post' : β → State → Machine → Prop}
    {leaving : Datum → State → Machine → Prop} {machine : Machine}
    (h : Simulates setting (first state) post leaving machine)
    (hn : ∀ value state machine, post value state machine →
      Simulates setting (next value state) post' leaving machine) :
    Simulates setting ((first >>= next) state) post' leaving machine := by
  show Simulates setting (EStateM.bind first next state) post' leaving machine
  unfold EStateM.bind
  cases hr : first state with
  | ok value after =>
      rw [hr] at h
      refine Machine.Eventually.bind h ?_ fun machine => hn value after machine
      rintro error machine (⟨_, ⟨⟩, _⟩ | hlimit)
      exact .inr hlimit
  | error interrupt after =>
      rw [hr] at h
      refine Machine.Eventually.bind h ?_ ?_
      · rintro error machine (⟨state, heq, hkeeps⟩ | hlimit)
        · obtain ⟨rfl, rfl⟩ : interrupt = .failed error ∧ after = state := by simpa using heq
          exact .inl ⟨after, rfl, hkeeps⟩
        · exact .inr hlimit
      · intro machine hreached
        cases interrupt with
        | returned value => exact .now hreached
        | failed error => exact hreached.elim
        | outOfFuel => exact hreached.elim

/-- A machine that has come as far as one evaluation that does not fail may go on to come as far as
another. -/
theorem Simulates.onward {setting : Setting} {result : EStateM.Result Interrupt State α}
    {result' : EStateM.Result Interrupt State β} {post : α → State → Machine → Prop}
    {post' : β → State → Machine → Prop} {leaving leaving' : Datum → State → Machine → Prop}
    {machine : Machine} (h : Simulates setting result post leaving machine)
    (hf : ∀ error state, result ≠ .error (.failed error) state)
    (hn : ∀ machine, Reached post leaving result machine →
      Simulates setting result' post' leaving' machine) :
    Simulates setting result' post' leaving' machine := by
  refine Machine.Eventually.bind h ?_ hn
  rintro error machine (⟨state, heq, -⟩ | hlimit)
  · exact absurd heq (hf error state)
  · exact .inr hlimit

theorem Simulates.seq {setting : Setting} {result : EStateM.Result Interrupt State β} {value : α}
    {state : State} {post : α → State → Machine → Prop} {post' : β → State → Machine → Prop}
    {leaving : Datum → State → Machine → Prop} {machine : Machine}
    (h : Simulates setting (.ok value state) post leaving machine)
    (hn : ∀ machine, post value state machine → Simulates setting result post' leaving machine) :
    Simulates setting result post' leaving machine :=
  h.onward nofun hn

/-- A machine that has the value of an evaluation may go on while nothing more is evaluated. -/
theorem Simulates.finish {setting : Setting} {result : EStateM.Result Interrupt State α}
    {post post' : α → State → Machine → Prop} {leaving : Datum → State → Machine → Prop}
    {machine : Machine} (h : Simulates setting result post leaving machine)
    (hn : ∀ value state machine, post value state machine →
      Simulates setting (.ok value state) post' leaving machine) :
    Simulates setting result post' leaving machine := by
  cases result with
  | ok value state => exact h.seq (hn value state)
  | error interrupt state =>
      apply Machine.Eventually.bind h (fun _ _ => id)
      intro machine hreached
      cases interrupt with
      | returned value => exact .now hreached
      | failed error => exact hreached.elim
      | outOfFuel => exact hreached.elim

/-- A place in a run: a call, or the program outside of all calls. -/
structure Site where
  self : Activation
  fn : Function
  free : List Value
  below : List Value
  callers : List Frame

/-- The bounds of what is in reach. -/
def Core.Activation.bounds (names : Nat) : Activation → Bounds
  | .program => .outside names
  | .call fn free => .within names fn.locals free.length

theorem Core.Activation.names_bounds (self : Activation) (names : Nat) :
    (self.bounds names).names = names := by
  cases self <;> rfl

/-- A call has all the local slots of its function, and the program has none. -/
def Core.Activation.Admits : Activation → List Datum → Prop
  | .program, locals => locals = []
  | .call fn _, locals => fn.locals ≤ locals.length

theorem Core.Activation.Admits.le {self : Activation} {locals : List Datum}
    (h : self.Admits locals) (names : Nat) : (self.bounds names).locals ≤ locals.length := by
  cases self with
  | program => exact Nat.zero_le _
  | call fn free => exact h

theorem Core.Activation.Admits.set {self : Activation} {locals : List Datum}
    (h : self.Admits locals) (index : Nat) (value : Datum) :
    self.Admits (locals.set index value) := by
  cases self with
  | program =>
      rw [Admits] at h
      rw [h]
      rfl
  | call fn free => simpa [Admits] using h

/-- A site is that of the program, or of a call of a compiled function. Calls further in may go as
deep as the fuel allows before the machine reaches its limit. -/
structure Site.Valid (setting : Setting) (fuel : Nat) (site : Site) : Prop where
  depth : setting.limits.maxFrames ≤ site.callers.length + 1 + fuel
  program : site.self = .program → site.callers = []
  call : ∀ fn free, site.self = .call fn free → site.callers ≠ [] ∧
    Implements setting.constants setting.names free.length fn site.fn ∧
    List.Forall₂ setting.Stands free site.free

/-- A machine is at a state of a site, with some values above the locals, and the next instruction
at an offset. -/
structure At (setting : Setting) (site : Site) (state : State) (temps : List Value) (next : Nat)
    (machine : Machine) : Prop where
  world : setting.Keeps state.toWorld machine
  frame : machine.frame = ⟨site.fn, site.free, next, site.below.length⟩
  callers : machine.callers = site.callers
  room : machine.Room
  admits : site.self.Admits state.locals
  stack : ∃ locals, List.Forall₂ setting.Stands state.locals locals ∧
    machine.inUse = site.below ++ locals ++ temps

namespace At

variable {setting : Setting} {site : Site} {state : State} {temps : List Value} {next : Nat}
variable {machine : Machine} {fail : RuntimeError → Machine → Prop}

theorem sane (h : At setting site state temps next machine) : setting.Sane machine :=
  h.world.sane

end At

end StackScript
