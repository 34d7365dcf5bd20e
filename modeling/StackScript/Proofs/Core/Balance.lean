import StackScript.Proofs.Core.Fit
import StackScript.Proofs.Core.Sound
import StackScript.Proofs.Machine.Execution

/-!
# Generated code is balanced

An instruction takes some values off the stack and puts others on it. Code leads from an offset to
certain ends if no instruction ever finds fewer values above the locals than it takes, and if every
way that the jumps allow goes forward, until it returns or comes to such an end. The code of an
expression leads behind itself with one value more, that of a statement with as many as before, and
that of the body of a function always returns.

The whole code of a function is balanced: it never ends but by returning, and stores values in the
slots of its locals alone.

## Implementation notes

Where code leads is a property of bytes: it speaks of decoded instructions and of the offsets that
each of them may go on at. A generator is said to shift the number of values, which is stated
backwards: its code leads wherever the code behind it leads.
-/

namespace StackScript

open StackScript.Core

namespace Instruction

/-- How many values an instruction takes off the stack. -/
def takes (instruction : Instruction) : Nat :=
  match instruction.op with
  | .constant | .pushTrue | .pushFalse | .pushNull | .jump | .getGlobal | .getLocal | .getBuiltin
  | .getFree | .currentClosure | .returnNull => 0
  | .pop | .not | .negate | .jumpUnless | .setGlobal | .setLocal | .returnValue => 1
  | .add | .subtract | .multiply | .divide | .equal | .notEqual | .greater | .index => 2
  | .array | .hash => instruction.first
  | .call => instruction.first + 1
  | .closure => instruction.second

/-- How many values an instruction puts on the stack. -/
def gives (instruction : Instruction) : Nat :=
  match instruction.op with
  | .pop | .jump | .jumpUnless | .setGlobal | .setLocal | .returnValue | .returnNull => 0
  | _ => 1

/-- The offsets at which the code may go on behind an instruction at an offset. -/
def successors (instruction : Instruction) (next : Nat) : List Nat :=
  match instruction.op with
  | .jump => [instruction.first]
  | .jumpUnless => [next + instruction.size, instruction.first]
  | .returnValue | .returnNull => []
  | _ => [next + instruction.size]

/-- What can be read at the offsets of instructions that stand one behind the other. -/
def Along (reads : Nat → Instruction → Prop) : (start : Nat) → List Instruction → Prop
  | _, [] => True
  | start, instruction :: rest =>
    reads start instruction ∧ Along reads (start + instruction.size) rest

theorem along_append {reads : Nat → Instruction → Prop} {start : Nat}
    {front back : List Instruction} : Along reads start (front ++ back) ↔
      Along reads start front ∧ Along reads (start + sizes front) back := by
  induction front generalizing start with
  | nil => simp [Along]
  | cons instruction front ih => simp [Along, ih, and_assoc, Nat.add_assoc]

/-- Code that carries instructions can be read along them, with what is known of each of them. -/
theorem along_of_carries (property : Nat → Instruction → Prop) {code : Code} {start : Nat}
    {instructions : List Instruction} (hc : code.Carries start instructions)
    (h : ∀ front instruction back, instructions = front ++ instruction :: back →
      property (start + sizes front) instruction) :
    Along (fun next instruction => decode code next = .ok instruction ∧ property next instruction)
      start instructions := by
  induction instructions generalizing start with
  | nil => exact trivial
  | cons instruction rest ih =>
      refine ⟨⟨hc.1, h [] instruction rest rfl⟩, ih hc.2 fun front other back heq => ?_⟩
      rw [Nat.add_assoc, ← sizes_cons]
      exact h (instruction :: front) other back (by rw [heq, List.cons_append])

/-- From an offset with so many values above the locals, every way through the instructions that can
be read goes forward, until it returns or comes to an end, and always finds the values that it
takes. -/
inductive Leads (reads : Nat → Instruction → Prop) (ends : Nat → Nat → Prop) :
    (next height : Nat) → Prop where
  | stop {next height : Nat} (h : ends next height) : Leads reads ends next height
  | next {next height : Nat} {instruction : Instruction} (read : reads next instruction)
    (enough : instruction.takes ≤ height)
    (forward : ∀ after ∈ instruction.successors next, next < after)
    (rest : ∀ after ∈ instruction.successors next,
      Leads reads ends after (height - instruction.takes + instruction.gives)) :
    Leads reads ends next height

/-- Instructions of functions ask for the closure that runs, and store values in the slots of the
locals alone. -/
structure Admitted (inside : Bool) (slots : Nat) (instruction : Instruction) : Prop where
  self : instruction.op = .currentClosure → inside = true
  stored : instruction.op = .setLocal → instruction.first < slots

end Instruction

/-- Code is balanced from an offset on, where so many values lie above the locals: it leads to the
end of the stream outside of functions, and to no end in them. -/
def Code.Balanced (code : Code) (inside : Bool) (slots : Nat) : (next height : Nat) → Prop :=
  Instruction.Leads
    (fun next instruction =>
      Instruction.decode code next = .ok instruction ∧ instruction.Admitted inside slots)
    fun next _ => inside = false ∧ next = code.size

/-- How many slots a function has for its parameters and its other locals. -/
def FunctionOver.slots {κ : Type} (fn : FunctionOver κ) : Nat :=
  max fn.locals fn.parameters

/-- The code of a function is balanced from its start, where nothing lies above the locals. -/
def FunctionOver.Balanced (fn : Function) : Prop :=
  fn.code.Balanced true fn.slots 0 0

namespace Core.Generator

open Instruction

variable {inside : Bool} {slots : Nat} {first second : Generator} {low middle high : Nat}

/-- The code takes the number of values above the locals from one number to another: it leads to
where the code behind it leads. -/
def Shifts (low high : Nat) (generator : Generator) : Prop :=
  ∀ reads ends start pool height, Along reads start (generator start pool).code →
    Leads reads ends (start + sizes (generator start pool).code) (height + high) →
      Leads reads ends start (height + low)

/-- The code never goes on behind its end. -/
def Returns (low : Nat) (generator : Generator) : Prop :=
  ∀ reads ends start pool height, Along reads start (generator start pool).code →
    Leads reads ends start (height + low)

/-- All instructions of the code are admitted in functions with so many slots, or outside of
functions. -/
def Admitted (inside : Bool) (slots : Nat) (generator : Generator) : Prop :=
  ∀ start pool, ∀ instruction ∈ (generator start pool).code, instruction.Admitted inside slots

/-- The functions among the constants have balanced code. -/
def BalancedFunctions (generator : Generator) : Prop :=
  ∀ start pool fn, (generator start pool).Encodable →
    .function fn ∈ (generator start pool).constants → (assembled fn).Balanced

/-! ## Shifts -/

/-- Other values may lie below. -/
theorem Shifts.add (h : first.Shifts low high) (below : Nat) :
    first.Shifts (below + low) (below + high) := by
  intro reads ends start pool height hcode hrest
  rw [← Nat.add_assoc] at hrest ⊢
  exact h reads ends start pool (height + below) hcode hrest

theorem Returns.shifts (h : first.Returns low) (high : Nat) : first.Shifts low high :=
  fun reads ends start pool height hcode _ => h reads ends start pool height hcode

theorem shifts_empty (low : Nat) : empty.Shifts low low :=
  fun _ _ _ _ _ _ hrest => hrest

theorem Shifts.append (hf : first.Shifts low middle) (hs : second.Shifts middle high) :
    (first ++ second).Shifts low high := by
  intro reads ends start pool height hcode hrest
  rw [append_apply] at hcode hrest
  obtain ⟨hfirst, hsecond⟩ := along_append.mp hcode
  rw [sizes_append, ← Nat.add_assoc] at hrest
  exact hf reads ends start pool height hfirst (hs reads ends _ _ height hsecond hrest)

theorem Returns.append (hf : first.Shifts low middle) (hs : second.Returns middle) :
    (first ++ second).Returns low := by
  intro reads ends start pool height hcode
  rw [append_apply] at hcode
  obtain ⟨hfirst, hsecond⟩ := along_append.mp hcode
  exact hf reads ends start pool height hfirst (hs reads ends _ _ height hsecond)

/-- One instruction behind which the code goes on. -/
theorem shifts_single (instruction : Instruction)
    (hn : ∀ next, instruction.successors next = [next + instruction.size]) :
    (single instruction).Shifts instruction.takes instruction.gives := by
  intro reads ends start pool height hcode hrest
  refine .next hcode.1 (Nat.le_add_left _ _) ?_ ?_
  · rw [hn, List.forall_mem_singleton]
    exact Nat.lt_add_of_pos_right instruction.size_pos
  · rw [hn, List.forall_mem_singleton, Nat.add_sub_cancel]
    simpa [single] using hrest

/-- One instruction that returns. -/
theorem returns_single {instruction : Instruction}
    (hop : instruction.op = .returnValue ∨ instruction.op = .returnNull) :
    (single instruction).Returns instruction.takes := by
  intro reads ends start pool height hcode
  have hnone : instruction.successors start = [] := by
    rcases hop with hop | hop <;> simp [successors, hop]
  refine .next hcode.1 (Nat.le_add_left _ _) ?_ ?_
  · simp [hnone]
  · simp [hnone]

/-- Both branches leave as many values, whichever of them is taken. -/
theorem Shifts.branches (hf : first.Shifts low high) (hs : second.Shifts low high) :
    (branches first second).Shifts (low + 1) high := by
  intro reads ends start pool height hcode hrest
  obtain ⟨middle, last, heq, hmiddle, hlast⟩ := branches_apply first second start pool
  have hunless : Instruction.size ⟨.jumpUnless, [middle]⟩ = 3 := rfl
  have hjump : Instruction.size ⟨.jump, [last]⟩ = 3 := rfl
  simp only [heq, append_apply, single, sizes_append, sizes_cons, sizes_nil, hunless, hjump,
    List.length_nil, List.nil_append, Nat.add_zero, ← Nat.add_assoc, ← hmiddle] at hcode hrest
  obtain ⟨hfirst, hsecond⟩ := along_append.mp hcode
  obtain ⟨⟨hread, -⟩, hconsequent⟩ := along_append.mp hfirst
  obtain ⟨⟨hread', -⟩, halternative⟩ := along_append.mp hsecond
  simp only [sizes_append, sizes_cons, sizes_nil, hunless, hjump, Nat.add_zero, ← Nat.add_assoc,
    ← hmiddle] at hread' hconsequent halternative
  rw [← hlast] at hrest
  -- The first branch ends at the jump over the second one.
  have hover : Leads reads ends (start + 3 + sizes (first (start + 3) pool).code)
      (height + high) := by
    refine .next hread' (Nat.zero_le _) ?_ ?_
    · rw [show successors ⟨.jump, [last]⟩ _ = [last] from rfl, List.forall_mem_singleton]
      omega
    · rw [show successors ⟨.jump, [last]⟩ _ = [last] from rfl, List.forall_mem_singleton]
      exact hrest
  have hother := hs reads ends _ _ height halternative
  rw [← hlast] at hother
  refine .next hread (Nat.le_add_left 1 _) ?_ ?_
  · rw [show successors ⟨.jumpUnless, [middle]⟩ start = [start + 3, middle] from rfl,
      List.forall_mem_cons, List.forall_mem_singleton]
    omega
  · rw [show successors ⟨.jumpUnless, [middle]⟩ start = [start + 3, middle] from rfl,
      List.forall_mem_cons, List.forall_mem_singleton]
    exact ⟨hf reads ends _ _ height hconsequent hover, hother hrest⟩

theorem shifts_load (symbol : Symbol) : (single symbol.load).Shifts 0 1 := by
  unfold Symbol.load
  cases symbol.place with
  | function => exact shifts_single ⟨.currentClosure, []⟩ fun _ => rfl
  | global => exact shifts_single ⟨.getGlobal, _⟩ fun _ => rfl
  | «local» => exact shifts_single ⟨.getLocal, _⟩ fun _ => rfl
  | builtin => exact shifts_single ⟨.getBuiltin, _⟩ fun _ => rfl
  | free => exact shifts_single ⟨.getFree, _⟩ fun _ => rfl

theorem shifts_store (symbol : Symbol) : (single symbol.store).Shifts 1 0 := by
  unfold Symbol.store
  split
  · exact shifts_single ⟨.setGlobal, _⟩ fun _ => rfl
  · exact shifts_single ⟨.setLocal, _⟩ fun _ => rfl

variable {name : Option String} {parameters locals : Nat} {captures : List Symbol}

/-- The captured values are put on the stack, and the closure takes their place. -/
theorem shifts_closure : (closure name parameters locals captures first).Shifts 0 1 := by
  have hloads : ∀ captures : List Symbol,
      Shifts 0 captures.length fun _ _ => ⟨captures.map Symbol.load, []⟩ := by
    intro captures
    induction captures with
    | nil => exact shifts_empty 0
    | cons symbol captures ih =>
        have hrest := ih.add 1
        rw [Nat.add_comm 1 captures.length] at hrest
        exact (shifts_load symbol).append hrest
  intro reads ends start pool height
  exact ((hloads captures).append (shifts_single
    ⟨.closure, [pool + (first 0 pool).constants.length, captures.length]⟩
    fun _ => rfl)) reads ends start pool height

/-! ## Admitted instructions -/

theorem Admitted.append (hf : first.Admitted inside slots) (hs : second.Admitted inside slots) :
    (first ++ second).Admitted inside slots := by
  intro start pool
  rw [append_apply]
  exact List.forall_mem_append.mpr ⟨hf start pool, hs _ _⟩

theorem admitted_empty : empty.Admitted inside slots :=
  fun _ _ => List.forall_mem_nil _

theorem admitted_single {instruction : Instruction} (h : instruction.Admitted inside slots) :
    (single instruction).Admitted inside slots :=
  fun _ _ => List.forall_mem_singleton.mpr h

/-- Most instructions are admitted anywhere. -/
theorem admitted_of_ne {op : Opcode} (operands : List Nat) (hc : op ≠ .currentClosure)
    (hs : op ≠ .setLocal) : (single ⟨op, operands⟩).Admitted inside slots :=
  admitted_single ⟨fun h => absurd h hc, fun h => absurd h hs⟩

theorem admitted_constant (value : Constant) : (constant value).Admitted inside slots :=
  fun _ _ => List.forall_mem_singleton.mpr ⟨nofun, nofun⟩

theorem Admitted.branches (hf : first.Admitted inside slots) (hs : second.Admitted inside slots) :
    (branches first second).Admitted inside slots := by
  intro start pool
  obtain ⟨middle, last, heq, -⟩ := branches_apply first second start pool
  have hunless : (single ⟨.jumpUnless, [middle]⟩).Admitted inside slots :=
    admitted_of_ne _ nofun nofun
  have hjump : (single ⟨.jump, [last]⟩).Admitted inside slots := admitted_of_ne _ nofun nofun
  rw [heq]
  exact ((hunless.append hf).append (hjump.append hs)) start pool

/-- A symbol that fits is loaded by an instruction that is admitted. -/
theorem admitted_load {symbol : Symbol} {bounds : Bounds} (h : symbol.Fits bounds) :
    symbol.load.Admitted bounds.inside slots := by
  unfold Symbol.Fits at h
  unfold Symbol.load
  cases hp : symbol.place <;> rw [hp] at h
  case function => exact ⟨fun _ => h, nofun⟩
  all_goals exact ⟨nofun, nofun⟩

/-- A variable that fits is stored by an instruction that is admitted. -/
theorem admitted_store {symbol : Symbol} {bounds : Bounds} (hv : symbol.IsVariable)
    (h : symbol.Fits bounds) : symbol.store.Admitted inside bounds.locals := by
  unfold Symbol.Fits at h
  unfold Symbol.store
  rcases hv with hp | hp
  · rw [if_pos hp]
    exact ⟨nofun, nofun⟩
  · rw [if_neg (by simp [hp])]
    rw [hp] at h
    exact ⟨nofun, fun _ => h⟩

theorem admitted_closure {bounds : Bounds} (h : ∀ symbol ∈ captures, symbol.Fits bounds) :
    (closure name parameters locals captures first).Admitted bounds.inside slots := by
  intro start pool instruction hm
  rcases List.mem_append.mp hm with hm | hm
  · obtain ⟨symbol, hsymbol, rfl⟩ := List.mem_map.mp hm
    exact admitted_load (h symbol hsymbol)
  · obtain rfl := List.mem_singleton.mp hm
    exact ⟨nofun, nofun⟩

/-! ## Functions -/

theorem BalancedFunctions.append (hf : first.BalancedFunctions) (hs : second.BalancedFunctions) :
    (first ++ second).BalancedFunctions := by
  intro start pool fn he hm
  rw [append_apply] at he hm
  rcases List.mem_append.mp hm with hm | hm
  · exact hf start pool fn he.left hm
  · exact hs _ _ fn he.right hm

theorem balancedFunctions_empty : empty.BalancedFunctions :=
  fun _ _ _ _ hm => nomatch hm

theorem balancedFunctions_single (instruction : Instruction) :
    (single instruction).BalancedFunctions :=
  fun _ _ _ _ hm => nomatch hm

theorem balancedFunctions_constant {value : Constant} (h : value.isFunction = false) :
    (constant value).BalancedFunctions := by
  intro start pool fn _ hm
  obtain rfl : .function fn = value := by simpa [constant] using hm
  cases h

theorem BalancedFunctions.branches (hf : first.BalancedFunctions)
    (hs : second.BalancedFunctions) : (branches first second).BalancedFunctions := by
  intro start pool fn
  obtain ⟨middle, last, heq, -⟩ := branches_apply first second start pool
  rw [heq]
  exact (((balancedFunctions_single _).append hf).append
    ((balancedFunctions_single _).append hs)) start pool fn

/-- The code of a function has a stream of its own. -/
theorem BalancedFunctions.closure (hf : first.BalancedFunctions) (hr : first.Returns 0)
    (ha : first.Admitted true locals) :
    (closure name parameters locals captures first).BalancedFunctions := by
  intro start pool fn he hm
  rcases List.mem_append.mp hm with hm | hm
  · exact hf 0 pool fn (encodable_body he) hm
  · obtain ⟨⟩ := List.mem_singleton.mp hm
    refine hr _ _ 0 pool 0 (along_of_carries _
      (Code.carries_ofInstructions (encodable_body he).code) fun _ instruction _ heq => ?_)
    have hadmitted := ha 0 pool instruction (heq ▸ List.mem_append_cons_self)
    exact ⟨hadmitted.self, fun hop => Nat.lt_of_lt_of_le (hadmitted.stored hop) (Nat.le_max_left _ _)⟩

end Core.Generator

namespace Core

open Generator Instruction

/-! ## Shifts of whole programs -/

/-- The code of an expression leaves one value more. -/
def Expr.Shifts (expr : Expr) : Prop :=
  expr.generate.Shifts 0 1

/-- The code of a statement leaves as many values as before, unless it returns. -/
def Stmt.Shifts (stmt : Stmt) : Prop :=
  stmt.generate.Shifts 0 0 ∧ (stmt.returns = true → stmt.generate.Returns 0)

/-- The code of a block leaves one value more as a branch, and returns as a body. -/
def Block.Shifts (block : Block) : Prop :=
  block.generate.Shifts 0 1 ∧ block.generateBody.Returns 0

theorem Expr.generateAll_shifts {exprs : List Expr} (h : ∀ expr ∈ exprs, expr.Shifts) :
    (Expr.generateAll exprs).Shifts 0 exprs.length := by
  induction exprs with
  | nil => exact shifts_empty 0
  | cons expr exprs ih =>
      rw [List.forall_mem_cons] at h
      have hrest := (ih h.2).add 1
      rw [Nat.add_comm 1 exprs.length] at hrest
      exact Shifts.append h.1 hrest

theorem Expr.Shifts.returns {expr : Expr} (h : expr.Shifts) :
    (expr.generate ++ single ⟨.returnValue, []⟩).Returns 0 :=
  Returns.append h (returns_single (.inl rfl))

/-- Wholes shift the number of values if their parts do. -/
theorem compositional_shifts : Compositional Expr.Shifts Stmt.Shifts Block.Shifts where
  integer _ := fun reads ends start pool =>
    shifts_single ⟨.constant, [pool]⟩ (fun _ => rfl) reads ends start pool
  text _ := fun reads ends start pool =>
    shifts_single ⟨.constant, [pool]⟩ (fun _ => rfl) reads ends start pool
  boolean value := by
    cases value with
    | true => exact shifts_single ⟨.pushTrue, []⟩ fun _ => rfl
    | false => exact shifts_single ⟨.pushFalse, []⟩ fun _ => rfl
  name symbol := shifts_load symbol
  unary op argument ha := by
    refine Generator.Shifts.append ha ?_
    cases op with
    | negate => exact shifts_single ⟨.negate, []⟩ fun _ => rfl
    | not => exact shifts_single ⟨.not, []⟩ fun _ => rfl
  binary op left right hl hr := by
    have hop : (single ⟨op.opcode, []⟩).Shifts 2 1 := by
      rcases op with (_ | _ | _ | _) | (_ | _ | _) | _
      all_goals exact shifts_single ⟨_, []⟩ fun _ => rfl
    exact Generator.Shifts.append (Generator.Shifts.append hl (Generator.Shifts.add hr 1)) hop
  condition test consequent alternative ht hc ha :=
    Generator.Shifts.append ht (hc.1.branches ha.1)
  function name parameters locals captures body _ := shifts_closure
  call callee arguments hc ha := by
    have harguments := (Expr.generateAll_shifts ha).add 1
    rw [Nat.add_comm 1 arguments.length] at harguments
    exact (Generator.Shifts.append hc harguments).append
      (shifts_single ⟨.call, [arguments.length]⟩ fun _ => rfl)
  collect kind elements he := by
    refine (Expr.generateAll_shifts he).append ?_
    cases kind with
    | array => exact shifts_single ⟨.array, [elements.length]⟩ fun _ => rfl
    | hash => exact shifts_single ⟨.hash, [elements.length]⟩ fun _ => rfl
  store symbol value hv := ⟨Generator.Shifts.append hv (shifts_store symbol), nofun⟩
  discard value hv :=
    ⟨Generator.Shifts.append hv (shifts_single ⟨.pop, []⟩ fun _ => rfl), nofun⟩
  returnValue value hv := ⟨hv.returns.shifts 0, fun _ => hv.returns⟩
  returnNull := by
    have hreturns : (single ⟨.returnNull, []⟩).Returns 0 := returns_single (.inr rfl)
    exact ⟨hreturns.shifts 0, fun _ => hreturns⟩
  null := ⟨shifts_single ⟨.pushNull, []⟩ fun _ => rfl, returns_single (.inr rfl)⟩
  value result hr := ⟨hr, hr.returns⟩
  next stmt rest hs hr := by
    refine ⟨hs.1.append hr.1, ?_⟩
    rw [Block.generateBody]
    split
    case isTrue hreturning => exact hs.2 (Bool.and_eq_true_iff.mp hreturning).1
    case isFalse => exact Returns.append hs.1 hr.2

/-- The code of statements leaves as many values as before. -/
theorem Stmt.generateAll_shifts (stmts : List Stmt) : (Stmt.generateAll stmts).Shifts 0 0 := by
  induction stmts with
  | nil => exact shifts_empty 0
  | cons stmt stmts ih => exact (compositional_shifts.statement stmt).1.append ih

/-! ## Balance of whole programs -/

/-- Inside of the bounds, all instructions are admitted and all functions have balanced code. -/
def Generator.Balanced (bounds : Bounds) (generator : Generator) : Prop :=
  generator.Admitted bounds.inside bounds.locals ∧ generator.BalancedFunctions

theorem Generator.Balanced.append {bounds : Bounds} {first second : Generator}
    (hf : first.Balanced bounds) (hs : second.Balanced bounds) : (first ++ second).Balanced bounds :=
  ⟨hf.1.append hs.1, hf.2.append hs.2⟩

theorem Generator.balanced_of_ne {bounds : Bounds} {op : Opcode} (operands : List Nat)
    (hc : op ≠ .currentClosure) (hs : op ≠ .setLocal) : (single ⟨op, operands⟩).Balanced bounds :=
  ⟨admitted_of_ne operands hc hs, balancedFunctions_single _⟩

/-- The code of an expression that fits is balanced. -/
def Expr.Balanced (expr : Expr) : Prop :=
  ∀ bounds, expr.Fits bounds → expr.generate.Balanced bounds

def Stmt.Balanced (stmt : Stmt) : Prop :=
  ∀ bounds, stmt.Fits bounds → stmt.generate.Balanced bounds

/-- The code of a block that fits is balanced, as a branch and as a body. -/
def Block.Balanced (block : Block) : Prop :=
  ∀ bounds, block.Fits bounds → block.generate.Balanced bounds ∧ block.generateBody.Balanced bounds

theorem Expr.generateAll_balanced {exprs : List Expr} (h : ∀ expr ∈ exprs, expr.Balanced)
    {bounds : Bounds} (hf : Expr.AllFit exprs bounds) :
    (Expr.generateAll exprs).Balanced bounds := by
  induction exprs with
  | nil => exact ⟨admitted_empty, balancedFunctions_empty⟩
  | cons expr exprs ih =>
      rw [List.forall_mem_cons] at h
      exact (h.1 bounds hf.1).append (ih h.2 hf.2)

/-- Wholes generate balanced code if their parts do. -/
theorem compositional_balanced : Compositional Expr.Balanced Stmt.Balanced Block.Balanced where
  integer _ _ _ := ⟨admitted_constant _, balancedFunctions_constant rfl⟩
  text _ _ _ := ⟨admitted_constant _, balancedFunctions_constant rfl⟩
  boolean value _ _ := by
    cases value with
    | true => exact balanced_of_ne _ nofun nofun
    | false => exact balanced_of_ne _ nofun nofun
  name symbol bounds h := ⟨admitted_single (admitted_load h), balancedFunctions_single _⟩
  unary op argument ha bounds h := by
    refine (ha bounds h).append ?_
    cases op with
    | negate => exact balanced_of_ne _ nofun nofun
    | not => exact balanced_of_ne _ nofun nofun
  binary op left right hl hr bounds h := by
    refine ((hl bounds h.1).append (hr bounds h.2)).append ?_
    rcases op with (_ | _ | _ | _) | (_ | _ | _) | _
    all_goals exact balanced_of_ne _ nofun nofun
  condition test consequent alternative ht hc ha bounds h := by
    obtain ⟨hadmitted, hfunctions⟩ := (hc bounds h.2.1).1
    obtain ⟨hadmitted', hfunctions'⟩ := (ha bounds h.2.2).1
    exact (ht bounds h.1).append ⟨hadmitted.branches hadmitted', hfunctions.branches hfunctions'⟩
  function name parameters locals captures body hb bounds h := by
    obtain ⟨hadmitted, hfunctions⟩ := (hb _ h.2).2
    exact ⟨admitted_closure h.1,
      hfunctions.closure (compositional_shifts.block body).2 hadmitted⟩
  call callee arguments hc ha bounds h :=
    ((hc bounds h.1).append (Expr.generateAll_balanced ha h.2)).append
      (balanced_of_ne _ nofun nofun)
  collect kind elements he bounds h := by
    refine (Expr.generateAll_balanced he h).append ?_
    cases kind with
    | array => exact balanced_of_ne _ nofun nofun
    | hash => exact balanced_of_ne _ nofun nofun
  store symbol value hv bounds h :=
    (hv bounds h.2.2).append
      ⟨admitted_single (admitted_store h.1 h.2.1), balancedFunctions_single _⟩
  discard value hv bounds h := (hv bounds h).append (balanced_of_ne _ nofun nofun)
  returnValue value hv bounds h := (hv bounds h).append (balanced_of_ne _ nofun nofun)
  returnNull _ _ := balanced_of_ne _ nofun nofun
  null bounds _ := ⟨balanced_of_ne _ nofun nofun, balanced_of_ne _ nofun nofun⟩
  value result hr bounds h :=
    ⟨hr bounds h, (hr bounds h).append (balanced_of_ne _ nofun nofun)⟩
  next stmt rest hs hr bounds h := by
    have hstmt := hs bounds h.1
    obtain ⟨hbranch, hbody⟩ := hr bounds h.2
    refine ⟨hstmt.append hbranch, ?_⟩
    rw [Block.generateBody]
    split
    case isTrue => exact hstmt
    case isFalse => exact hstmt.append hbody

/-- The code of statements that fit is balanced. -/
theorem Stmt.generateAll_balanced {stmts : List Stmt} {bounds : Bounds}
    (h : ∀ stmt ∈ stmts, stmt.Fits bounds) : (Stmt.generateAll stmts).Balanced bounds := by
  induction stmts with
  | nil => exact ⟨admitted_empty, balancedFunctions_empty⟩
  | cons stmt stmts ih =>
      rw [List.forall_mem_cons] at h
      exact (compositional_balanced.statement stmt bounds h.1).append (ih h.2)

end Core

end StackScript
