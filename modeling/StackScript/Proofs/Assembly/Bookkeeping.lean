import StackScript.Proofs.Assembly.Generation
import StackScript.Proofs.Assembly.Tracking

/-!
# Code is appended and accounted for

While a program is compiled, what stands in a buffer stays there: jumps are patched and discarded
values are taken back only in code that is not yet complete. The buffers of the functions around are
left alone, and every buffer knows what its last instruction is.

## Implementation notes

The tasks of an expression are followed from any bench on, with what holds at every moment on the way.
The states that a program reaches are then moments on its own way, since there is only one.
-/

namespace StackScript

open StackScript.Core Instruction Assembly

/-! ## Tasks -/

/-- The tasks do to any assembly what a step does to it, leave the buffers of the functions around as
they were, and touch nothing on the way that was there before. -/
def Amounts (tasks : List Task) (step : Assembly.Step) : Prop :=
  ∀ bench : Bench, bench.Tidy →
    Proceeds bench.Continues tasks bench (bench.holding <$> step bench.assembly)

namespace Amounts

variable {tasks more : List Task} {step next : Assembly.Step}

theorem nil : Amounts [] .ok :=
  fun _ h => .done (.refl h)

theorem append (h : Amounts tasks step) (hn : Amounts more next) :
    Amounts (tasks ++ more) fun assembly => step assembly >>= next := by
  intro bench htidy
  rw [map_bind]
  refine (h bench htidy).andThen fun after _ hcontinues => ?_
  exact (hn _ hcontinues.tidy).mono fun _ hlater => hcontinues.trans hlater

theorem cons {task : Task} (h : Amounts [task] step) (hn : Amounts tasks next) :
    Amounts (task :: tasks) fun assembly => step assembly >>= next :=
  h.append hn

/-- A task that consists of others. -/
theorem of_tasks {task : Task} (hs : ∀ bench, task.step bench = .ok (tasks, bench))
    (h : Amounts tasks step) : Amounts [task] step := by
  intro bench htidy
  refine .goesOn (.refl htidy) (hs bench) ?_
  rw [List.append_nil]
  exact h bench htidy

/-- Something that emits a fragment if it succeeds. -/
theorem perform (h : ∀ before after, step before = .ok after →
    ∃ generator, before.Generates generator after) : Amounts [.perform step] step := by
  intro bench htidy
  refine .perform_last (.refl htidy) fun after hafter => ?_
  obtain ⟨generator, hg⟩ := h bench.assembly after hafter
  exact htidy.generates hg

theorem emit (op : Opcode) (operands : List Nat) :
    Amounts [.perform (·.emit op operands)] (·.emit op operands) :=
  perform fun _ _ h => ⟨_, (generates_of_emit h).2⟩

/-- An action that leaves the buffer alone, and tasks that depend on what it gives. -/
theorem act {action : Assembly → Except CompileError (List Task × Assembly)}
    (h : ∀ before : Assembly,
      (∃ error, action before = .error error ∧ step before = .error error) ∨
        ∃ more after rest, action before = .ok (more, after) ∧ after.buffer = before.buffer ∧
          (∃ added, after.constants = before.constants ++ added) ∧ Amounts more rest ∧
          step before = rest after) : Amounts [.act action] step := by
  intro bench htidy
  obtain ⟨error, haction, hstep⟩ | ⟨more, after, rest, haction, hbuffer, hconstants, hmore, hstep⟩ :=
    h bench.assembly
  · rw [hstep]
    exact .stops (.refl htidy) (Task.step_act_of_error haction)
  · have hkeeps := htidy.keeps hbuffer hconstants
    refine .goesOn (.refl htidy) (Task.step_act_of_ok haction) ?_
    rw [List.append_nil, hstep]
    exact (hmore _ hkeeps.tidy).mono fun _ hlater => hkeeps.trans hlater

theorem constant (value : Value) (op : Opcode) (operands : List Nat) :
    Amounts [.constant value op operands] fun assembly =>
      let (index, assembly) := assembly.addConstant value
      assembly.emit op (index :: operands) := by
  refine act fun before => .inr ?_
  exact ⟨_, _, _, rfl, rfl, ⟨#[value], by simp⟩, emit op _, rfl⟩

theorem load (symbol : Symbol) : Amounts [.perform (·.load symbol)] (·.load symbol) :=
  perform fun _ _ h => ⟨_, (generates_of_load h).2⟩

theorem loads (symbols : List Symbol) :
    Amounts (symbols.map fun symbol => .perform (·.load symbol)) (symbols.foldlM Assembly.load) := by
  induction symbols with
  | nil => exact nil
  | cons symbol symbols ih => exact (load symbol).cons ih

/-- A name is looked up, and what is done then depends on what it stands for. -/
theorem lookup (id : String)
    {action : Symbol × Assembly → Except CompileError (List Task × Assembly)}
    {next : Symbol × Assembly → Except CompileError Assembly}
    (h : ∀ symbol found, (∃ error, action (symbol, found) = .error error ∧
        next (symbol, found) = .error error) ∨
      ∃ more rest, action (symbol, found) = .ok (more, found) ∧ Amounts more rest ∧
        next (symbol, found) = rest found) :
    Amounts [.act fun assembly => assembly.lookup id >>= action]
      (fun assembly => assembly.lookup id >>= next) := by
  refine act fun before => ?_
  cases hlookup : before.lookup id with
  | error error => exact .inl ⟨error, rfl, rfl⟩
  | ok result =>
      obtain ⟨symbol, found⟩ := result
      obtain ⟨-, hfound⟩ := find_of_lookup hlookup
      obtain ⟨error, haction, hnext⟩ | ⟨more, rest, haction, hmore, hnext⟩ := h symbol found
      · exact .inl ⟨error, haction, hnext⟩
      · exact .inr ⟨more, found, rest, haction, by rw [hfound],
          ⟨#[], by rw [hfound, Array.append_empty]⟩, hmore, hnext⟩

theorem loadName (id : String) :
    Amounts [.loadName id] (Expr.name id).compile :=
  lookup id fun symbol _ => .inr ⟨_, _, rfl, load symbol, rfl⟩

theorem storeBinding (name : String) : Amounts [.storeBinding name] (·.storeBinding name) :=
  act fun _ => .inr ⟨_, _, _, rfl, rfl, ⟨#[], Array.append_empty.symm⟩, emit _ _, rfl⟩

theorem storeVariable (name : String) : Amounts [.storeVariable name] (·.storeVariable name) := by
  refine lookup name fun symbol found => ?_
  obtain ⟨id, place, index⟩ := symbol
  cases place with
  | global => exact .inr ⟨_, _, rfl, emit .setGlobal [index], rfl⟩
  | «local» => exact .inr ⟨_, _, rfl, emit .setLocal [index], rfl⟩
  | builtin | free | function => exact .inl ⟨_, rfl, rfl⟩

theorem statements {stmts : List Stmt}
    (hs : ∀ stmt ∈ stmts, Amounts [.statement stmt] stmt.compile) :
    Amounts (stmts.map .statement) (Stmt.compileAll stmts) := by
  induction stmts with
  | nil => exact nil
  | cons stmt stmts ih =>
      rw [List.forall_mem_cons] at hs
      exact hs.1.cons (ih hs.2)

theorem expressions {exprs : List Expr}
    (hs : ∀ expr ∈ exprs, Amounts [.expression expr] expr.compile) :
    Amounts (exprs.map .expression) (Expr.compileAll exprs) := by
  induction exprs with
  | nil => exact nil
  | cons expr exprs ih =>
      rw [List.forall_mem_cons] at hs
      exact hs.1.cons (ih hs.2)

theorem pairs {pairs : List (Expr × Expr)}
    (hp : ∀ pair ∈ pairs, Amounts [.expression pair.1] pair.1.compile ∧
      Amounts [.expression pair.2] pair.2.compile) :
    Amounts (pairs.flatMap fun pair => [.expression pair.1, .expression pair.2])
      (pairs.foldlM fun assembly pair => Expr.compilePair pair assembly) := by
  induction pairs with
  | nil => exact nil
  | cons pair pairs ih =>
      rw [List.forall_mem_cons] at hp
      exact (hp.1.1.cons hp.1.2).append (ih hp.2)

/-- A branch ends with its value, whose discarding is taken back. -/
theorem branch {block : Option Block}
    (hs : ∀ stmts ∈ block, ∀ stmt ∈ stmts, Amounts [.statement stmt] stmt.compile) :
    Amounts (Task.branch block) (Stmt.compileAlternative block) := by
  cases block with
  | none => exact emit .pushNull []
  | some stmts =>
      intro bench htidy
      refine .goesOn (.refl htidy) rfl ?_
      rw [List.append_nil]
      have hresult : Stmt.compileAlternative (some stmts) bench.assembly =
        Stmt.compileAll stmts bench.assembly >>= (·.endBranch bench.assembly.position) := rfl
      rw [hresult, map_bind]
      refine (statements (hs stmts rfl) bench htidy).andThen fun inner hinner hcontinues => ?_
      refine .perform_last hcontinues fun ended hended => ?_
      obtain ⟨cores, -, hall⟩ :=
        Stmt.compileAll_emitsAll (fun stmt _ => compositional_compiles.statement stmt) hinner
      exact htidy.generates (generates_of_endBranch hall hended).2

/-- Both jumps around the branches are patched where this part of the code has put them. -/
theorem branches {consequent : Block} {alternative : Option Block}
    (hc : ∀ stmt ∈ consequent, Amounts [.statement stmt] stmt.compile)
    (ha : ∀ stmts ∈ alternative, ∀ stmt ∈ stmts, Amounts [.statement stmt] stmt.compile) :
    Amounts (Task.branches consequent alternative) (fun before => do
      let a ← before.emit .jumpUnless [unknownTarget]
      let b ← Stmt.compileAlternative (some consequent) a
      let c ← b.emit .jump [unknownTarget]
      let d ← c.patch before.position c.position
      let e ← Stmt.compileAlternative alternative d
      e.patch b.position e.position) := by
  have hcompiles (block : Option Block) : ∀ stmts ∈ block, ∀ stmt ∈ stmts, stmt.Compiles :=
    fun _ _ stmt _ => compositional_compiles.statement stmt
  intro bench htidy
  refine .goesOn (.refl htidy) rfl ?_
  simp only [List.append_nil, map_bind]
  refine .perform (.refl htidy) fun a hunless => ?_
  have hstarted := htidy.generates (generates_of_emit hunless).2
  refine Proceeds.andThen ((branch (by simpa using hc) _ hstarted.tidy).mono
    fun _ hlater => hstarted.trans hlater) fun b hconsequent hcontinues => ?_
  obtain ⟨_, -, hg⟩ := Stmt.compileAlternative_generates (hcompiles _) hconsequent
  refine .goesOn hcontinues rfl ?_
  rw [List.append_nil]
  refine .perform hcontinues fun c hjump => ?_
  have hjumped := hcontinues.trans (hcontinues.tidy.generates (generates_of_emit hjump).2)
  refine .perform hjumped fun d hpatch => ?_
  -- The patch changes code that stands already. So what it leaves goes on from the start of the
  -- branches, and not from the moment before.
  have hpatched := htidy.generates (generates_firstBranch hunless hg hjump hpatch)
  refine Proceeds.andThen ((branch ha _ hpatched.tidy).mono
    fun _ hlater => hpatched.trans hlater) fun e halternative hcontinues' => ?_
  obtain ⟨_, -, hg'⟩ := Stmt.compileAlternative_generates (hcompiles _) halternative
  refine .perform_last hcontinues' fun after hpatch' => ?_
  exact htidy.generates (generates_branches hunless hg hjump hpatch hg' hpatch')

/-- A function is compiled in a buffer of its own, and the one around it is back when it is left. -/
theorem function (id : Option String) (params : List String) {body : List Stmt}
    (hb : ∀ stmt ∈ body, Amounts [.statement stmt] stmt.compile) :
    Amounts (.enter id params ::
      (body.map .statement ++ [.perform Assembly.endFunction, .leave id params]))
      (Expr.function id params body).compile := by
  intro bench htidy
  have henter := htidy.enter id params
  refine .goesOn (.refl htidy) rfl ?_
  have hresult : (Expr.function id params body).compile bench.assembly = (do
      let inner ← Stmt.compileAll body (bench.assembly.enterFunction id params)
      let ended ← inner.endFunction
      ended.leaveFunction bench.assembly.buffer id params) := rfl
  simp only [hresult, map_bind, List.nil_append]
  refine Proceeds.andThen ((statements hb _ henter.tidy).mono
    fun _ hlater => henter.trans hlater) fun inner hinner hcontinues => ?_
  refine .perform hcontinues fun ended hended => ?_
  obtain ⟨cores, -, hall⟩ :=
    Stmt.compileAll_emitsAll (fun stmt _ => compositional_compiles.statement stmt) hinner
  have hended := henter.trans (henter.tidy.generates (generates_of_endFunction rfl hall hended).2)
  -- The buffer around has been at hand for none of this, and so it is what it was.
  let outer : Assembly :=
    { ended with buffer := bench.assembly.buffer, scope := ended.scope.leave.2 }
  have hleft : bench.Continues (bench.holding outer) := htidy.keeps rfl hended.constants
  refine .goesOn hended rfl ?_
  rw [List.append_nil]
  exact (((loads _).append (constant _ .closure _)) _ hleft.tidy).mono
    fun _ hlater => hleft.trans hlater

/-- An expression that consists of tasks. -/
theorem expression {expr : Expr} (hs : expr.tasks = .ok tasks) (h : Amounts tasks expr.compile) :
    Amounts [.expression expr] expr.compile :=
  of_tasks (fun bench => by rw [Task.step, hs]; rfl) h

/-- An expression that is refused. -/
theorem refused {expr : Expr} {error : CompileError} (hs : expr.tasks = .error error)
    (h : ∀ assembly, expr.compile assembly = .error error) :
    Amounts [.expression expr] expr.compile := by
  intro bench htidy
  rw [h]
  exact .stops (.refl htidy) (by rw [Task.step, hs]; rfl)

theorem boolean (value : Bool) :
    Amounts [.expression (.boolean value)] (Expr.boolean value).compile := by
  cases value with
  | true => exact expression rfl (emit .pushTrue [])
  | false => exact expression rfl (emit .pushFalse [])

theorem unary (op : UnaryOp) {argument : Expr}
    (ha : Amounts [.expression argument] argument.compile) :
    Amounts [.expression (.unary op argument)] (Expr.unary op argument).compile := by
  cases op with
  | plus => exact refused rfl fun _ => rfl
  | minus => exact expression rfl (ha.cons (emit .negate []))
  | not => exact expression rfl (ha.cons (emit .not []))

theorem binary (op : BinaryOp) {left right : Expr} (hl : Amounts [.expression left] left.compile)
    (hr : Amounts [.expression right] right.compile) :
    Amounts [.expression (.binary op left right)] (Expr.binary op left right).compile := by
  cases op with
  | less => exact expression rfl (hr.cons (hl.cons (emit .greater [])))
  | add | subtract | multiply | divide | greater | equal | notEqual =>
      exact expression rfl (hl.cons (hr.cons (emit _ [])))

theorem condition {test : Expr} {consequent : Block} {alternative : Option Block}
    (ht : Amounts [.expression test] test.compile)
    (hc : ∀ stmt ∈ consequent, Amounts [.statement stmt] stmt.compile)
    (ha : ∀ stmts ∈ alternative, ∀ stmt ∈ stmts, Amounts [.statement stmt] stmt.compile) :
    Amounts [.expression (.condition test consequent alternative)]
      (Expr.condition test consequent alternative).compile := by
  refine expression rfl ?_
  have hboth := ht.cons (branches hc ha)
  simpa only [Expr.compile, Stmt.compileAlternative, bind_assoc] using hboth

theorem hash {pairs : List (Expr × Expr)}
    (hp : ∀ pair ∈ pairs, Amounts [.expression pair.1] pair.1.compile ∧
      Amounts [.expression pair.2] pair.2.compile) :
    Amounts [.expression (.hash pairs)] (Expr.hash pairs).compile := by
  cases hfind : pairs.find? fun pair => pair.1.isUnhashable with
  | some pair =>
      have htasks : (Expr.hash pairs).tasks = .error (.unhashableLiteral pair.1.render) := by
        rw [Expr.tasks, hfind]
      exact refused htasks fun assembly => by rw [Expr.compile, hfind]
  | none =>
      have hsorted : ∀ pair ∈ pairs.mergeSort fun a b => textLe a.1.render b.1.render,
          Amounts [.expression pair.1] pair.1.compile ∧
            Amounts [.expression pair.2] pair.2.compile :=
        fun pair hm => hp pair (List.mem_mergeSort.mp hm)
      refine expression (by rw [Expr.tasks, hfind]) ?_
      have hall := (Amounts.pairs hsorted).append (emit .hash [pairs.length * 2])
      have hcompile : (Expr.hash pairs).compile = fun assembly =>
          ((pairs.mergeSort fun a b => textLe a.1.render b.1.render).foldlM
            (fun assembly pair => Expr.compilePair pair assembly) assembly) >>=
              (·.emit .hash [pairs.length * 2]) := by
        funext assembly
        simp only [Expr.compile, hfind, Assembly.inOrder, Expr.compilePairs_eq_map,
          Expr.mergeSort_steps, List.foldlM_map]
      rw [hcompile]
      exact hall

end Amounts

/-- The tasks of an expression or of a statement do what compiling it does. -/
theorem compositional_amounts :
    Compositional (fun expr => Amounts [.expression expr] expr.compile)
      (fun stmt => Amounts [.statement stmt] stmt.compile) where
  name id := .expression rfl (.loadName id)
  integer value := .expression rfl (.constant (.integer value) .constant [])
  text value := .expression rfl (.constant (.text value) .constant [])
  boolean := .boolean
  unary op _ := .unary op
  binary op _ _ := .binary op
  condition _ _ _ := .condition
  function name params _ hb := .expression rfl (.function name params hb)
  call _ arguments hc ha :=
    .expression rfl (hc.cons ((Amounts.expressions ha).append (.emit .call [arguments.length])))
  array elements he :=
    .expression rfl ((Amounts.expressions he).append (.emit .array [elements.length]))
  hash _ := .hash
  index _ _ ho hp := .expression rfl (ho.cons (hp.cons (.emit .index [])))
  binding name _ hv := .of_tasks (fun _ => rfl) (hv.cons (.storeBinding name))
  assign name _ hv := .of_tasks (fun _ => rfl) (hv.cons (.storeVariable name))
  returnValue _ hv := .of_tasks (fun _ => rfl) (hv.cons (.emit .returnValue []))
  returnNull := .of_tasks (fun _ => rfl) (.emit .returnNull [])
  expr _ hv := .of_tasks (fun _ => rfl) (hv.cons (.emit .pop []))

/-! ## States that are reached -/

variable {tasks : List Task} {bench : Bench}

/-- At first there is no code, and no function to compile around it. -/
theorem Bench.tidy_of_empty {assembly : Assembly} (h : assembly.buffer = {}) :
    Bench.Tidy ⟨assembly, []⟩ := by
  refine List.forall_mem_cons.mpr ⟨⟨[], ?_⟩, List.forall_mem_nil _⟩
  rw [h]
  exact Buffer.tracks_nil

/-- Program by program, the tasks do what compiling does. -/
theorem amounts_program (program : Program) :
    Amounts (program.map .statement) (Stmt.compileAll program) :=
  .statements fun stmt _ => compositional_amounts.statement stmt

/-- What is left to do in a state that is reached comes to a result, and goes on from some start. -/
theorem Underway.proceeds (h : Underway tasks bench) :
    ∃ start result, Proceeds (Bench.Continues start) tasks bench result := by
  induction h with
  | start program hb => exact ⟨_, _, amounts_program program _ (Bench.tidy_of_empty hb)⟩
  | step _ hs ih =>
      obtain ⟨start, result, hproceeds⟩ := ih
      exact ⟨start, result, hproceeds.of_step hs⟩

theorem Underway.tidy (h : Underway tasks bench) : bench.Tidy := by
  obtain ⟨start, result, hproceeds⟩ := h.proceeds
  exact hproceeds.holds.tidy

namespace Bench

/-- What was at hand before is still there, with code and constants behind it, and the last
instruction is known. -/
structure Appended (before after : Bench) : Prop where
  code : ∃ added, after.assembly.buffer.code = before.assembly.buffer.code ++ added
  enclosing : after.enclosing = before.enclosing
  constants : ∃ added, after.assembly.constants = before.assembly.constants ++ added
  exact : after.assembly.buffer.Exact

/-- Step by step, a task comes to what compiling gives and to nothing else. At every moment until then
all that was at hand is still there, and in the end there is only code and constants more. -/
structure Appends (bench : Bench) (task : Task) (compile : Assembly.Step) : Prop where
  result : ∀ result, task.ComesTo bench result ↔ result = bench.holding <$> compile bench.assembly
  moments : Proceeds bench.Continues [task] bench (bench.holding <$> compile bench.assembly)
  ended : ∀ after, task.ComesTo bench (.ok after) → bench.Appended after

theorem Continues.appended {start : Bench} (h : start.Continues bench)
    (he : bench.enclosing = start.enclosing) : start.Appended bench where
  code := by
    obtain ⟨inner, current, added, hbuffers, hcode⟩ := h.buffers
    rw [Bench.buffers, he] at hbuffers
    have hlength := congrArg List.length hbuffers
    obtain rfl : inner = [] := by
      apply List.eq_nil_of_length_eq_zero
      simp only [List.length_append, List.length_cons] at hlength
      omega
    obtain ⟨rfl, -⟩ := List.cons.inj hbuffers
    exact ⟨added, hcode⟩
  enclosing := he
  constants := h.constants
  exact := by
    obtain ⟨instructions, htracks⟩ := h.tidy bench.assembly.buffer List.mem_cons_self
    exact htracks.exact

end Bench

theorem Amounts.appends {task : Task} {compile : Assembly.Step} (h : Amounts [task] compile)
    (htidy : bench.Tidy) : bench.Appends task compile where
  result result := by
    have hmoments := h bench htidy
    constructor
    · exact fun hresult => hresult.unique hmoments
    · rintro rfl
      exact hmoments.mono fun _ _ => trivial
  moments := h bench htidy
  ended after hafter := by
    have hmoments := h bench htidy
    have hresult := hafter.unique hmoments
    cases hcompile : compile bench.assembly with
    | error error =>
        rw [hcompile] at hresult
        cases hresult
    | ok assembly =>
        rw [hcompile] at hresult hmoments
        obtain rfl : after = bench.holding assembly := Except.ok.inj hresult
        exact hmoments.holds_of_ok.appended rfl

/-- In every state that is reached while a program is compiled, every buffer knows its last
instruction, and every expression or statement that compiles from there only appends. -/
theorem Underway.compile_appends (h : Underway tasks bench) :
    (∀ buffer ∈ bench.buffers, buffer.Exact) ∧
      (∀ expr : Expr, bench.Appends (.expression expr) expr.compile) ∧
      ∀ stmt : Stmt, bench.Appends (.statement stmt) stmt.compile := by
  refine ⟨fun buffer hm => ?_, fun expr => ?_, fun stmt => ?_⟩
  · obtain ⟨instructions, htracks⟩ := h.tidy buffer hm
    exact htracks.exact
  · exact (compositional_amounts.expression expr).appends h.tidy
  · exact (compositional_amounts.statement stmt).appends h.tidy

/-- A condition, compiled from within a function in a branch of another condition. -/
theorem Underway.compile_appends_nested :
    ∃ tasks bench after, Underway tasks bench ∧ bench.enclosing.length = 1 ∧
      bench.assembly.buffer.last = some ⟨.pop, 2⟩ ∧
      Task.ComesTo (.expression (.condition (.name "x") [.expr (.integer 1)] none)) bench
        (.ok after) ∧
      bench.Appended after := by
  have hstart : Underway _ ⟨Assembly.initial, []⟩ := .start [.expr (.condition (.boolean true)
    [.expr (.function none ["x"] [.expr (.name "x"), .expr (.name "x")])] none)] rfl
  -- The condition as far as its first branch, and the function as far as its second statement.
  have hfacts : (Task.steps 16 ([.statement (.expr (.condition (.boolean true)
      [.expr (.function none ["x"] [.expr (.name "x"), .expr (.name "x")])] none))],
        ⟨Assembly.initial, []⟩)).map (fun state =>
          (state.2.enclosing.length, state.2.assembly.buffer.last,
            (Expr.compile (.condition (.name "x") [.expr (.integer 1)] none)
              state.2.assembly).isOk)) = some (1, some ⟨.pop, 2⟩, true) := by
    decide +kernel
  obtain ⟨⟨tasks, bench⟩, hsteps, hfacts⟩ := Option.map_eq_some_iff.mp hfacts
  obtain ⟨hlength, hlast, hok⟩ : bench.enclosing.length = 1 ∧
      bench.assembly.buffer.last = some ⟨.pop, 2⟩ ∧
      (Expr.compile (.condition (.name "x") [.expr (.integer 1)] none) bench.assembly).isOk = true := by
    simpa using hfacts
  obtain ⟨assembly, hassembly⟩ := Except.exists_of_isOk hok
  have h : Underway tasks bench := hstart.steps hsteps
  have happends := h.compile_appends.2.1 (.condition (.name "x") [.expr (.integer 1)] none)
  have hcomes := (happends.result (.ok (bench.holding assembly))).mpr (by rw [hassembly]; rfl)
  exact ⟨tasks, bench, _, h, hlength, hlast, hcomes, happends.ended _ hcomes⟩

end StackScript
