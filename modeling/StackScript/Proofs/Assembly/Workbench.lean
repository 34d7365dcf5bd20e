import StackScript.Assembly.Compile

/-!
# The compiler at work

Compiling goes in small steps: something is done to the assembly, or a task is replaced by the tasks
that it consists of. What is at hand in between is an assembly and the buffers of the functions around
the one that is being compiled. The states that compiling reaches are those between two steps.

## Implementation notes

What is left to do may depend on the assembly, such as on the position at which a branch starts. An
action therefore gives further tasks together with the assembly that it leaves. Every action is a
single operation of the compiler.
-/

namespace StackScript

/-- An assembly at work. The buffers of the functions around the one that is being compiled have been
put aside, the innermost first. -/
structure Bench where
  assembly : Assembly
  enclosing : List Buffer := []

namespace Bench

/-- The bench with another assembly on it. -/
def holding (bench : Bench) (assembly : Assembly) : Bench :=
  { bench with assembly }

/-- The buffers of all functions that are being compiled, the innermost first. -/
def buffers (bench : Bench) : List Buffer :=
  bench.assembly.buffer :: bench.enclosing

end Bench

/-- Something that is left to do. -/
inductive Task where
  | expression (expr : Expr)
  | statement (stmt : Stmt)
  | act (action : Assembly → Except CompileError (List Task × Assembly))
  | enter (name : Option String) (params : List String)
  | leave (name : Option String) (params : List String)

namespace Task

/-- Something to do to the assembly. -/
def perform (step : Assembly.Step) : Task :=
  .act fun assembly => ([], ·) <$> step assembly

/-- Tasks that depend on the position at which they start. -/
def here (next : (position : Nat) → List Task) : Task :=
  .act fun assembly => .ok (next assembly.position, assembly)

/-- A new constant, and an instruction with its index as the first operand. -/
def constant (value : Value) (op : Opcode) (operands : List Nat) : Task :=
  .act fun assembly =>
    let (index, assembly) := assembly.addConstant value
    .ok ([.perform (·.emit op (index :: operands))], assembly)

/-- The load of what a name stands for. -/
def loadName (id : String) : Task :=
  .act fun assembly => do
    let (symbol, assembly) ← assembly.lookup id
    return ([.perform (·.load symbol)], assembly)

/-- The store of the value of a new binding. -/
def storeBinding (id : String) : Task :=
  .act fun assembly =>
    let (symbol, scope) := assembly.scope.define id
    let op := if symbol.place = .global then .setGlobal else .setLocal
    .ok ([.perform (·.emit op [symbol.index])], { assembly with scope })

/-- The store of a new value of a variable. -/
def storeVariable (id : String) : Task :=
  .act fun assembly => do
    let (symbol, assembly) ← assembly.lookup id
    match symbol.place with
    | .global => return ([.perform (·.emit .setGlobal [symbol.index])], assembly)
    | .local => return ([.perform (·.emit .setLocal [symbol.index])], assembly)
    | .builtin | .free | .function => .error (.invalidAssignment id)

/-- The tasks of a branch of a condition, which may be missing. -/
def branch : Option Block → List Task
  | none => [.perform (·.emit .pushNull [])]
  | some block => [.here fun start => block.map .statement ++ [.perform (·.endBranch start)]]

/-- The tasks of a condition behind its test. -/
def branches (consequent : Block) (alternative : Option Block) : List Task :=
  [.here fun toAlternative =>
    .perform (·.emit .jumpUnless [unknownTarget]) :: (branch (some consequent) ++
      [.here fun toEnd =>
        .perform (·.emit .jump [unknownTarget]) ::
        .perform (fun assembly => assembly.patch toAlternative assembly.position) ::
        (branch alternative ++
          [.perform fun assembly => assembly.patch toEnd assembly.position])])]

end Task

/-- The tasks that an expression consists of. -/
def Expr.tasks : Expr → Except CompileError (List Task)
  | .integer value => .ok [.constant (.integer value) .constant []]
  | .text value => .ok [.constant (.text value) .constant []]
  | .boolean value => .ok [.perform (·.emit (if value then .pushTrue else .pushFalse) [])]
  | .name id => .ok [.loadName id]
  | .unary .plus _ => .error (.unknownOperator UnaryOp.plus.symbol)
  | .unary .minus argument => .ok [.expression argument, .perform (·.emit .negate [])]
  | .unary .not argument => .ok [.expression argument, .perform (·.emit .not [])]
  | .binary .less left right =>
    .ok [.expression right, .expression left, .perform (·.emit .greater [])]
  | .binary op left right =>
    .ok [.expression left, .expression right, .perform (·.emit op.opcode [])]
  | .condition test consequent alternative =>
    .ok (.expression test :: Task.branches consequent alternative)
  | .function id params body =>
    .ok (.enter id params ::
      (body.map .statement ++ [.perform Assembly.endFunction, .leave id params]))
  | .call callee arguments =>
    .ok (.expression callee ::
      (arguments.map .expression ++ [.perform (·.emit .call [arguments.length])]))
  | .array elements =>
    .ok (elements.map .expression ++ [.perform (·.emit .array [elements.length])])
  | .hash pairs =>
    match pairs.find? fun pair => pair.1.isUnhashable with
    | some (key, _) => .error (.unhashableLiteral key.render)
    | none => .ok ((pairs.mergeSort fun a b => textLe a.1.render b.1.render).flatMap
        (fun pair => [.expression pair.1, .expression pair.2]) ++
          [.perform (·.emit .hash [pairs.length * 2])])
  | .index object position =>
    .ok [.expression object, .expression position, .perform (·.emit .index [])]

/-- The tasks that a statement consists of. -/
def Stmt.tasks : Stmt → List Task
  | .expr value => [.expression value, .perform (·.emit .pop [])]
  | .binding name value => [.expression value, .storeBinding name]
  | .assign name value => [.expression value, .storeVariable name]
  | .result (some value) => [.expression value, .perform (·.emit .returnValue [])]
  | .result none => [.perform (·.emit .returnNull [])]

/-- The first step of a task: the tasks that it leaves, and the bench after it. A function is compiled
in an empty buffer, with the one around it put aside. When it is left, the names that it has captured
are loaded for its closure. -/
def Task.step (task : Task) (bench : Bench) : Except CompileError (List Task × Bench) :=
  let assembly := bench.assembly
  match task with
  | .expression expr => (·, bench) <$> expr.tasks
  | .statement stmt => .ok (stmt.tasks, bench)
  | .act action => (fun result => (result.1, bench.holding result.2)) <$> action assembly
  | .enter name params =>
    .ok ([], ⟨assembly.enterFunction name params, assembly.buffer :: bench.enclosing⟩)
  | .leave name params =>
    let (table, scope) := assembly.scope.leave
    let function : Value :=
      .function ⟨name, assembly.buffer.code, table.definitions, params.length⟩
    let outer : Assembly := { assembly with buffer := bench.enclosing.headD {}, scope }
    .ok (table.free.map (fun symbol => .perform (·.load symbol)) ++
      [.constant function .closure [table.free.length]], ⟨outer, bench.enclosing.tail⟩)

namespace Task

variable {action : Assembly → Except CompileError (List Task × Assembly)} {bench : Bench}

theorem step_act_of_ok {more : List Task} {after : Assembly}
    (h : action bench.assembly = .ok (more, after)) :
    step (.act action) bench = .ok (more, bench.holding after) := by
  simp only [step, h]
  rfl

theorem step_act_of_error {error : CompileError} (h : action bench.assembly = .error error) :
    step (.act action) bench = .error error := by
  simp only [step, h]
  rfl

end Task

/-- The state after a number of steps, if there is so much to do and none of them fails. -/
def Task.steps : Nat → List Task × Bench → Option (List Task × Bench)
  | 0, state => some state
  | _ + 1, ([], _) => none
  | n + 1, (task :: tasks, bench) =>
    match task.step bench with
    | .ok (first, next) => steps n (first ++ tasks, next)
    | .error _ => none

/-- A state that is reached while a program is compiled: what is left to do, and the bench. The
program starts with no code, with whatever names and constants earlier programs have left. -/
inductive Underway : List Task → Bench → Prop
  | start (program : Program) {assembly : Assembly} (h : assembly.buffer = {}) :
    Underway (program.map .statement) ⟨assembly, []⟩
  | step {task : Task} {tasks first : List Task} {bench next : Bench}
    (h : Underway (task :: tasks) bench) (hs : task.step bench = .ok (first, next)) :
    Underway (first ++ tasks) next

theorem Underway.steps {tasks tasks' : List Task} {bench bench' : Bench} (h : Underway tasks bench)
    {n : Nat} (hs : Task.steps n (tasks, bench) = some (tasks', bench')) : Underway tasks' bench' := by
  induction n generalizing tasks bench with
  | zero =>
      obtain ⟨rfl, rfl⟩ := Prod.mk.inj (Option.some.inj hs)
      exact h
  | succ n ih =>
      cases tasks with
      | nil => cases hs
      | cons task tasks =>
          rw [Task.steps] at hs
          split at hs
          case h_1 first next hstep => exact ih (h.step hstep) hs
          case h_2 => cases hs

/-- The tasks come to a result, and every bench on the way has a property. -/
inductive Proceeds (property : Bench → Prop) :
    List Task → Bench → Except CompileError Bench → Prop
  | done {bench : Bench} (holds : property bench) : Proceeds property [] bench (.ok bench)
  | stops {task : Task} {tasks : List Task} {bench : Bench} {error : CompileError}
    (holds : property bench) (step : task.step bench = .error error) :
    Proceeds property (task :: tasks) bench (.error error)
  | goesOn {task : Task} {tasks first : List Task} {bench next : Bench}
    {result : Except CompileError Bench} (holds : property bench)
    (step : task.step bench = .ok (first, next))
    (rest : Proceeds property (first ++ tasks) next result) :
    Proceeds property (task :: tasks) bench result

/-- A task by itself comes to a result. -/
abbrev Task.ComesTo (task : Task) (bench : Bench) (result : Except CompileError Bench) : Prop :=
  Proceeds (fun _ => True) [task] bench result

namespace Proceeds

variable {property stronger : Bench → Prop} {tasks more : List Task} {bench : Bench}
  {result : Except CompileError Bench}

theorem mono (h : Proceeds stronger tasks bench result)
    (hp : ∀ bench, stronger bench → property bench) : Proceeds property tasks bench result := by
  induction h with
  | done holds => exact .done (hp _ holds)
  | stops holds step => exact .stops (hp _ holds) step
  | goesOn holds step _ ih => exact .goesOn (hp _ holds) step ih

theorem holds_of_ok {after : Bench} (h : Proceeds property tasks bench (.ok after)) :
    property after := by
  generalize hr : Except.ok after = result at h
  induction h with
  | done holds => exact Except.ok.inj hr ▸ holds
  | stops => cases hr
  | goesOn _ _ _ ih => exact ih hr

/-- Tasks come to one result only. -/
theorem unique {other : Bench → Prop} {result' : Except CompileError Bench}
    (h : Proceeds property tasks bench result) (h' : Proceeds other tasks bench result') :
    result = result' := by
  induction h with
  | done =>
      cases h'
      rfl
  | stops _ step =>
      cases h' with
      | stops _ step' => exact congrArg _ (Except.error.inj (step.symm.trans step'))
      | goesOn _ step' => cases step.symm.trans step'
  | goesOn _ step _ ih =>
      cases h' with
      | stops _ step' => cases step.symm.trans step'
      | goesOn _ step' rest' =>
          obtain ⟨rfl, rfl⟩ := Prod.mk.inj (Except.ok.inj (step.symm.trans step'))
          exact ih rest'

/-- Tasks behind others start with the bench that these leave, if they come to an end. -/
theorem bind (h : Proceeds property tasks bench result) (next : Bench → Except CompileError Bench)
    (hn : ∀ after, result = .ok after → Proceeds property more after (next after)) :
    Proceeds property (tasks ++ more) bench (result >>= next) := by
  induction h with
  | done => exact hn _ rfl
  | stops holds step => exact .stops holds step
  | goesOn holds step _ ih =>
      rw [List.cons_append]
      refine .goesOn holds step ?_
      rw [← List.append_assoc]
      exact ih hn

/-- Tasks behind others that do to the assembly what a step does. -/
theorem andThen {result : Except CompileError Assembly}
    {next : Assembly → Except CompileError Bench}
    (h : Proceeds property tasks bench (bench.holding <$> result))
    (hn : ∀ after, result = .ok after → property (bench.holding after) →
      Proceeds property more (bench.holding after) (next after)) :
    Proceeds property (tasks ++ more) bench (result >>= next) := by
  cases result with
  | error error =>
      have h : Proceeds property tasks bench (.error error) := h
      exact h.bind (fun _ => .error error) fun _ hafter => by cases hafter
  | ok after =>
      refine h.bind (fun _ => next after) fun _ hafter => ?_
      cases hafter
      exact hn after rfl h.holds_of_ok

/-- Tasks behind something that is done to the assembly. -/
theorem perform {step : Assembly.Step} {next : Assembly → Except CompileError Bench}
    (holds : property bench) (hn : ∀ after, step bench.assembly = .ok after →
      Proceeds property tasks (bench.holding after) (next after)) :
    Proceeds property (.perform step :: tasks) bench (step bench.assembly >>= next) := by
  cases hs : step bench.assembly with
  | error error => exact .stops holds (Task.step_act_of_error (by rw [hs]; rfl))
  | ok after =>
      have hstep : Task.step (.perform step) bench = .ok ([], bench.holding after) :=
        Task.step_act_of_ok (by rw [hs]; rfl)
      exact .goesOn holds hstep (hn after hs)

/-- Something that is done to the assembly at the end. -/
theorem perform_last {step : Assembly.Step} (holds : property bench)
    (hn : ∀ after, step bench.assembly = .ok after → property (bench.holding after)) :
    Proceeds property [.perform step] bench (bench.holding <$> step bench.assembly) := by
  rw [← bind_pure_comp]
  exact perform holds fun after hafter => .done (hn after hafter)

/-- What is reached from tasks that come to a result comes to it too. -/
theorem of_step {task : Task} {first : List Task} {next : Bench}
    (h : Proceeds property (task :: tasks) bench result)
    (hs : task.step bench = .ok (first, next)) : Proceeds property (first ++ tasks) next result := by
  cases h with
  | stops _ step => cases hs.symm.trans step
  | goesOn _ step rest =>
      obtain ⟨rfl, rfl⟩ := Prod.mk.inj (Except.ok.inj (hs.symm.trans step))
      exact rest

theorem holds (h : Proceeds property tasks bench result) : property bench := by
  cases h with
  | done holds | stops holds | goesOn holds => exact holds

end Proceeds

namespace Bench

/-- The bench for the next program, when the code of a program has been taken away. -/
def cleared (bench : Bench) : Bench :=
  bench.holding { bench.assembly with buffer := {} }

/-- Programs are compiled step by step, each on the bench that the one before it leaves. -/
inductive Leaves : List Program → (bench last : Bench) → Prop
  | nil (bench : Bench) : Leaves [] bench bench
  | cons {program : Program} {programs : List Program} {bench after last : Bench}
    (h : Proceeds (fun _ => True) (program.map .statement) bench (.ok after))
    (rest : Leaves programs after.cleared last) : Leaves (program :: programs) bench last

theorem leaves_nil_iff {bench last : Bench} : Leaves [] bench last ↔ last = bench := by
  constructor
  · rintro ⟨⟩
    rfl
  · rintro rfl
    exact .nil last

theorem leaves_append_iff {front back : List Program} {bench last : Bench} :
    Leaves (front ++ back) bench last ↔
      ∃ middle, Leaves front bench middle ∧ Leaves back middle last := by
  constructor
  · intro h
    induction front generalizing bench with
    | nil => exact ⟨bench, .nil bench, h⟩
    | cons program front ih =>
        obtain _ | ⟨hfirst, hrest⟩ := h
        obtain ⟨middle, hfront, hback⟩ := ih hrest
        exact ⟨middle, .cons hfirst hfront, hback⟩
  · rintro ⟨middle, hfront, hback⟩
    induction hfront with
    | nil => exact hback
    | cons h _ ih => exact .cons h (ih hback)

end Bench

end StackScript
