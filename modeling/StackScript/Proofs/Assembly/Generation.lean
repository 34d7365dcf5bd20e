import Mathlib.Tactic.Set
import StackScript.Proofs.Assembly.Ending
import StackScript.Proofs.Core.Resolve
import StackScript.Proofs.Program.Compositional
import StackScript.Proofs.Scope.Locals

/-!
# Compiling is resolving and generating

A program that compiles can be resolved, and what compiling it has emitted is the fragment that is
generated for the resolved program.
-/

namespace StackScript

open StackScript.Core Instruction Assembly

attribute [local simp] Expr.resolve Stmt.resolve

/-- An expression that compiles can be resolved, and emits what is generated for it. -/
def Expr.Compiles (expr : Expr) : Prop :=
  ∀ before after : Assembly, expr.compile before = .ok after →
    ∃ core, expr.resolve before.scope = .ok (core, after.scope) ∧
      before.Generates core.generate after

/-- A statement that compiles can be resolved, and ends with its last instruction after emitting
what is generated for its operand. -/
def Stmt.Compiles (stmt : Stmt) : Prop :=
  ∀ before after : Assembly, stmt.compile before = .ok after →
    ∃ core middle, stmt.resolve before.scope = .ok (core, after.scope) ∧
      before.Generates core.operand middle ∧
      middle.emit core.final.op core.final.operands = .ok after

namespace Assembly

/-- The second assembly is the first one with the code of some statements more. If there are any,
the last instruction of the last one was emitted last. -/
def EmitsAll (before : Assembly) (stmts : List Core.Stmt) (after : Assembly) : Prop :=
  (stmts = [] ∧ after = before) ∨ ∃ init last middle, stmts = init ++ [last] ∧
    before.Generates (Core.Stmt.generateAll init ++ last.operand) middle ∧
    middle.emit last.final.op last.final.operands = .ok after

variable {before middle after : Assembly}

theorem find_of_lookup {name : String} {symbol : Symbol}
    (h : before.lookup name = .ok (symbol, after)) :
    before.scope.find name = .ok (symbol, after.scope) ∧
      after = { before with scope := after.scope } := by
  unfold lookup at h
  unfold Scope.find
  generalize before.scope.lookup name = result at h ⊢
  rcases result with ⟨_ | found, scope⟩
  · simp at h
  · obtain ⟨rfl, rfl⟩ : found = symbol ∧ { before with scope } = after := by simpa using h
    exact ⟨rfl, rfl⟩

theorem scope_of_patch {position operand : Nat} (h : before.patch position operand = .ok after) :
    after.scope = before.scope := by
  obtain ⟨buffer, -, rfl⟩ := eq_of_edit h
  rfl

theorem position_lt_of_emit {op : Opcode} {operands : List Nat}
    (h : before.emit op operands = .ok after) : before.position < after.position := by
  have hp := (generates_of_emit h).2.position
  have := op.size_pos
  simp [Generator.single, Instruction.size] at hp
  omega

theorem lastIs_of_emit {op : Opcode} {operands : List Nat} (other : Opcode)
    (h : before.emit op operands = .ok after) : after.buffer.lastIs other = (op == other) := by
  obtain ⟨-, rfl⟩ := eq_of_emit h
  simp [Buffer.lastIs]

/-- Taking a discarded value back leaves what was emitted before it. -/
theorem generates_removeLastPop {generator : Generator} (hg : before.Generates generator middle)
    (he : middle.emit .pop [] = .ok after) :
    before.Generates generator { after with buffer := after.buffer.removeLastPop } := by
  obtain ⟨-, rfl⟩ := eq_of_emit he
  apply hg.congr
  · apply Array.ext'
    simp [Buffer.removeLastPop]
  · simp [Buffer.removeLastPop]
  · rfl

/-- Returning a discarded value leaves an instruction that returns in place of the one that
discards. -/
theorem edit_popToReturn_of_emit (he : middle.emit .pop [] = .ok after) :
    after.edit Buffer.popToReturn = middle.emit .returnValue [] := by
  obtain ⟨-, rfl⟩ := eq_of_emit he
  have hpop : bytes ⟨.pop, []⟩ = [Opcode.pop.toByte] := rfl
  have hreturn : encode ⟨.returnValue, []⟩ = .ok [Opcode.returnValue.toByte] := rfl
  have hwrite : (middle.buffer.push .pop [Opcode.pop.toByte]).code.write
      middle.buffer.code.size [Opcode.returnValue.toByte] =
        (middle.buffer.push .returnValue [Opcode.returnValue.toByte]).code := by
    apply Array.ext'
    simp [Code.write]
  have hreplace : (middle.buffer.push .pop [Opcode.pop.toByte]).code.replace
      middle.buffer.code.size [Opcode.returnValue.toByte] =
        .ok (middle.buffer.push .returnValue [Opcode.returnValue.toByte]).code := by
    rw [Code.replace, if_pos (by simp), hwrite]
  simp only [edit, emit, hreturn, hpop, Buffer.popToReturn, Buffer.last_push, Buffer.replace,
    hreplace]
  rfl

/-- Nothing is changed where no value is discarded last. -/
theorem edit_popToReturn_of_lastIs (h : before.buffer.lastIs .pop = false) :
    before.edit Buffer.popToReturn = .ok before := by
  have hkeep : before.buffer.popToReturn = .ok before.buffer := by
    unfold Buffer.popToReturn
    split
    case h_1 position hlast => simp [Buffer.lastIs, hlast] at h
    case h_2 => rfl
  rw [edit, hkeep]

/-- The code of statements is generated one behind the other. -/
theorem EmitsAll.generates {stmts : List Core.Stmt} (h : before.EmitsAll stmts after) :
    before.Generates (Core.Stmt.generateAll stmts) after := by
  rcases h with ⟨rfl, rfl⟩ | ⟨init, last, middle, rfl, hg, he⟩
  · exact generates_empty after
  · rw [Core.Stmt.generateAll_append, Core.Stmt.generateAll, Core.Stmt.generateAll,
      Generator.append_empty, Core.Stmt.generate_eq, ← Generator.append_assoc]
    exact hg.append (generates_of_emit he).2

/-- A statement in front of others. -/
theorem EmitsAll.cons {stmt : Core.Stmt} {stmts : List Core.Stmt} {first second : Assembly}
    (hg : before.Generates stmt.operand first)
    (he : first.emit stmt.final.op stmt.final.operands = .ok second)
    (hs : second.EmitsAll stmts after) : before.EmitsAll (stmt :: stmts) after := by
  rcases hs with ⟨rfl, rfl⟩ | ⟨init, last, middle, rfl, hg', he'⟩
  · refine .inr ⟨[], stmt, first, rfl, ?_, he⟩
    rwa [Core.Stmt.generateAll, Generator.empty_append]
  · refine .inr ⟨stmt :: init, last, middle, rfl, ?_, he'⟩
    rw [Core.Stmt.generateAll, Core.Stmt.generate_eq, Generator.append_assoc]
    exact (hg.append (generates_of_emit he).2).append hg'

/-- The end of a branch leaves the value of the block on the stack. -/
theorem generates_of_endBranch {stmts : List Core.Stmt} {ended : Assembly}
    (hs : before.EmitsAll stmts after) (h : after.endBranch before.position = .ok ended) :
    ended.scope = after.scope ∧ before.Generates (Block.ofStmts stmts).generate ended := by
  rcases hs with ⟨rfl, rfl⟩ | ⟨init, last, middle, rfl, hg, he⟩
  · rw [endBranch, if_neg (by simp)] at h
    exact generates_of_emit h
  · have hlt : before.position < after.position :=
      Nat.lt_of_le_of_lt (hg.position ▸ Nat.le_add_right _ _) (position_lt_of_emit he)
    rw [Block.generate_ofStmts init (by simp)]
    rcases last.final_op with ⟨value, rfl⟩ | ⟨hop, -⟩
    · rw [endBranch, lastIs_of_emit _ he, if_pos (by simpa [Core.Stmt.final] using hlt)] at h
      obtain rfl : { after with buffer := after.buffer.removeLastPop } = ended := by simpa using h
      exact ⟨rfl, generates_removeLastPop hg he⟩
    · rw [endBranch, lastIs_of_emit _ he, if_neg (by simp [hop])] at h
      have hne : ∀ value, last ≠ .discard value := by
        rintro value rfl
        exact hop rfl
      obtain ⟨hscope, hnull⟩ := generates_of_emit h
      refine ⟨hscope, ?_⟩
      rw [Block.ofStmts_single hne, Block.generate, Block.generate, Core.Stmt.generate_eq,
        ← Generator.append_assoc, ← Generator.append_assoc]
      exact (hg.append (generates_of_emit he).2).append hnull

/-- The end of a function returns the value of the block. -/
theorem generates_of_endFunction {stmts : List Core.Stmt} {ended : Assembly}
    (hb : before.buffer = {})
    (hs : before.EmitsAll stmts after) (h : after.endFunction = .ok ended) :
    ended.scope = after.scope ∧ before.Generates (Block.ofStmts stmts).generateBody ended := by
  obtain ⟨edited, hedit, h⟩ := Except.bind_eq_ok_iff.mp h
  rcases hs with ⟨rfl, rfl⟩ | ⟨init, last, middle, rfl, hg, he⟩
  · rw [edit_popToReturn_of_lastIs (by simp [hb, Buffer.lastIs])] at hedit
    obtain rfl := Except.ok.inj hedit
    rw [if_neg (by simp [hb, Buffer.lastIs])] at h
    exact generates_of_emit h
  · rw [Block.generateBody_ofStmts init (by simp)]
    rcases last.final_op with ⟨value, rfl⟩ | ⟨hop, hreturns⟩
    · have hr := (edit_popToReturn_of_emit he).symm.trans hedit
      have hlast := lastIs_of_emit .returnValue hr
      rw [if_pos (by simpa using .inl hlast)] at h
      obtain rfl := Except.ok.inj h
      obtain ⟨buffer, -, rfl⟩ := eq_of_edit hedit
      refine ⟨rfl, ?_⟩
      rw [show (Block.ofStmts [.discard value]).generateBody =
        value.generate ++ .single ⟨.returnValue, []⟩ from rfl, ← Generator.append_assoc]
      exact hg.append (generates_of_emit hr).2
    · have hne : ∀ value, last ≠ .discard value := by
        rintro value rfl
        exact hop rfl
      have hpop : (last.final.op == .pop) = false := beq_eq_false_iff_ne.mpr hop
      rw [edit_popToReturn_of_lastIs ((lastIs_of_emit .pop he).trans hpop)] at hedit
      obtain rfl := Except.ok.inj hedit
      simp only [lastIs_of_emit _ he, ← hreturns] at h
      rw [Block.ofStmts_single hne, Block.generateBody, show Block.null.isNull = true from rfl,
        Bool.and_true]
      have hg' : before.Generates (Core.Stmt.generateAll init ++ last.generate) after := by
        rw [Core.Stmt.generate_eq, ← Generator.append_assoc]
        exact hg.append (generates_of_emit he).2
      split at h
      case isTrue hr =>
          obtain rfl : after = ended := Except.ok.inj h
          rw [if_pos hr]
          exact ⟨rfl, hg'⟩
      case isFalse hr =>
          obtain ⟨hscope, hnull⟩ := generates_of_emit h
          rw [if_neg hr, ← Generator.append_assoc]
          exact ⟨hscope, hg'.append hnull⟩

/-- The instructions that make a closure of a function whose code has ended. -/
theorem generates_of_leaveFunction {name : Option String} {params : List String}
    {body : Generator} {outer inner : Assembly} (hb : inner.buffer = {})
    (hk : inner.constants = outer.constants) (hg : inner.Generates body middle)
    (ho : middle.scope.outer ≠ [])
    (h : middle.leaveFunction outer.buffer name params = .ok after) :
    after.scope = middle.scope.leave?.getD middle.scope ∧
      outer.Generates (.closure name params.length middle.scope.table.definitions
        middle.scope.table.free body) after := by
  simp only [leaveFunction, Scope.leave_of_outer ho] at h
  obtain ⟨loaded, hl, he⟩ := Except.bind_eq_ok_iff.mp h
  obtain ⟨hscope, hloads⟩ := generates_of_loads hl
  have hp : inner.position = 0 := by simp [position, hb]
  rw [Generates, hp, hk] at hg
  set fragment := body 0 outer.constants.size with hfragment
  have hcode : middle.buffer.code = Code.ofInstructions fragment.code := by simp [hg.code, hb]
  have hconstants : loaded.constants =
      outer.constants ++ (fragment.constants.map Constant.toValue).toArray := by
    have := hloads.constants
    simpa [hg.constants, hk] using this
  have hpool : loaded.constants.size = outer.constants.size + fragment.constants.length := by
    simp [hconstants]
  simp only [addConstant, hcode, hpool] at he
  obtain ⟨hscope', hclosure⟩ := generates_of_emit he
  have hfragment' : Generator.closure name params.length middle.scope.table.definitions
      middle.scope.table.free body outer.position outer.constants.size =
      ⟨middle.scope.table.free.map Symbol.load ++
          [⟨.closure, [outer.constants.size + fragment.constants.length,
            middle.scope.table.free.length]⟩],
        fragment.constants ++ [.function
          ⟨name, fragment.code, middle.scope.table.definitions, params.length⟩]⟩ := rfl
  refine ⟨hscope'.trans hscope, ?_⟩
  rw [Generates, hfragment']
  refine ⟨?_, ?_, ?_, ?_, ?_⟩
  · rw [hclosure.code, hloads.code]
    simp [Generator.single]
  · rw [hclosure.last, lastEmitted_append]
    rfl
  · rw [hclosure.constants, hconstants]
    simp [Generator.single, Constant.toValue, assembled]
  · exact List.forall_mem_append.mpr ⟨hloads.encodable.code, hclosure.encodable.code⟩
  · intro fn hm
    rcases List.mem_append.mp hm with hm | hm
    · exact hg.encodable.functions fn hm
    · obtain rfl : fn = _ := by simpa using hm
      exact hg.encodable.code

end Assembly

/-! ## The parts of a program -/

theorem Stmt.compileAll_emitsAll {stmts : List Stmt} (hs : ∀ stmt ∈ stmts, stmt.Compiles)
    {before after : Assembly} (h : Stmt.compileAll stmts before = .ok after) :
    ∃ cores, Stmt.resolveAll stmts before.scope = .ok (cores, after.scope) ∧
      before.EmitsAll cores after := by
  induction stmts generalizing before with
  | nil =>
      obtain rfl : before = after := by simpa [Stmt.compileAll] using h
      exact ⟨[], rfl, .inl ⟨rfl, rfl⟩⟩
  | cons stmt stmts ih =>
      rw [List.forall_mem_cons] at hs
      obtain ⟨second, hstmt, hrest⟩ := Except.bind_eq_ok_iff.mp h
      obtain ⟨core, first, hresolve, hg, he⟩ := hs.1 before second hstmt
      obtain ⟨cores, hresolve', hall⟩ := ih hs.2 hrest
      refine ⟨core :: cores, ?_, hall.cons hg he⟩
      simp [Stmt.resolveAll, hresolve, hresolve', bind, Except.bind, pure, Except.pure]

theorem Expr.compileAll_generates {exprs : List Expr} (hs : ∀ expr ∈ exprs, expr.Compiles)
    {before after : Assembly} (h : Expr.compileAll exprs before = .ok after) :
    ∃ cores, Expr.resolveAll exprs before.scope = .ok (cores, after.scope) ∧
      cores.length = exprs.length ∧ before.Generates (Core.Expr.generateAll cores) after := by
  induction exprs generalizing before with
  | nil =>
      obtain rfl : before = after := by simpa [Expr.compileAll] using h
      exact ⟨[], rfl, rfl, generates_empty before⟩
  | cons expr exprs ih =>
      rw [List.forall_mem_cons] at hs
      obtain ⟨middle, hexpr, hrest⟩ := Except.bind_eq_ok_iff.mp h
      obtain ⟨core, hresolve, hg⟩ := hs.1 before middle hexpr
      obtain ⟨cores, hresolve', hlen, hg'⟩ := ih hs.2 hrest
      refine ⟨core :: cores, ?_, by simp [hlen], hg.append hg'⟩
      simp [Expr.resolveAll, hresolve, hresolve', bind, Except.bind, pure, Except.pure]

theorem Stmt.compileAlternative_generates {alternative : Option (List Stmt)}
    (hs : ∀ block ∈ alternative, ∀ stmt ∈ block, stmt.Compiles) {before after : Assembly}
    (h : Stmt.compileAlternative alternative before = .ok after) :
    ∃ cores, Stmt.resolveAlternative alternative before.scope = .ok (cores, after.scope) ∧
      before.Generates (Core.Block.ofStmts cores).generate after := by
  cases alternative with
  | none =>
      have h : before.emit .pushNull [] = .ok after := h
      obtain ⟨hscope, hg⟩ := generates_of_emit h
      exact ⟨[], by rw [hscope]; rfl, hg⟩
  | some block =>
      obtain ⟨middle, hblock, hend⟩ := Except.bind_eq_ok_iff.mp h
      obtain ⟨cores, hresolve, hall⟩ := Stmt.compileAll_emitsAll (hs block rfl) hblock
      obtain ⟨hscope, hg⟩ := generates_of_endBranch hall hend
      exact ⟨cores, by rw [hscope]; exact hresolve, hg⟩

/-- The step that compiles a pair of a hash literal. -/
def Expr.compilePair (pair : Expr × Expr) : Assembly.Step := fun assembly => do
  let assembly ← pair.1.compile assembly
  pair.2.compile assembly

theorem Expr.compilePairs_eq_map (pairs : List (Expr × Expr)) :
    Expr.compilePairs pairs = pairs.map fun pair => (pair.1.render, compilePair pair) := by
  induction pairs with
  | nil => rfl
  | cons pair pairs ih => rw [List.map_cons, ← ih]; rfl

theorem Expr.foldlM_compilePair_generates {pairs : List (Expr × Expr)}
    (hs : ∀ pair ∈ pairs, pair.1.Compiles ∧ pair.2.Compiles) {before after : Assembly}
    (h : pairs.foldlM (fun assembly pair => compilePair pair assembly) before = .ok after) :
    ∃ cores, Scope.inTurn (pairs.map resolvePair) before.scope = .ok (cores, after.scope) ∧
      cores.length = pairs.length * 2 ∧ before.Generates (Core.Expr.generateAll cores) after := by
  induction pairs generalizing before with
  | nil =>
      obtain rfl : before = after := by simpa [pure, Except.pure] using h
      exact ⟨[], rfl, rfl, generates_empty before⟩
  | cons pair pairs ih =>
      rw [List.forall_mem_cons] at hs
      rw [List.foldlM_cons, Except.bind_eq_ok_iff] at h
      obtain ⟨second, hpair, hrest⟩ := h
      obtain ⟨first, hkey, hvalue⟩ := Except.bind_eq_ok_iff.mp hpair
      obtain ⟨key, hresolve, hg⟩ := hs.1.1 before first hkey
      obtain ⟨value, hresolve', hg'⟩ := hs.1.2 first second hvalue
      obtain ⟨cores, hresolve'', hlen, hg''⟩ := ih hs.2 hrest
      refine ⟨key :: value :: cores, ?_, by simp [hlen]; omega, hg.append (hg'.append hg'')⟩
      simp [Scope.inTurn, resolvePair, hresolve, hresolve', hresolve'', bind, Except.bind, pure,
        Except.pure]

namespace Expr.Compiles

theorem name (id : String) : (Expr.name id).Compiles := by
  intro before after h
  obtain ⟨⟨symbol, middle⟩, hlookup, hload⟩ := Except.bind_eq_ok_iff.mp h
  obtain ⟨hfind, hmiddle⟩ := find_of_lookup hlookup
  obtain ⟨hscope, hg⟩ := generates_of_load hload
  refine ⟨.name symbol, ?_, ?_⟩
  · simp [hfind, hscope, bind, Except.bind, pure, Except.pure]
  · rw [hmiddle] at hg
    exact hg.of_scope

theorem integer (value : Int64) : (Expr.integer value).Compiles := by
  intro before after h
  have hc : ∀ fn, Constant.integer value ≠ .function fn := by simp
  have h : before.emitConstant (Constant.integer value).toValue = .ok after := h
  obtain ⟨hscope, hg⟩ := generates_of_emitConstant h hc
  exact ⟨.integer value, by rw [hscope]; rfl, hg⟩

theorem text (value : String) : (Expr.text value).Compiles := by
  intro before after h
  have hc : ∀ fn, Constant.text value ≠ .function fn := by simp
  have h : before.emitConstant (Constant.text value).toValue = .ok after := h
  obtain ⟨hscope, hg⟩ := generates_of_emitConstant h hc
  exact ⟨.text value, by rw [hscope]; rfl, hg⟩

theorem boolean (value : Bool) : (Expr.boolean value).Compiles := by
  intro before after h
  cases value with
  | true =>
      obtain ⟨hscope, hg⟩ := generates_of_emit h
      exact ⟨.boolean true, by rw [hscope]; rfl, hg⟩
  | false =>
      obtain ⟨hscope, hg⟩ := generates_of_emit h
      exact ⟨.boolean false, by rw [hscope]; rfl, hg⟩

theorem unary (op : UnaryOp) {argument : Expr} (ha : argument.Compiles) :
    (Expr.unary op argument).Compiles := by
  intro before after h
  cases op with
  | plus => simp [Expr.compile] at h
  | minus =>
      obtain ⟨middle, hargument, hop⟩ := Except.bind_eq_ok_iff.mp h
      obtain ⟨core, hresolve, hg⟩ := ha before middle hargument
      obtain ⟨hscope, hg'⟩ := generates_of_emit hop
      refine ⟨.unary .negate core, ?_, hg.append hg'⟩
      simp [hresolve, hscope, bind, Except.bind, pure, Except.pure]
  | not =>
      obtain ⟨middle, hargument, hop⟩ := Except.bind_eq_ok_iff.mp h
      obtain ⟨core, hresolve, hg⟩ := ha before middle hargument
      obtain ⟨hscope, hg'⟩ := generates_of_emit hop
      refine ⟨.unary .not core, ?_, hg.append hg'⟩
      simp [hresolve, hscope, bind, Except.bind, pure, Except.pure]

/-- Two operands one behind the other, and an instruction behind them. -/
theorem two {left right : Expr} (hl : left.Compiles) (hr : right.Compiles) (op : Core.Binary)
    {before after : Assembly}
    (h : (do
      let assembly ← left.compile before
      let assembly ← right.compile assembly
      assembly.emit op.opcode []) = .ok after) :
    ∃ first second, (do
        let (left, scope) ← left.resolve before.scope
        let (right, scope) ← right.resolve scope
        return (Core.Expr.binary op left right, scope)) =
          .ok (.binary op first second, after.scope) ∧
      before.Generates (Core.Expr.binary op first second).generate after := by
  obtain ⟨middle, hleft, h⟩ := Except.bind_eq_ok_iff.mp h
  obtain ⟨last, hright, hop⟩ := Except.bind_eq_ok_iff.mp h
  obtain ⟨first, hresolve, hg⟩ := hl before middle hleft
  obtain ⟨second, hresolve', hg'⟩ := hr middle last hright
  obtain ⟨hscope, hg''⟩ := generates_of_emit hop
  refine ⟨first, second, ?_, (hg.append hg').append hg''⟩
  simp [hresolve, hresolve', hscope, bind, Except.bind, pure, Except.pure]

theorem binary (op : BinaryOp) {left right : Expr} (hl : left.Compiles) (hr : right.Compiles) :
    (Expr.binary op left right).Compiles := by
  intro before after h
  cases op with
  | less =>
      obtain ⟨first, second, hresolve, hg⟩ := two hr hl (.comparison .greater) h
      exact ⟨_, hresolve, hg⟩
  | add =>
      obtain ⟨first, second, hresolve, hg⟩ := two hl hr (.arithmetic .add) h
      exact ⟨_, hresolve, hg⟩
  | subtract =>
      obtain ⟨first, second, hresolve, hg⟩ := two hl hr (.arithmetic .subtract) h
      exact ⟨_, hresolve, hg⟩
  | multiply =>
      obtain ⟨first, second, hresolve, hg⟩ := two hl hr (.arithmetic .multiply) h
      exact ⟨_, hresolve, hg⟩
  | divide =>
      obtain ⟨first, second, hresolve, hg⟩ := two hl hr (.arithmetic .divide) h
      exact ⟨_, hresolve, hg⟩
  | greater =>
      obtain ⟨first, second, hresolve, hg⟩ := two hl hr (.comparison .greater) h
      exact ⟨_, hresolve, hg⟩
  | equal =>
      obtain ⟨first, second, hresolve, hg⟩ := two hl hr (.comparison .equal) h
      exact ⟨_, hresolve, hg⟩
  | notEqual =>
      obtain ⟨first, second, hresolve, hg⟩ := two hl hr (.comparison .notEqual) h
      exact ⟨_, hresolve, hg⟩

theorem index {object position : Expr} (ho : object.Compiles) (hp : position.Compiles) :
    (Expr.index object position).Compiles := by
  intro before after h
  obtain ⟨first, second, hresolve, hg⟩ := two ho hp .element h
  exact ⟨_, hresolve, hg⟩

theorem condition {test : Expr} {consequent : List Stmt} {alternative : Option (List Stmt)}
    (ht : test.Compiles) (hc : ∀ stmt ∈ consequent, stmt.Compiles)
    (ha : ∀ block ∈ alternative, ∀ stmt ∈ block, stmt.Compiles) :
    (Expr.condition test consequent alternative).Compiles := by
  intro before after h
  obtain ⟨tested, htest, h⟩ := Except.bind_eq_ok_iff.mp h
  obtain ⟨a, hunless, h⟩ := Except.bind_eq_ok_iff.mp h
  obtain ⟨b, hconsequent, h⟩ := Except.bind_eq_ok_iff.mp h
  obtain ⟨c, hend, h⟩ := Except.bind_eq_ok_iff.mp h
  obtain ⟨d, hjump, h⟩ := Except.bind_eq_ok_iff.mp h
  obtain ⟨e, hpatch, h⟩ := Except.bind_eq_ok_iff.mp h
  obtain ⟨f, halternative, hpatch'⟩ := Except.bind_eq_ok_iff.mp h
  obtain ⟨core, hresolve, hg⟩ := ht before tested htest
  have hscope := (generates_of_emit hunless).1
  obtain ⟨cores, hresolve', hall⟩ := Stmt.compileAll_emitsAll hc hconsequent
  obtain ⟨hscope', hg'⟩ := generates_of_endBranch hall hend
  have hscope'' := (scope_of_patch hpatch).trans (generates_of_emit hjump).1
  obtain ⟨others, hresolve'', hg''⟩ := Stmt.compileAlternative_generates ha halternative
  rw [hscope] at hresolve'
  rw [hscope'', hscope'] at hresolve''
  refine ⟨.condition core (.ofStmts cores) (.ofStmts others), ?_, ?_⟩
  · rw [scope_of_patch hpatch']
    simp [hresolve, hresolve', hresolve'', bind, Except.bind, pure, Except.pure]
  · exact hg.append (generates_branches hunless hg' hjump hpatch hg'' hpatch')

theorem function (name : Option String) (params : List String) {body : List Stmt}
    (hb : ∀ stmt ∈ body, stmt.Compiles) : (Expr.function name params body).Compiles := by
  intro before after h
  obtain ⟨inner, hbody, h⟩ := Except.bind_eq_ok_iff.mp h
  obtain ⟨ended, hend, hleave⟩ := Except.bind_eq_ok_iff.mp h
  obtain ⟨cores, hresolve, hall⟩ := Stmt.compileAll_emitsAll hb hbody
  obtain ⟨hscope, hg⟩ := generates_of_endFunction rfl hall hend
  have hpool : (before.enterFunction name params).constants = before.constants := rfl
  have hresolve : Stmt.resolveAll body (before.scope.enterFunction name params) =
      .ok (cores, inner.scope) := hresolve
  have houter : ended.scope.outer ≠ [] := hscope ▸ Scope.outer_ne_nil_of_resolveAll hresolve
  obtain ⟨hscope', hg'⟩ := generates_of_leaveFunction rfl hpool hg houter hleave
  rw [hscope] at hscope' hg'
  refine ⟨.function name params.length inner.scope.table.definitions inner.scope.table.free
    (.ofStmts cores), ?_, hg'⟩
  rw [hscope']
  simp [hresolve, bind, Except.bind, pure, Except.pure]

theorem call {callee : Expr} {arguments : List Expr} (hc : callee.Compiles)
    (ha : ∀ expr ∈ arguments, expr.Compiles) : (Expr.call callee arguments).Compiles := by
  intro before after h
  obtain ⟨first, hcallee, h⟩ := Except.bind_eq_ok_iff.mp h
  obtain ⟨second, harguments, hop⟩ := Except.bind_eq_ok_iff.mp h
  obtain ⟨core, hresolve, hg⟩ := hc before first hcallee
  obtain ⟨cores, hresolve', hlen, hg'⟩ := Expr.compileAll_generates ha harguments
  rw [← hlen] at hop
  obtain ⟨hscope, hg''⟩ := generates_of_emit hop
  refine ⟨.call core cores, ?_, (hg.append hg').append hg''⟩
  simp [hresolve, hresolve', hscope, bind, Except.bind, pure, Except.pure]

theorem array {elements : List Expr} (he : ∀ expr ∈ elements, expr.Compiles) :
    (Expr.array elements).Compiles := by
  intro before after h
  obtain ⟨middle, helements, hop⟩ := Except.bind_eq_ok_iff.mp h
  obtain ⟨cores, hresolve, hlen, hg⟩ := Expr.compileAll_generates he helements
  rw [← hlen] at hop
  obtain ⟨hscope, hg'⟩ := generates_of_emit hop
  refine ⟨.collect .array cores, ?_, hg.append hg'⟩
  simp [hresolve, hscope, bind, Except.bind, pure, Except.pure]

theorem hash {pairs : List (Expr × Expr)}
    (hp : ∀ pair ∈ pairs, pair.1.Compiles ∧ pair.2.Compiles) : (Expr.hash pairs).Compiles := by
  intro before after h
  rw [Expr.compile] at h
  split at h
  case h_1 => simp at h
  case h_2 hhashable =>
      obtain ⟨middle, hpairs, hop⟩ := Except.bind_eq_ok_iff.mp h
      rw [Assembly.inOrder, Expr.compilePairs_eq_map, Expr.mergeSort_steps, List.foldlM_map]
        at hpairs
      have hsorted : ∀ pair ∈ pairs.mergeSort fun a b => textLe a.1.render b.1.render,
          pair.1.Compiles ∧ pair.2.Compiles := fun pair hm => hp pair (List.mem_mergeSort.mp hm)
      obtain ⟨cores, hresolve, hlen, hg⟩ := Expr.foldlM_compilePair_generates hsorted hpairs
      rw [List.length_mergeSort] at hlen
      rw [← hlen] at hop
      obtain ⟨hscope, hg'⟩ := generates_of_emit hop
      refine ⟨.collect .hash cores, ?_, hg.append hg'⟩
      simp only [Expr.resolve, hhashable, Expr.resolvePairs_eq_map, Expr.mergeSort_steps,
        List.map_map]
      rw [show (Prod.snd ∘ fun pair : Expr × Expr => (pair.1.render, Expr.resolvePair pair)) =
        Expr.resolvePair from rfl, hresolve, hscope]
      rfl

end Expr.Compiles

namespace Stmt.Compiles

/-- A statement that evaluates an operand and ends with an instruction. -/
theorem expr {value : Expr} (hv : value.Compiles) : (Stmt.expr value).Compiles := by
  intro before after h
  obtain ⟨middle, hvalue, hop⟩ := Except.bind_eq_ok_iff.mp h
  obtain ⟨core, hresolve, hg⟩ := hv before middle hvalue
  refine ⟨.discard core, middle, ?_, hg, hop⟩
  have hscope := (generates_of_emit hop).1
  simp [hresolve, hscope, bind, Except.bind, pure, Except.pure]

theorem binding (name : String) {value : Expr} (hv : value.Compiles) :
    (Stmt.binding name value).Compiles := by
  intro before after h
  obtain ⟨middle, hvalue, hop⟩ := Except.bind_eq_ok_iff.mp h
  obtain ⟨core, hresolve, hg⟩ := hv before middle hvalue
  refine ⟨.store (middle.scope.define name).1 core,
    { middle with scope := (middle.scope.define name).2 }, ?_, hg.congr rfl rfl rfl, hop⟩
  have hscope : after.scope = (middle.scope.define name).2 := (generates_of_emit hop).1
  simp [hresolve, hscope, bind, Except.bind, pure, Except.pure]

theorem assign (name : String) {value : Expr} (hv : value.Compiles) :
    (Stmt.assign name value).Compiles := by
  intro before after h
  obtain ⟨middle, hvalue, h⟩ := Except.bind_eq_ok_iff.mp h
  obtain ⟨⟨symbol, found⟩, hlookup, hop⟩ := Except.bind_eq_ok_iff.mp h
  obtain ⟨core, hresolve, hg⟩ := hv before middle hvalue
  obtain ⟨hfind, hfound⟩ := find_of_lookup hlookup
  have hg' : before.Generates core.generate found := by
    rw [hfound]
    exact hg.congr rfl rfl rfl
  have hstores (op : Opcode) (hplace : symbol.store = ⟨op, [symbol.index]⟩)
      (hvariable : middle.scope.findVariable name = .ok (symbol, found.scope))
      (hop : found.emit op [symbol.index] = .ok after) :
      ∃ core middle, (Stmt.assign name value).resolve before.scope = .ok (core, after.scope) ∧
        before.Generates core.operand middle ∧
        middle.emit core.final.op core.final.operands = .ok after := by
    refine ⟨.store symbol core, found, ?_, hg', ?_⟩
    · have hscope := (generates_of_emit hop).1
      simp [hresolve, hvariable, hscope, bind, Except.bind, pure, Except.pure]
    · rw [Core.Stmt.final, hplace]
      exact hop
  cases hp : symbol.place with
  | global =>
      refine hstores .setGlobal (by simp [Symbol.store, hp]) ?_ (by simpa [hp] using hop)
      simp [Scope.findVariable, hfind, hp, bind, Except.bind, pure, Except.pure]
  | «local» =>
      refine hstores .setLocal (by simp [Symbol.store, hp]) ?_ (by simpa [hp] using hop)
      simp [Scope.findVariable, hfind, hp, bind, Except.bind, pure, Except.pure]
  | builtin => simp [hp] at hop
  | free => simp [hp] at hop
  | function => simp [hp] at hop

theorem result {value : Option Expr} (hv : ∀ expr ∈ value, expr.Compiles) :
    (Stmt.result value).Compiles := by
  intro before after h
  cases value with
  | none =>
      have h : before.emit .returnNull [] = .ok after := h
      have hscope := (generates_of_emit h).1
      exact ⟨.returnNull, before, by rw [hscope]; rfl, generates_empty before, h⟩
  | some value =>
      obtain ⟨middle, hvalue, hop⟩ := Except.bind_eq_ok_iff.mp h
      obtain ⟨core, hresolve, hg⟩ := hv value rfl before middle hvalue
      refine ⟨.returnValue core, middle, ?_, hg, hop⟩
      have hscope := (generates_of_emit hop).1
      simp [hresolve, hscope, bind, Except.bind, pure, Except.pure]

end Stmt.Compiles

/-! ## Programs -/

/-- Whole expressions and statements compile as their parts do. -/
theorem compositional_compiles : Compositional Expr.Compiles Stmt.Compiles where
  name := .name
  integer := .integer
  text := .text
  boolean := .boolean
  unary op _ := .unary op
  binary op _ _ := .binary op
  condition _ _ _ := .condition
  function name params _ := .function name params
  call _ _ := .call
  array _ := .array
  hash _ := .hash
  index _ _ := .index
  binding name _ := .binding name
  assign name _ := .assign name
  returnValue _ hv := .result (by simpa using hv)
  returnNull := .result (by simp)
  expr _ := .expr

theorem Program.compile_eq_ok_iff {program : Program} {before after : Assembly}
    {bytecode : Bytecode} : program.compile before = .ok (bytecode, after) ↔
      ∃ later, Stmt.compileAll program before = .ok later ∧
        bytecode = ⟨later.buffer.code, later.constants⟩ ∧ after = { later with buffer := {} } := by
  constructor
  · intro h
    obtain ⟨later, hlater, h⟩ := Except.bind_eq_ok_iff.mp h
    obtain ⟨rfl, rfl⟩ := Prod.mk.inj (Except.ok.inj h)
    exact ⟨later, hlater, rfl, rfl⟩
  · rintro ⟨later, hlater, rfl, rfl⟩
    rw [compile, hlater]
    rfl

/-- The bytecode of a program is what is generated for it when its names are resolved, with its
constants behind those that were there. -/
theorem Program.compile_generates {program : Program} {before after : Assembly}
    {bytecode : Bytecode} (hb : before.buffer = {})
    (h : program.compile before = .ok (bytecode, after)) :
    ∃ stmts, Stmt.resolveAll program before.scope = .ok (stmts, after.scope) ∧
      (Core.Stmt.generateAll stmts 0 before.constants.size).Encodable ∧
      bytecode.code =
        Code.ofInstructions (Core.Stmt.generateAll stmts 0 before.constants.size).code ∧
      bytecode.constants = before.constants ++
        ((Core.Stmt.generateAll stmts 0 before.constants.size).constants.map
          Constant.toValue).toArray ∧
      after = ⟨bytecode.constants, after.scope, {}⟩ := by
  obtain ⟨last, hall, rfl, rfl⟩ := Program.compile_eq_ok_iff.mp h
  have hcompiles : ∀ stmt ∈ program, stmt.Compiles := compositional_compiles.statements program
  obtain ⟨stmts, hresolve, hemits⟩ := Stmt.compileAll_emitsAll hcompiles hall
  have hg := hemits.generates
  have hp : before.position = 0 := by simp [position, hb]
  rw [Generates, hp] at hg
  exact ⟨stmts, hresolve, hg.encodable, by simpa [hb] using hg.code, hg.constants, rfl⟩

end StackScript
