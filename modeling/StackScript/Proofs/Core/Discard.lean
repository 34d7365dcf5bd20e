import StackScript.Proofs.Core.Compositional
import StackScript.Proofs.Core.Eval
import StackScript.Proofs.Program.Compositional

/-!
# Discarded values

The value of a program is the one that it has discarded last itself. Calls discard nothing of this
kind, whatever their functions do. Otherwise only expression statements do, of the program and of
the blocks of its conditions. The last one of a block gives the condition its value instead.
-/

namespace StackScript

namespace Core

/-- The state in which an evaluation ends or is interrupted. -/
def finalState : EStateM.Result Interrupt State α → State
  | .ok _ state => state
  | .error _ state => state

/-- An evaluation leaves the value alone that the program has discarded last. -/
def Quiet (action : Eval α) : Prop :=
  ∀ state, (finalState (action state)).discarded = state.discarded

theorem Quiet.bind {first : Eval α} {next : α → Eval β} (h : Quiet first)
    (hn : ∀ value, Quiet (next value)) : Quiet (first >>= next) := by
  intro state
  have hfirst := h state
  change (finalState (EStateM.bind first next state)).discarded = state.discarded
  unfold EStateM.bind
  cases hr : first state with
  | ok value after =>
      rw [hr] at hfirst
      exact (hn value after).trans hfirst
  | error interrupt after =>
      rw [hr] at hfirst
      exact hfirst

theorem quiet_pure (value : α) : Quiet (pure value : Eval α) :=
  fun _ => rfl

theorem quiet_throw (interrupt : Interrupt) : Quiet (throw interrupt : Eval α) :=
  fun _ => rfl

theorem quiet_get : Quiet (get : Eval State) :=
  fun _ => rfl

theorem quiet_modify {change : State → State}
    (h : ∀ state, (change state).discarded = state.discarded) : Quiet (modify change : Eval Unit) :=
  h

theorem quiet_ofExcept (result : Except RuntimeError Datum) : Quiet (ofExcept result) := by
  cases result with
  | ok value => exact quiet_pure value
  | error error => exact quiet_throw _

theorem State.discarded_write (state : State) (symbol : Symbol) (value : Datum) :
    (state.write symbol value).discarded = state.discarded := by
  unfold State.write
  split <;> rfl

theorem quiet_apply {enter : Enter} (he : ∀ fn free arguments, Quiet (enter fn free arguments))
    (value : Datum) (arguments : List Datum) : Quiet (apply enter value arguments) := by
  unfold apply
  split
  case h_1 =>
      split
      · exact he _ _ _
      · exact quiet_throw _
  case h_2 =>
      split
      · exact quiet_throw _
      · exact .bind (quiet_modify fun _ => rfl) fun _ => quiet_pure _
  case h_3 => exact quiet_throw _

theorem quiet_evalAll {enter : Enter} {self : Activation} {exprs : List Expr}
    (h : ∀ expr ∈ exprs, Quiet (expr.eval enter self)) :
    Quiet (Expr.evalAll enter self exprs) := by
  induction exprs with
  | nil => exact quiet_pure _
  | cons expr exprs ih =>
      rw [List.forall_mem_cons] at h
      exact .bind h.1 fun _ => .bind (ih h.2) fun _ => quiet_pure _

theorem quiet_store {enter : Enter} {self : Activation} {value : Expr}
    (h : Quiet (value.eval enter self)) (symbol : Symbol) :
    Quiet (Stmt.exec enter self (.store symbol value)) :=
  .bind h fun value => quiet_modify fun state => state.discarded_write symbol value

/-- What runs in a call is quiet if entering functions is. -/
theorem compositional_quiet (enter : Enter)
    (he : ∀ fn free arguments, Quiet (enter fn free arguments)) :
    Compositional (fun expr => ∀ fn free, Quiet (expr.eval enter (.call fn free)))
      (fun stmt => ∀ fn free, Quiet (stmt.exec enter (.call fn free)))
      (fun block => ∀ fn free, Quiet (block.eval enter (.call fn free))) where
  integer _ _ _ := quiet_pure _
  text _ _ _ := quiet_pure _
  boolean _ _ _ := quiet_pure _
  name _ _ _ := .bind quiet_get fun _ => quiet_pure _
  unary _ _ h fn free := .bind (h fn free) fun _ => quiet_ofExcept _
  binary _ _ _ hl hr fn free :=
    .bind (hl fn free) fun _ => .bind (hr fn free) fun _ => quiet_ofExcept _
  condition _ _ _ ht hc ha fn free := by
    refine .bind (ht fn free) fun value => ?_
    split
    · exact hc fn free
    · exact ha fn free
  function _ _ _ _ _ _ _ _ := .bind quiet_get fun _ => quiet_pure _
  call _ _ hc ha fn free :=
    .bind (hc fn free) fun value =>
      .bind (quiet_evalAll fun expr hm => ha expr hm fn free) fun values => quiet_apply he value values
  collect _ _ h fn free :=
    .bind (quiet_evalAll fun expr hm => h expr hm fn free) fun _ => quiet_ofExcept _
  store symbol _ h fn free := quiet_store (h fn free) symbol
  discard _ h fn free := .bind (h fn free) fun _ => quiet_modify fun _ => rfl
  returnValue _ h fn free := .bind (h fn free) fun _ => quiet_throw _
  returnNull _ _ := quiet_throw _
  null _ _ := quiet_pure _
  value _ h := h
  next _ _ hs hr fn free := .bind (hs fn free) fun _ => hr fn free

/-- Calls are quiet. -/
theorem quiet_enter (fuel : Nat) : ∀ fn free arguments, Quiet (enter fuel fn free arguments) := by
  induction fuel with
  | zero => exact fun _ _ _ => quiet_throw _
  | succ fuel ih =>
      intro fn free arguments state
      have hbody := (compositional_quiet (enter fuel) ih).block fn.code fn free
        { state with
          locals := arguments ++ List.replicate (fn.locals - arguments.length) .null }
      simp only [enter]
      generalize fn.code.eval _ _ _ = result at hbody
      rcases result with _ | ⟨_ | _ | _, _⟩ <;> exact hbody

end Core

/-! ## Quiet programs -/

mutual

/-- Evaluating an expression outside of functions discards nothing: the blocks in it have no
expression statement in front of their last statement. -/
def Expr.isQuiet : Expr → Bool
  | .name _ | .integer _ | .text _ | .boolean _ | .function _ _ _ => true
  | .unary _ argument => argument.isQuiet
  | .binary _ left right => left.isQuiet && right.isQuiet
  | .condition test consequent alternative =>
    test.isQuiet && Stmt.isQuietBlock consequent && Stmt.isQuietOption alternative
  | .call callee arguments => callee.isQuiet && Expr.areQuiet arguments
  | .array elements => Expr.areQuiet elements
  | .hash pairs => Expr.areQuietPairs pairs
  | .index object position => object.isQuiet && position.isQuiet
termination_by structural expr => expr

/-- Evaluating several expressions discards nothing. -/
def Expr.areQuiet : List Expr → Bool
  | [] => true
  | expr :: exprs => expr.isQuiet && Expr.areQuiet exprs

/-- Evaluating the pairs of a hash literal discards nothing. -/
def Expr.areQuietPairs : List (Expr × Expr) → Bool
  | [] => true
  | (key, value) :: pairs => key.isQuiet && value.isQuiet && Expr.areQuietPairs pairs

/-- Running a statement discards nothing. It may be the last one of a block, which keeps its
value. -/
def Stmt.isQuiet (isLast : Bool) : Stmt → Bool
  | .expr value => isLast && value.isQuiet
  | .binding _ value | .assign _ value => value.isQuiet
  | .result (some value) => value.isQuiet
  | .result none => true

/-- Running a block discards nothing. -/
def Stmt.isQuietBlock : List Stmt → Bool
  | [] => true
  | stmt :: stmts => stmt.isQuiet stmts.isEmpty && Stmt.isQuietBlock stmts

/-- Running a block discards nothing, if it is there. -/
def Stmt.isQuietOption : Option (List Stmt) → Bool
  | none => true
  | some block => Stmt.isQuietBlock block

end

open StackScript.Core

/-- A quiet expression is one that is quiet when it is evaluated outside of functions. -/
def Expr.ResolvesQuiet (expr : Expr) : Prop :=
  ∀ (scope later : Scope) (core : Core.Expr) (enter : Enter), expr.isQuiet →
    (∀ fn free arguments, Quiet (enter fn free arguments)) →
      expr.resolve scope = .ok (core, later) → Quiet (core.eval enter .program)

/-- A quiet statement is one that is quiet when it is run outside of functions, by itself or as the
last one of a block. -/
def Stmt.ResolvesQuiet (stmt : Stmt) : Prop :=
  ∀ (scope later : Scope) (core : Core.Stmt) (enter : Enter),
    (∀ fn free arguments, Quiet (enter fn free arguments)) →
      stmt.resolve scope = .ok (core, later) →
        (stmt.isQuiet false → Quiet (core.exec enter .program)) ∧
          (stmt.isQuiet true → Quiet ((Block.ofStmts [core]).eval enter .program))

variable {scope later : Scope} {enter : Enter}

theorem Expr.quiet_resolveAll {exprs : List Expr} {cores : List Core.Expr}
    (he : ∀ fn free arguments, Quiet (enter fn free arguments))
    (hr : ∀ expr ∈ exprs, expr.ResolvesQuiet) (hq : Expr.areQuiet exprs)
    (h : Expr.resolveAll exprs scope = .ok (cores, later)) :
    ∀ core ∈ cores, Quiet (core.eval enter .program) := by
  induction exprs generalizing scope cores with
  | nil =>
      obtain ⟨rfl, rfl⟩ := Prod.mk.inj (Except.ok.inj h)
      exact List.forall_mem_nil _
  | cons expr exprs ih =>
      rw [List.forall_mem_cons] at hr
      obtain ⟨hexpr, hexprs⟩ := Bool.and_eq_true_iff.mp hq
      obtain ⟨⟨core, middle⟩, hfirst, h⟩ := Except.bind_eq_ok_iff.mp h
      obtain ⟨⟨cores', last⟩, hrest, h⟩ := Except.bind_eq_ok_iff.mp h
      obtain ⟨rfl, rfl⟩ := Prod.mk.inj (Except.ok.inj h)
      exact List.forall_mem_cons.mpr
        ⟨hr.1 scope middle core enter hexpr he hfirst, ih hr.2 hexprs hrest⟩

theorem Expr.quiet_inTurn {pairs : List (Expr × Expr)} {cores : List Core.Expr}
    (he : ∀ fn free arguments, Quiet (enter fn free arguments))
    (hr : ∀ pair ∈ pairs, pair.1.ResolvesQuiet ∧ pair.2.ResolvesQuiet)
    (hq : ∀ pair ∈ pairs, pair.1.isQuiet ∧ pair.2.isQuiet)
    (h : Scope.inTurn (pairs.map Expr.resolvePair) scope = .ok (cores, later)) :
    ∀ core ∈ cores, Quiet (core.eval enter .program) := by
  induction pairs generalizing scope cores with
  | nil =>
      obtain ⟨rfl, rfl⟩ := Prod.mk.inj (Except.ok.inj h)
      exact List.forall_mem_nil _
  | cons pair pairs ih =>
      rw [List.forall_mem_cons] at hr hq
      obtain ⟨⟨operands, second⟩, hpair, hstep⟩ := Except.bind_eq_ok_iff.mp h
      obtain ⟨⟨cores', last⟩, hrest, hend⟩ := Except.bind_eq_ok_iff.mp hstep
      obtain ⟨⟨key, first⟩, hkey, hinner⟩ := Except.bind_eq_ok_iff.mp hpair
      obtain ⟨⟨value, second'⟩, hvalue, hoperands⟩ := Except.bind_eq_ok_iff.mp hinner
      obtain ⟨rfl, rfl⟩ := Prod.mk.inj (Except.ok.inj hoperands)
      obtain ⟨rfl, rfl⟩ := Prod.mk.inj (Except.ok.inj hend)
      have hfirst := hr.1.1 scope first key enter hq.1.1 he hkey
      have hsecond := hr.1.2 first second' value enter hq.1.2 he hvalue
      exact List.forall_mem_cons.mpr
        ⟨hfirst, List.forall_mem_cons.mpr ⟨hsecond, ih hr.2 hq.2 hrest⟩⟩

theorem Expr.isQuiet_of_areQuietPairs {pairs : List (Expr × Expr)} (h : Expr.areQuietPairs pairs) :
    ∀ pair ∈ pairs, pair.1.isQuiet ∧ pair.2.isQuiet := by
  induction pairs with
  | nil => exact List.forall_mem_nil _
  | cons pair pairs ih =>
      obtain ⟨key, value⟩ := pair
      obtain ⟨hpair, hpairs⟩ := Bool.and_eq_true_iff.mp h
      exact List.forall_mem_cons.mpr ⟨Bool.and_eq_true_iff.mp hpair, ih hpairs⟩

/-- A quiet block is one that is quiet when it is run outside of functions. -/
theorem Stmt.quiet_resolveAll {stmts : List Stmt} {cores : List Core.Stmt}
    (he : ∀ fn free arguments, Quiet (enter fn free arguments))
    (hr : ∀ stmt ∈ stmts, stmt.ResolvesQuiet) (hq : Stmt.isQuietBlock stmts)
    (h : Stmt.resolveAll stmts scope = .ok (cores, later)) :
    Quiet ((Block.ofStmts cores).eval enter .program) := by
  induction stmts generalizing scope cores with
  | nil =>
      obtain ⟨rfl, rfl⟩ := Prod.mk.inj (Except.ok.inj h)
      exact quiet_pure _
  | cons stmt stmts ih =>
      rw [List.forall_mem_cons] at hr
      obtain ⟨hstmt, hstmts⟩ := Bool.and_eq_true_iff.mp hq
      obtain ⟨⟨core, middle⟩, hfirst, h⟩ := Except.bind_eq_ok_iff.mp h
      obtain ⟨⟨cores', last⟩, hrest, h⟩ := Except.bind_eq_ok_iff.mp h
      obtain ⟨rfl, rfl⟩ := Prod.mk.inj (Except.ok.inj h)
      have hcore := hr.1 scope middle core enter he hfirst
      -- The last statement of a block keeps its value, and no other one does.
      cases stmts with
      | nil =>
          obtain ⟨rfl, rfl⟩ := Prod.mk.inj (Except.ok.inj hrest)
          exact hcore.2 hstmt
      | cons next stmts =>
          have hne : cores' ≠ [] := by
            rintro rfl
            obtain ⟨⟨_, _⟩, -, hrest⟩ := Except.bind_eq_ok_iff.mp hrest
            obtain ⟨⟨_, _⟩, -, hrest⟩ := Except.bind_eq_ok_iff.mp hrest
            cases hrest
          rw [Block.ofStmts_cons core hne]
          exact .bind (hcore.1 hstmt) fun _ => ih hr.2 hstmts hrest

theorem Stmt.quiet_resolveAlternative {alternative : Option (List Stmt)} {cores : List Core.Stmt}
    (he : ∀ fn free arguments, Quiet (enter fn free arguments))
    (hr : ∀ block ∈ alternative, ∀ stmt ∈ block, stmt.ResolvesQuiet)
    (hq : Stmt.isQuietOption alternative)
    (h : Stmt.resolveAlternative alternative scope = .ok (cores, later)) :
    Quiet ((Block.ofStmts cores).eval enter .program) := by
  cases alternative with
  | none =>
      obtain ⟨rfl, rfl⟩ := Prod.mk.inj (Except.ok.inj h)
      exact quiet_pure _
  | some block => exact Stmt.quiet_resolveAll he (hr block rfl) hq h

namespace Expr.ResolvesQuiet

theorem of_literal {expr : Expr} {literal : Core.Expr}
    (hr : ∀ scope, expr.resolve scope = .ok (literal, scope))
    (hq : ∀ enter, Quiet (literal.eval enter .program)) : expr.ResolvesQuiet := by
  intro scope later core enter _ _ h
  obtain ⟨rfl, rfl⟩ := Prod.mk.inj (Except.ok.inj ((hr scope).symm.trans h))
  exact hq enter

theorem name (id : String) : (Expr.name id).ResolvesQuiet := by
  intro scope later core enter _ _ h
  obtain ⟨⟨symbol, found⟩, -, h⟩ := Except.bind_eq_ok_iff.mp h
  obtain ⟨rfl, rfl⟩ := Prod.mk.inj (Except.ok.inj h)
  exact .bind quiet_get fun _ => quiet_pure _

theorem unary (op : UnaryOp) {argument : Expr} (ha : argument.ResolvesQuiet) :
    (Expr.unary op argument).ResolvesQuiet := by
  intro scope later core enter hq he h
  cases op with
  | plus => simp [Expr.resolve] at h
  | minus =>
      obtain ⟨⟨core', found⟩, hargument, h⟩ := Except.bind_eq_ok_iff.mp h
      obtain ⟨rfl, rfl⟩ := Prod.mk.inj (Except.ok.inj h)
      exact .bind (ha scope found core' enter hq he hargument) fun _ => quiet_ofExcept _
  | not =>
      obtain ⟨⟨core', found⟩, hargument, h⟩ := Except.bind_eq_ok_iff.mp h
      obtain ⟨rfl, rfl⟩ := Prod.mk.inj (Except.ok.inj h)
      exact .bind (ha scope found core' enter hq he hargument) fun _ => quiet_ofExcept _

/-- Two operands one after the other. -/
theorem two {left right : Expr} (hl : left.ResolvesQuiet) (hr : right.ResolvesQuiet)
    (hq : left.isQuiet ∧ right.isQuiet) (op : Core.Binary) {core : Core.Expr}
    (he : ∀ fn free arguments, Quiet (enter fn free arguments))
    (h : (do
      let (left, scope) ← left.resolve scope
      let (right, scope) ← right.resolve scope
      return (Core.Expr.binary op left right, scope)) = .ok (core, later)) :
    Quiet (core.eval enter .program) := by
  obtain ⟨⟨first, middle⟩, hleft, h⟩ := Except.bind_eq_ok_iff.mp h
  obtain ⟨⟨second, last⟩, hright, h⟩ := Except.bind_eq_ok_iff.mp h
  obtain ⟨rfl, rfl⟩ := Prod.mk.inj (Except.ok.inj h)
  have hfirst := hl scope middle first enter hq.1 he hleft
  have hsecond := hr middle last second enter hq.2 he hright
  exact .bind hfirst fun _ => .bind hsecond fun _ => quiet_ofExcept _

theorem binary (op : BinaryOp) {left right : Expr} (hl : left.ResolvesQuiet)
    (hr : right.ResolvesQuiet) : (Expr.binary op left right).ResolvesQuiet := by
  intro scope later core enter hq he h
  have hboth := Bool.and_eq_true_iff.mp hq
  cases op with
  | less => exact two hr hl hboth.symm (.comparison .greater) he h
  | add => exact two hl hr hboth (.arithmetic .add) he h
  | subtract => exact two hl hr hboth (.arithmetic .subtract) he h
  | multiply => exact two hl hr hboth (.arithmetic .multiply) he h
  | divide => exact two hl hr hboth (.arithmetic .divide) he h
  | greater => exact two hl hr hboth (.comparison .greater) he h
  | equal => exact two hl hr hboth (.comparison .equal) he h
  | notEqual => exact two hl hr hboth (.comparison .notEqual) he h

theorem condition {test : Expr} {consequent : List Stmt} {alternative : Option (List Stmt)}
    (ht : test.ResolvesQuiet) (hc : ∀ stmt ∈ consequent, stmt.ResolvesQuiet)
    (ha : ∀ block ∈ alternative, ∀ stmt ∈ block, stmt.ResolvesQuiet) :
    (Expr.condition test consequent alternative).ResolvesQuiet := by
  intro scope later core enter hq he h
  obtain ⟨hq, hqalternative⟩ := Bool.and_eq_true_iff.mp hq
  obtain ⟨hqtest, hqconsequent⟩ := Bool.and_eq_true_iff.mp hq
  obtain ⟨⟨test', first⟩, htest, h⟩ := Except.bind_eq_ok_iff.mp h
  obtain ⟨⟨stmts, second⟩, hconsequent, h⟩ := Except.bind_eq_ok_iff.mp h
  obtain ⟨⟨stmts', third⟩, halternative, h⟩ := Except.bind_eq_ok_iff.mp h
  obtain ⟨rfl, rfl⟩ := Prod.mk.inj (Except.ok.inj h)
  refine .bind (ht scope first test' enter hqtest he htest) fun value => ?_
  split
  · exact Stmt.quiet_resolveAll he hc hqconsequent hconsequent
  · exact Stmt.quiet_resolveAlternative he ha hqalternative halternative

theorem function (name : Option String) (params : List String) (body : List Stmt) :
    (Expr.function name params body).ResolvesQuiet := by
  intro scope later core enter _ _ h
  obtain ⟨⟨stmts, inner⟩, -, h⟩ := Except.bind_eq_ok_iff.mp h
  obtain ⟨rfl, rfl⟩ := Prod.mk.inj (Except.ok.inj h)
  exact .bind quiet_get fun _ => quiet_pure _

theorem call {callee : Expr} {arguments : List Expr} (hc : callee.ResolvesQuiet)
    (ha : ∀ expr ∈ arguments, expr.ResolvesQuiet) : (Expr.call callee arguments).ResolvesQuiet := by
  intro scope later core enter hq he h
  obtain ⟨hqcallee, hqarguments⟩ := Bool.and_eq_true_iff.mp hq
  obtain ⟨⟨callee', first⟩, hcallee, h⟩ := Except.bind_eq_ok_iff.mp h
  obtain ⟨⟨cores, second⟩, harguments, h⟩ := Except.bind_eq_ok_iff.mp h
  obtain ⟨rfl, rfl⟩ := Prod.mk.inj (Except.ok.inj h)
  have hvalues := quiet_evalAll (Expr.quiet_resolveAll he ha hqarguments harguments)
  refine .bind (hc scope first callee' enter hqcallee he hcallee) fun value => ?_
  exact .bind hvalues fun values => quiet_apply he value values

theorem array {elements : List Expr} (hr : ∀ expr ∈ elements, expr.ResolvesQuiet) :
    (Expr.array elements).ResolvesQuiet := by
  intro scope later core enter hq he h
  obtain ⟨⟨cores, found⟩, helements, h⟩ := Except.bind_eq_ok_iff.mp h
  obtain ⟨rfl, rfl⟩ := Prod.mk.inj (Except.ok.inj h)
  exact .bind (quiet_evalAll (Expr.quiet_resolveAll he hr hq helements)) fun _ => quiet_ofExcept _

theorem hash {pairs : List (Expr × Expr)}
    (hr : ∀ pair ∈ pairs, pair.1.ResolvesQuiet ∧ pair.2.ResolvesQuiet) :
    (Expr.hash pairs).ResolvesQuiet := by
  intro scope later core enter hq he h
  rw [Expr.resolve] at h
  split at h
  case h_1 => simp at h
  case h_2 =>
      obtain ⟨⟨cores, found⟩, hturn, h⟩ := Except.bind_eq_ok_iff.mp h
      obtain ⟨rfl, rfl⟩ := Prod.mk.inj (Except.ok.inj h)
      rw [Expr.resolvePairs_eq_map, Expr.mergeSort_steps, List.map_map] at hturn
      refine .bind (quiet_evalAll (Expr.quiet_inTurn he ?_ ?_ hturn)) fun _ => quiet_ofExcept _
      · exact fun pair hm => hr pair (List.mem_mergeSort.mp hm)
      · exact fun pair hm => Expr.isQuiet_of_areQuietPairs hq pair (List.mem_mergeSort.mp hm)

theorem index {object position : Expr} (ho : object.ResolvesQuiet) (hp : position.ResolvesQuiet) :
    (Expr.index object position).ResolvesQuiet := by
  intro scope later core enter hq he h
  exact two ho hp (Bool.and_eq_true_iff.mp hq) .element he h

end Expr.ResolvesQuiet

namespace Stmt.ResolvesQuiet

/-- A statement that is no expression ends its block with null. -/
theorem of_exec {stmt : Stmt} (hl : stmt.isQuiet true = stmt.isQuiet false)
    (h : ∀ (scope later : Scope) (core : Core.Stmt) (enter : Enter), stmt.isQuiet false →
      (∀ fn free arguments, Quiet (enter fn free arguments)) →
        stmt.resolve scope = .ok (core, later) →
          (∀ value, core ≠ .discard value) ∧ Quiet (core.exec enter .program)) :
    stmt.ResolvesQuiet := by
  intro scope later core enter he hresolve
  constructor
  · intro hq
    exact (h scope later core enter hq he hresolve).2
  · intro hq
    obtain ⟨hne, hexec⟩ := h scope later core enter (hl ▸ hq) he hresolve
    rw [Block.ofStmts_single hne]
    exact .bind hexec fun _ => quiet_pure _

theorem expr {value : Expr} (hv : value.ResolvesQuiet) : (Stmt.expr value).ResolvesQuiet := by
  intro scope later core enter he h
  obtain ⟨⟨value', found⟩, hvalue, h⟩ := Except.bind_eq_ok_iff.mp h
  obtain ⟨rfl, rfl⟩ := Prod.mk.inj (Except.ok.inj h)
  constructor
  · exact nofun
  · exact fun hq => hv scope found value' enter hq he hvalue

theorem binding (name : String) {value : Expr} (hv : value.ResolvesQuiet) :
    (Stmt.binding name value).ResolvesQuiet := by
  refine of_exec rfl fun scope later core enter hq he h => ?_
  obtain ⟨⟨value', found⟩, hvalue, h⟩ := Except.bind_eq_ok_iff.mp h
  obtain ⟨rfl, rfl⟩ := Prod.mk.inj (Except.ok.inj h)
  exact ⟨nofun, quiet_store (hv scope found value' enter hq he hvalue) _⟩

theorem assign (name : String) {value : Expr} (hv : value.ResolvesQuiet) :
    (Stmt.assign name value).ResolvesQuiet := by
  refine of_exec rfl fun scope later core enter hq he h => ?_
  obtain ⟨⟨value', found⟩, hvalue, h⟩ := Except.bind_eq_ok_iff.mp h
  obtain ⟨⟨symbol, last⟩, -, h⟩ := Except.bind_eq_ok_iff.mp h
  obtain ⟨rfl, rfl⟩ := Prod.mk.inj (Except.ok.inj h)
  exact ⟨nofun, quiet_store (hv scope found value' enter hq he hvalue) _⟩

theorem returnValue {value : Expr} (hv : value.ResolvesQuiet) :
    (Stmt.result (some value)).ResolvesQuiet := by
  refine of_exec rfl fun scope later core enter hq he h => ?_
  obtain ⟨⟨value', found⟩, hvalue, h⟩ := Except.bind_eq_ok_iff.mp h
  obtain ⟨rfl, rfl⟩ := Prod.mk.inj (Except.ok.inj h)
  exact ⟨nofun, .bind (hv scope found value' enter hq he hvalue) fun _ => quiet_throw _⟩

theorem returnNull : (Stmt.result none).ResolvesQuiet := by
  refine of_exec rfl fun scope later core enter hq he h => ?_
  obtain ⟨rfl, rfl⟩ := Prod.mk.inj (Except.ok.inj h)
  exact ⟨nofun, quiet_throw _⟩

end Stmt.ResolvesQuiet

/-- Wholes that are quiet are evaluated quietly, as their parts are. -/
theorem compositional_resolvesQuiet : Compositional Expr.ResolvesQuiet Stmt.ResolvesQuiet where
  name := .name
  integer _ := .of_literal (fun _ => rfl) fun _ => quiet_pure _
  text _ := .of_literal (fun _ => rfl) fun _ => quiet_pure _
  boolean _ := .of_literal (fun _ => rfl) fun _ => quiet_pure _
  unary op _ := .unary op
  binary op _ _ := .binary op
  condition _ _ _ := .condition
  function name params body _ := .function name params body
  call _ _ := .call
  array _ := .array
  hash _ := .hash
  index _ _ := .index
  binding name _ := .binding name
  assign name _ := .assign name
  returnValue _ := .returnValue
  returnNull := .returnNull
  expr _ := .expr

/-- Statements of a program that are quiet are run quietly. -/
theorem Program.quiet_resolveAll {program : Program} {stmts : List Core.Stmt}
    (hq : ∀ stmt ∈ program, stmt.isQuiet false)
    (he : ∀ fn free arguments, Quiet (enter fn free arguments))
    (h : Stmt.resolveAll program scope = .ok (stmts, later)) : Quiet (execAll enter stmts) := by
  induction program generalizing scope stmts with
  | nil =>
      obtain ⟨rfl, rfl⟩ := Prod.mk.inj (Except.ok.inj h)
      exact quiet_pure _
  | cons stmt program ih =>
      rw [List.forall_mem_cons] at hq
      obtain ⟨⟨core, middle⟩, hfirst, h⟩ := Except.bind_eq_ok_iff.mp h
      obtain ⟨⟨cores, last⟩, hrest, h⟩ := Except.bind_eq_ok_iff.mp h
      obtain ⟨rfl, rfl⟩ := Prod.mk.inj (Except.ok.inj h)
      have hstmt := compositional_resolvesQuiet.statement stmt scope middle core enter he hfirst
      exact .bind (hstmt.1 hq.1) fun _ => ih hq.2 hrest

end StackScript
