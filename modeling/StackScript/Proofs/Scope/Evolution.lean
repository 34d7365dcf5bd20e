import StackScript.Proofs.Core.Resolve
import StackScript.Proofs.Program.Compositional

/-!
# How scopes evolve

A program changes the scope in which it is resolved in few ways. It looks names up, it defines names,
and it enters functions and leaves them again. What relates two scopes across each of these relates
the scope in front of a program to the one behind it.

## Implementation notes

The order in which names are defined depends on the order of operands, which is not that of the
source everywhere. Only the set of the names is therefore given.
-/

namespace StackScript

/-! ## What a program binds -/

mutual

/-- The names that are bound in an expression outside of its functions. -/
def Expr.bindings : Expr → List String
  | .name _ | .integer _ | .text _ | .boolean _ | .function _ _ _ => []
  | .unary _ argument => argument.bindings
  | .binary _ left right => left.bindings ++ right.bindings
  | .condition test consequent alternative =>
    test.bindings ++ Stmt.allBindings consequent ++ Stmt.optionalBindings alternative
  | .call callee arguments => callee.bindings ++ Expr.allBindings arguments
  | .array elements => Expr.allBindings elements
  | .hash pairs => Expr.pairBindings pairs
  | .index object position => object.bindings ++ position.bindings
termination_by structural expr => expr

/-- The names that are bound in several expressions outside of their functions. -/
def Expr.allBindings : List Expr → List String
  | [] => []
  | expr :: exprs => expr.bindings ++ Expr.allBindings exprs

/-- The names that are bound in the pairs of a hash literal outside of their functions. -/
def Expr.pairBindings : List (Expr × Expr) → List String
  | [] => []
  | (key, value) :: pairs => key.bindings ++ value.bindings ++ Expr.pairBindings pairs

/-- The names that a statement binds outside of its functions. -/
def Stmt.bindings : Stmt → List String
  | .binding name value => value.bindings ++ [name]
  | .assign _ value => value.bindings
  | .result (some value) => value.bindings
  | .result none => []
  | .expr value => value.bindings

/-- The names that several statements bind outside of their functions. -/
def Stmt.allBindings : List Stmt → List String
  | [] => []
  | stmt :: stmts => stmt.bindings ++ Stmt.allBindings stmts

/-- The names that a block binds outside of its functions, if it is there. -/
def Stmt.optionalBindings : Option (List Stmt) → List String
  | none => []
  | some block => Stmt.allBindings block

end

/-! ## Relations between scopes -/

/-- Finding a name leaves the scope that looking it up leaves. -/
theorem Scope.resolveIn_of_find {scope later : Scope} {name : String} {symbol : Symbol}
    (h : scope.find name = .ok (symbol, later)) :
    (resolveIn name scope.table scope.outer).2 = later := by
  unfold find lookup resolve at h
  generalize resolveIn name scope.table scope.outer = found at h ⊢
  obtain ⟨resolution, found⟩ := found
  cases hsymbol : resolution.symbol? with
  | none => simp [hsymbol] at h
  | some symbol' =>
      obtain ⟨-, rfl⟩ : symbol' = symbol ∧ found = later := by simpa [hsymbol] using h
      rfl

/-- A relation between a scope and a later one, where some names may have been defined in between
outside of functions. -/
structure Scope.Evolution where
  follows : (names : List String) → (scope later : Scope) → Prop
  refl (names : List String) (scope : Scope) : follows names scope scope
  trans {names : List String} {first second third : Scope} (h : follows names first second)
    (h' : follows names second third) : follows names first third
  find {names : List String} {scope later : Scope} {name : String} {symbol : Symbol}
    (h : scope.find name = .ok (symbol, later)) : follows names scope later
  define {names : List String} {name : String} (scope : Scope) (hm : name ∈ names) :
    follows names scope (scope.define name).2
  leave {names inside : List String} {scope later : Scope} {name : Option String}
    {params : List String} (h : follows inside (scope.enterFunction name params) later) :
    follows names scope (later.leave?.getD later)

namespace Scope.Evolution

variable (E : Evolution) {names : List String} {scope : Scope}

/-- What follows is read in a scope, and leaves one that has evolved from it. -/
def Leads (names : List String) (scope : Scope) (result : Except CompileError (α × Scope)) : Prop :=
  ∀ value later, result = .ok (value, later) → E.follows names scope later

theorem leads_ok {later : Scope} (value : α) (h : E.follows names scope later) :
    E.Leads names scope (.ok (value, later)) := by
  rintro _ _ ⟨⟩
  exact h

theorem leads_error (error : CompileError) :
    E.Leads names scope (.error error : Except CompileError (α × Scope)) :=
  nofun

variable {E}

theorem Leads.bind {first : Except CompileError (α × Scope)}
    {next : α × Scope → Except CompileError (β × Scope)} (h : E.Leads names scope first)
    (hn : ∀ value later, E.Leads names later (next (value, later))) :
    E.Leads names scope (first >>= next) := by
  intro value later heq
  obtain ⟨⟨value', middle⟩, hfirst, hnext⟩ := Except.bind_eq_ok_iff.mp heq
  exact E.trans (h value' middle hfirst) (hn value' middle value later hnext)

variable (E)

theorem leads_find (scope : Scope) (name : String) : E.Leads names scope (scope.find name) :=
  fun _ _ => E.find

theorem leads_findVariable (scope : Scope) (name : String) :
    E.Leads names scope (scope.findVariable name) := by
  refine (E.leads_find scope name).bind fun symbol later => ?_
  dsimp only
  split
  case h_1 => exact E.leads_ok symbol (E.refl _ later)
  case h_2 => exact E.leads_ok symbol (E.refl _ later)
  all_goals exact E.leads_error _

end Scope.Evolution

/-! ## Resolved programs -/

variable (E : Scope.Evolution)

/-- An expression that is resolved changes its scope as the relation says, and defines no other names
than those that it binds. -/
def Expr.Follows (expr : Expr) : Prop :=
  ∀ names, expr.bindings ⊆ names → ∀ scope, E.Leads names scope (expr.resolve scope)

/-- A statement that is resolved changes its scope as the relation says, and defines no other names
than those that it binds. -/
def Stmt.Follows (stmt : Stmt) : Prop :=
  ∀ names, stmt.bindings ⊆ names → ∀ scope, E.Leads names scope (stmt.resolve scope)

variable {E} {names : List String} {scope : Scope}

open Scope

theorem Expr.leads_resolveAll {exprs : List Expr} (he : ∀ expr ∈ exprs, expr.Follows E)
    (hn : Expr.allBindings exprs ⊆ names) : E.Leads names scope (Expr.resolveAll exprs scope) := by
  induction exprs generalizing scope with
  | nil => exact E.leads_ok _ (E.refl _ scope)
  | cons expr exprs ih =>
      rw [List.forall_mem_cons] at he
      obtain ⟨hexpr, hexprs⟩ := List.append_subset.mp hn
      refine (he.1 names hexpr scope).bind fun core middle => ?_
      exact (ih he.2 hexprs).bind fun cores last => E.leads_ok _ (E.refl _ last)

theorem Stmt.leads_resolveAll {stmts : List Stmt} (hs : ∀ stmt ∈ stmts, stmt.Follows E)
    (hn : Stmt.allBindings stmts ⊆ names) : E.Leads names scope (Stmt.resolveAll stmts scope) := by
  induction stmts generalizing scope with
  | nil => exact E.leads_ok _ (E.refl _ scope)
  | cons stmt stmts ih =>
      rw [List.forall_mem_cons] at hs
      obtain ⟨hstmt, hstmts⟩ := List.append_subset.mp hn
      refine (hs.1 names hstmt scope).bind fun core middle => ?_
      exact (ih hs.2 hstmts).bind fun cores last => E.leads_ok _ (E.refl _ last)

theorem Stmt.leads_resolveAlternative {alternative : Option (List Stmt)}
    (hs : ∀ block ∈ alternative, ∀ stmt ∈ block, stmt.Follows E)
    (hn : Stmt.optionalBindings alternative ⊆ names) :
    E.Leads names scope (Stmt.resolveAlternative alternative scope) := by
  cases alternative with
  | none => exact E.leads_ok _ (E.refl _ scope)
  | some block => exact Stmt.leads_resolveAll (hs block rfl) hn

theorem Expr.bindings_subset_pairBindings {pairs : List (Expr × Expr)} :
    ∀ pair ∈ pairs, pair.1.bindings ⊆ Expr.pairBindings pairs ∧
      pair.2.bindings ⊆ Expr.pairBindings pairs := by
  induction pairs with
  | nil => exact List.forall_mem_nil _
  | cons pair pairs ih =>
      obtain ⟨key, value⟩ := pair
      obtain ⟨hfirst, hrest⟩ := List.append_subset.mp (List.Subset.refl
        (Expr.pairBindings ((key, value) :: pairs)))
      refine List.forall_mem_cons.mpr ⟨List.append_subset.mp hfirst, fun pair hm => ?_⟩
      exact ⟨List.Subset.trans (ih pair hm).1 hrest, List.Subset.trans (ih pair hm).2 hrest⟩

theorem Expr.leads_inTurn {pairs : List (Expr × Expr)}
    (hp : ∀ pair ∈ pairs, pair.1.Follows E ∧ pair.2.Follows E)
    (hn : ∀ pair ∈ pairs, pair.1.bindings ⊆ names ∧ pair.2.bindings ⊆ names) :
    E.Leads names scope (inTurn (pairs.map Expr.resolvePair) scope) := by
  induction pairs generalizing scope with
  | nil => exact E.leads_ok _ (E.refl _ scope)
  | cons pair pairs ih =>
      rw [List.forall_mem_cons] at hp hn
      have hpair : E.Leads names scope (Expr.resolvePair pair scope) := by
        refine (hp.1.1 names hn.1.1 scope).bind fun key middle => ?_
        exact (hp.1.2 names hn.1.2 middle).bind fun value last => E.leads_ok _ (E.refl _ last)
      refine hpair.bind fun operands middle => ?_
      exact (ih hp.2 hn.2).bind fun others last => E.leads_ok _ (E.refl _ last)

namespace Expr.Follows

theorem of_literal {expr : Expr} {literal : Core.Expr}
    (hr : ∀ scope, expr.resolve scope = .ok (literal, scope)) : expr.Follows E := by
  intro names _ scope
  rw [hr]
  exact E.leads_ok _ (E.refl _ scope)

theorem name (id : String) : (Expr.name id).Follows E := by
  intro names _ scope
  exact (E.leads_find scope id).bind fun symbol later => E.leads_ok _ (E.refl _ later)

theorem unary (op : UnaryOp) {argument : Expr} (ha : argument.Follows E) :
    (Expr.unary op argument).Follows E := by
  intro names hn scope
  cases op with
  | plus => exact E.leads_error _
  | minus => exact (ha names hn scope).bind fun core later => E.leads_ok _ (E.refl _ later)
  | not => exact (ha names hn scope).bind fun core later => E.leads_ok _ (E.refl _ later)

/-- Two operands one after the other. -/
theorem two {first second : Expr} (hf : first.Follows E) (hs : second.Follows E)
    (hn : first.bindings ⊆ names) (hn' : second.bindings ⊆ names)
    (combine : Core.Expr → Core.Expr → Core.Expr) (scope : Scope) :
    E.Leads names scope (do
      let (first, scope) ← first.resolve scope
      let (second, scope) ← second.resolve scope
      return (combine first second, scope)) := by
  refine (hf names hn scope).bind fun core middle => ?_
  exact (hs names hn' middle).bind fun core' last => E.leads_ok _ (E.refl _ last)

theorem binary (op : BinaryOp) {left right : Expr} (hl : left.Follows E) (hr : right.Follows E) :
    (Expr.binary op left right).Follows E := by
  intro names hn scope
  obtain ⟨hleft, hright⟩ := List.append_subset.mp hn
  cases op with
  | less =>
      exact two hr hl hright hleft (.binary (.comparison .greater)) scope
  | add => exact two hl hr hleft hright (.binary (.arithmetic .add)) scope
  | subtract => exact two hl hr hleft hright (.binary (.arithmetic .subtract)) scope
  | multiply => exact two hl hr hleft hright (.binary (.arithmetic .multiply)) scope
  | divide => exact two hl hr hleft hright (.binary (.arithmetic .divide)) scope
  | greater => exact two hl hr hleft hright (.binary (.comparison .greater)) scope
  | equal => exact two hl hr hleft hright (.binary (.comparison .equal)) scope
  | notEqual => exact two hl hr hleft hright (.binary (.comparison .notEqual)) scope

theorem condition {test : Expr} {consequent : List Stmt} {alternative : Option (List Stmt)}
    (ht : test.Follows E) (hc : ∀ stmt ∈ consequent, stmt.Follows E)
    (ha : ∀ block ∈ alternative, ∀ stmt ∈ block, stmt.Follows E) :
    (Expr.condition test consequent alternative).Follows E := by
  intro names hn scope
  obtain ⟨hn, halternative⟩ := List.append_subset.mp hn
  obtain ⟨htest, hconsequent⟩ := List.append_subset.mp hn
  refine (ht names htest scope).bind fun core first => ?_
  refine (Stmt.leads_resolveAll hc hconsequent).bind fun stmts second => ?_
  exact (Stmt.leads_resolveAlternative ha halternative).bind fun stmts' last =>
    E.leads_ok _ (E.refl _ last)

/-- What the body of a function binds stays inside of it. -/
theorem function (name : Option String) (params : List String) {body : List Stmt}
    (hb : ∀ stmt ∈ body, stmt.Follows E) : (Expr.function name params body).Follows E := by
  intro names _ scope core later h
  obtain ⟨⟨stmts, inner⟩, hbody, h⟩ := Except.bind_eq_ok_iff.mp h
  obtain ⟨rfl, rfl⟩ := Prod.mk.inj (Except.ok.inj h)
  exact E.leave (Stmt.leads_resolveAll hb (List.Subset.refl _) stmts inner hbody)

theorem call {callee : Expr} {arguments : List Expr} (hc : callee.Follows E)
    (ha : ∀ expr ∈ arguments, expr.Follows E) : (Expr.call callee arguments).Follows E := by
  intro names hn scope
  obtain ⟨hcallee, harguments⟩ := List.append_subset.mp hn
  refine (hc names hcallee scope).bind fun core middle => ?_
  exact (Expr.leads_resolveAll ha harguments).bind fun cores last => E.leads_ok _ (E.refl _ last)

theorem array {elements : List Expr} (he : ∀ expr ∈ elements, expr.Follows E) :
    (Expr.array elements).Follows E := by
  intro names hn scope
  exact (Expr.leads_resolveAll he hn).bind fun cores last => E.leads_ok _ (E.refl _ last)

theorem hash {pairs : List (Expr × Expr)}
    (hp : ∀ pair ∈ pairs, pair.1.Follows E ∧ pair.2.Follows E) : (Expr.hash pairs).Follows E := by
  intro names hn scope
  rw [Expr.resolve]
  split
  case h_1 => exact E.leads_error _
  case h_2 =>
      -- The pairs are taken in another order, in which each of them binds what it binds here.
      have hsorted : ∀ pair ∈ pairs.mergeSort fun a b => textLe a.1.render b.1.render,
          pair.1.Follows E ∧ pair.2.Follows E := fun pair hm => hp pair (List.mem_mergeSort.mp hm)
      have hbinds : ∀ pair ∈ pairs.mergeSort fun a b => textLe a.1.render b.1.render,
          pair.1.bindings ⊆ names ∧ pair.2.bindings ⊆ names := by
        intro pair hm
        obtain ⟨hkey, hvalue⟩ := Expr.bindings_subset_pairBindings pair (List.mem_mergeSort.mp hm)
        exact ⟨List.Subset.trans hkey hn, List.Subset.trans hvalue hn⟩
      rw [Expr.resolvePairs_eq_map, Expr.mergeSort_steps]
      dsimp only
      rw [List.map_map]
      exact (Expr.leads_inTurn hsorted hbinds).bind fun cores last => E.leads_ok _ (E.refl _ last)

theorem index {object position : Expr} (ho : object.Follows E) (hp : position.Follows E) :
    (Expr.index object position).Follows E := by
  intro names hn scope
  obtain ⟨hobject, hposition⟩ := List.append_subset.mp hn
  exact two ho hp hobject hposition (.binary .element) scope

end Expr.Follows

namespace Stmt.Follows

theorem expr {value : Expr} (hv : value.Follows E) : (Stmt.expr value).Follows E := by
  intro names hn scope
  exact (hv names hn scope).bind fun core later => E.leads_ok _ (E.refl _ later)

theorem binding (name : String) {value : Expr} (hv : value.Follows E) :
    (Stmt.binding name value).Follows E := by
  intro names hn scope
  obtain ⟨hvalue, hname⟩ := List.append_subset.mp hn
  refine (hv names hvalue scope).bind fun core later => ?_
  exact E.leads_ok _ (E.define later (hname (List.mem_singleton_self name)))

theorem assign (name : String) {value : Expr} (hv : value.Follows E) :
    (Stmt.assign name value).Follows E := by
  intro names hn scope
  refine (hv names hn scope).bind fun core middle => ?_
  exact (E.leads_findVariable middle name).bind fun symbol last => E.leads_ok _ (E.refl _ last)

theorem result {value : Expr} (hv : value.Follows E) : (Stmt.result (some value)).Follows E := by
  intro names hn scope
  exact (hv names hn scope).bind fun core later => E.leads_ok _ (E.refl _ later)

end Stmt.Follows

variable (E)

/-- Whole expressions and statements change their scopes as their parts do. -/
theorem Scope.Evolution.compositional : Compositional (Expr.Follows E) (Stmt.Follows E) where
  name := .name
  integer _ := .of_literal fun _ => rfl
  text _ := .of_literal fun _ => rfl
  boolean _ := .of_literal fun _ => rfl
  unary op _ := .unary op
  binary op _ _ := .binary op
  condition _ _ _ := .condition
  function name params _ := .function name params
  call _ _ := .call
  array _ := .array
  hash _ := .hash
  index _ _ := .index
  binding name _ := .binding name
  assign name _ := .assign name
  returnValue _ := .result
  returnNull _ _ scope := E.leads_ok _ (E.refl _ scope)
  expr _ := .expr

/-- The scope behind some statements has evolved from that in front of them, with the names defined
that the statements bind outside of their functions. -/
theorem Scope.Evolution.of_resolveAll {stmts : List Stmt} {scope later : Scope}
    {cores : List Core.Stmt} (h : Stmt.resolveAll stmts scope = .ok (cores, later)) :
    E.follows (Stmt.allBindings stmts) scope later :=
  Stmt.leads_resolveAll (E.compositional.statements stmts) (List.Subset.refl _) cores later h

end StackScript
