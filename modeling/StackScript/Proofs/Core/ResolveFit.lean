import Mathlib.Data.List.Forall2
import StackScript.Proofs.Core.Fit
import StackScript.Proofs.Core.Resolve
import StackScript.Proofs.Program.Compositional

/-!
# Resolved programs fit their tables

A scope is valid if each of its tables binds symbols that fit, and if what it captures fits the
table around it. Tables only grow, so that a symbol that has been found once fits for ever.
-/

namespace StackScript

theorem Builtin.index_lt_length (builtin : Builtin) : builtin.index < Builtin.all.length := by
  cases builtin <;> decide

/-- The later table has as many slots and captured values as the earlier one at least. -/
structure Table.Grows (table later : Table) : Prop where
  definitions : table.definitions ≤ later.definitions
  free : table.free.length ≤ later.free.length

theorem Table.Grows.refl (table : Table) : table.Grows table :=
  ⟨Nat.le_refl _, Nat.le_refl _⟩

theorem Table.Grows.trans {first second third : Table} (h : first.Grows second)
    (h' : second.Grows third) : first.Grows third :=
  ⟨Nat.le_trans h.definitions h'.definitions, Nat.le_trans h.free h'.free⟩

namespace Scope

/-- The bounds of what a table and the tables around it give a place to. -/
def boundsIn (table : Table) : List Table → Bounds
  | [] => .outside table.definitions
  | outer :: rest =>
    .within (boundsIn outer rest).names table.definitions table.free.length

/-- The bounds of what a scope gives a place to. -/
def bounds (scope : Scope) : Bounds :=
  boundsIn scope.table scope.outer

/-- What a table and the tables around it bind and capture fits. -/
def ValidIn (table : Table) (outer : List Table) : Prop :=
  (∀ symbol ∈ table.bound, symbol.Fits (boundsIn table outer)) ∧
    match outer with
    | [] => True
    | next :: rest => (∀ symbol ∈ table.free, symbol.Fits (boundsIn next rest)) ∧ ValidIn next rest

/-- What the tables of a scope bind and capture fits. -/
def Valid (scope : Scope) : Prop :=
  ValidIn scope.table scope.outer

/-- Every table of the later scope has grown out of one of the earlier scope. -/
def Grows (scope later : Scope) : Prop :=
  List.Forall₂ Table.Grows (scope.table :: scope.outer) (later.table :: later.outer)

theorem Grows.refl (scope : Scope) : scope.Grows scope :=
  List.forall₂_same.mpr fun table _ => .refl table

theorem Grows.trans {first second third : Scope} (h : first.Grows second)
    (h' : second.Grows third) : first.Grows third := by
  unfold Grows at h h' ⊢
  generalize first.table :: first.outer = tables at h ⊢
  generalize second.table :: second.outer = middle at h h'
  generalize third.table :: third.outer = tables' at h' ⊢
  induction h generalizing tables' with
  | nil => exact h'
  | cons htable _ ih =>
      cases h' with
      | cons htable' hrest => exact .cons (htable.trans htable') (ih _ hrest)

variable {table later : Table} {outer : List Table}

theorem boundsIn_le {around : List Table} (h : table.Grows later)
    (ha : List.Forall₂ Table.Grows outer around) :
    (boundsIn table outer).Le (boundsIn later around) := by
  induction ha generalizing table later with
  | nil => exact ⟨h.definitions, Nat.le_refl 0, Nat.le_refl 0, id⟩
  | cons hnext _ ih => exact ⟨(ih hnext).names, h.definitions, h.free, id⟩

/-- What fits an earlier scope fits a later one. -/
theorem Grows.bounds_le {scope later : Scope} (h : scope.Grows later) :
    scope.bounds.Le later.bounds := by
  obtain ⟨htable, houter⟩ := List.forall₂_cons.mp h
  exact boundsIn_le htable houter

theorem ValidIn.bound (h : ValidIn table outer) :
    ∀ symbol ∈ table.bound, symbol.Fits (boundsIn table outer) := by
  cases outer with
  | nil => exact h.1
  | cons next rest => exact h.1

/-- The innermost table of a valid scope may grow if what it binds and captures still fits. -/
theorem ValidIn.of_table (h : ValidIn table outer) (hg : table.Grows later)
    (hb : ∀ symbol ∈ later.bound, symbol ∈ table.bound ∨ symbol.Fits (boundsIn later outer))
    (hf : later.free = table.free) : ValidIn later outer := by
  have hfits : ∀ symbol ∈ later.bound, symbol.Fits (boundsIn later outer) := by
    intro symbol hm
    rcases hb symbol hm with hold | hnew
    · exact (h.bound symbol hold).mono (boundsIn_le hg (List.forall₂_same.mpr fun t _ => .refl t))
    · exact hnew
  cases outer with
  | nil => exact ⟨hfits, trivial⟩
  | cons next rest =>
      refine ⟨hfits, ?_, h.2.2⟩
      rw [hf]
      exact h.2.1

/-- The tables around the innermost one of a valid scope may grow. -/
theorem ValidIn.of_outer {next next' : Table} {rest rest' : List Table}
    (h : ValidIn table (next :: rest)) (hg : List.Forall₂ Table.Grows (next :: rest) (next' :: rest'))
    (hv : ValidIn next' rest') : ValidIn table (next' :: rest') := by
  obtain ⟨hnext, hrest⟩ := List.forall₂_cons.mp hg
  refine ⟨fun symbol hm => (h.1 symbol hm).mono (boundsIn_le (.refl table) hg), ?_, hv⟩
  exact fun symbol hm => (h.2.1 symbol hm).mono (boundsIn_le hnext hrest)

/-- A symbol that is global or builtin fits in a function if it fits around it. -/
theorem fits_of_around {symbol : Symbol} {next : Table} {rest : List Table}
    (h : symbol.Fits (boundsIn next rest))
    (hp : symbol.place = .global ∨ symbol.place = .builtin) :
    symbol.Fits (boundsIn table (next :: rest)) := by
  unfold Symbol.Fits at h ⊢
  rcases hp with hp | hp
  · simpa only [hp, boundsIn, Bounds.within] using h
  · simpa only [hp] using h

/-- Capturing a symbol that fits around a table gives one that fits in it. -/
theorem ValidIn.capture {symbol : Symbol} {next : Table} {rest : List Table}
    (h : ValidIn table (next :: rest)) (hs : symbol.Fits (boundsIn next rest)) :
    ValidIn (table.capture symbol).2 (next :: rest) ∧ table.Grows (table.capture symbol).2 ∧
      (table.capture symbol).1.Fits (boundsIn (table.capture symbol).2 (next :: rest)) := by
  have hg : table.Grows (table.capture symbol).2 :=
    ⟨Nat.le_refl _, by simp [Table.capture]⟩
  have hnew : (table.capture symbol).1.Fits (boundsIn (table.capture symbol).2 (next :: rest)) := by
    simp [Symbol.Fits, Table.capture, boundsIn, Bounds.within]
  refine ⟨⟨?_, ?_, h.2.2⟩, hg, hnew⟩
  · intro other hm
    rcases List.mem_cons.mp hm with rfl | hm
    · exact hnew
    · exact (h.1 other hm).mono (boundsIn_le hg (List.forall₂_same.mpr fun t _ => .refl t))
  · intro other hm
    rcases List.mem_append.mp hm with hm | hm
    · exact h.2.1 other hm
    · obtain rfl : other = symbol := by simpa using hm
      exact hs

/-- Looking a name up keeps a scope valid, and finds a symbol that fits. -/
theorem resolveIn_fits (name : String) (h : ValidIn table outer) :
    ValidIn (resolveIn name table outer).2.table (resolveIn name table outer).2.outer ∧
      Grows ⟨table, outer⟩ (resolveIn name table outer).2 ∧
      ∀ symbol, (resolveIn name table outer).1.symbol? = some symbol →
        symbol.Fits (resolveIn name table outer).2.bounds := by
  induction outer generalizing table with
  | nil =>
      unfold resolveIn
      split
      case h_1 symbol hf =>
          refine ⟨h, .refl _, ?_⟩
          rintro _ ⟨⟩
          exact h.1 symbol (List.mem_of_find?_eq_some hf)
      case h_2 => exact ⟨h, .refl _, by simp [Resolution.symbol?]⟩
  | cons next rest ih =>
      unfold resolveIn
      split
      case h_1 symbol hf =>
          refine ⟨h, .refl _, ?_⟩
          rintro _ ⟨⟩
          exact h.1 symbol (List.mem_of_find?_eq_some hf)
      case h_2 =>
          dsimp only
          obtain ⟨hv, hg, hfits⟩ := ih h.2.2
          generalize resolveIn name next rest = found at hv hg hfits
          obtain ⟨resolution, ⟨next', rest'⟩⟩ := found
          have hv' : ValidIn table (next' :: rest') := h.of_outer hg hv
          have hg' : Grows ⟨table, next :: rest⟩ ⟨table, next' :: rest'⟩ := .cons (.refl table) hg
          split
          case h_1 hnone => exact ⟨hv', hg', by simp [Resolution.symbol?]⟩
          case h_2 symbol hsome =>
              have hs : symbol.Fits (boundsIn next' rest') := hfits symbol hsome
              have hcaptured := hv'.capture hs
              have hgc : Grows ⟨table, next :: rest⟩
                  ⟨(table.capture symbol).2, next' :: rest'⟩ := .cons hcaptured.2.1 hg
              split
              case h_1 hp =>
                  refine ⟨hv', hg', ?_⟩
                  rintro _ ⟨⟩
                  exact fits_of_around hs (.inl hp)
              case h_2 hp =>
                  refine ⟨hv', hg', ?_⟩
                  rintro _ ⟨⟩
                  exact fits_of_around hs (.inr hp)
              all_goals
                  refine ⟨hcaptured.1, hgc, ?_⟩
                  rintro _ ⟨⟩
                  exact hcaptured.2.2

/-- Finding a name keeps a scope valid, and gives a symbol that fits. -/
theorem find_fits {scope later : Scope} {name : String} {symbol : Symbol} (h : scope.Valid)
    (hf : scope.find name = .ok (symbol, later)) :
    later.Valid ∧ scope.Grows later ∧ symbol.Fits later.bounds := by
  obtain ⟨hv, hg, hfits⟩ := resolveIn_fits name h
  unfold find lookup resolve at hf
  generalize resolveIn name scope.table scope.outer = found at hv hg hfits hf
  obtain ⟨resolution, found⟩ := found
  cases hr : resolution.symbol? with
  | none => simp [hr] at hf
  | some symbol' =>
      obtain ⟨rfl, rfl⟩ : symbol' = symbol ∧ found = later := by simpa [hr] using hf
      exact ⟨hv, hg, hfits symbol' hr⟩

theorem findVariable_fits {scope later : Scope} {name : String} {symbol : Symbol} (h : scope.Valid)
    (hf : scope.findVariable name = .ok (symbol, later)) :
    later.Valid ∧ scope.Grows later ∧ symbol.Fits later.bounds ∧ symbol.IsVariable := by
  obtain ⟨⟨symbol', later'⟩, hfind, hf⟩ := Except.bind_eq_ok_iff.mp hf
  obtain ⟨hv, hg, hfits⟩ := find_fits h hfind
  cases hp : symbol'.place with
  | global =>
      obtain ⟨rfl, rfl⟩ : symbol' = symbol ∧ later' = later := by
        simpa [hp, pure, Except.pure] using hf
      exact ⟨hv, hg, hfits, .inl hp⟩
  | «local» =>
      obtain ⟨rfl, rfl⟩ : symbol' = symbol ∧ later' = later := by
        simpa [hp, pure, Except.pure] using hf
      exact ⟨hv, hg, hfits, .inr hp⟩
  | builtin => simp [hp] at hf
  | free => simp [hp] at hf
  | function => simp [hp] at hf

theorem definitionPlace_eq (scope : Scope) :
    scope.definitionPlace = .global ∨ scope.definitionPlace = .local := by
  unfold definitionPlace
  split
  case isTrue => exact .inl rfl
  case isFalse => exact .inr rfl

/-- A new slot for a name keeps a scope valid. -/
theorem define_fits {scope : Scope} (h : scope.Valid) (name : String) :
    (scope.define name).2.Valid ∧ scope.Grows (scope.define name).2 ∧
      (scope.define name).1.Fits (scope.define name).2.bounds ∧
      (scope.define name).1.IsVariable := by
  obtain ⟨table, outer⟩ := scope
  unfold define Table.define
  cases hf : (table.find? name).filter (·.place == definitionPlace ⟨table, outer⟩) with
  | some symbol =>
      obtain ⟨hfind, hp⟩ := Option.filter_eq_some_iff.mp hf
      obtain hp : symbol.place = definitionPlace ⟨table, outer⟩ := by simpa using hp
      refine ⟨h, .refl _, h.bound symbol (List.mem_of_find?_eq_some hfind), ?_⟩
      rw [Symbol.IsVariable, hp]
      exact definitionPlace_eq _
  | none =>
      have hg : table.Grows { table.bind ⟨name, definitionPlace ⟨table, outer⟩, table.definitions⟩
          with definitions := table.definitions + 1 } := ⟨Nat.le_succ _, Nat.le_refl _⟩
      have hnew : Symbol.Fits ⟨name, definitionPlace ⟨table, outer⟩, table.definitions⟩
          (boundsIn { table.bind ⟨name, definitionPlace ⟨table, outer⟩, table.definitions⟩
            with definitions := table.definitions + 1 } outer) := by
        cases outer with
        | nil => exact Nat.lt_succ_self _
        | cons next rest => exact Nat.lt_succ_self _
      refine ⟨ValidIn.of_table h hg ?_ rfl, .cons hg ?_, hnew, definitionPlace_eq _⟩
      · intro symbol hm
        rcases List.mem_cons.mp hm with rfl | hm
        · exact .inr hnew
        · exact .inl hm
      · exact List.forall₂_same.mpr fun next _ => .refl next

/-- The parameters of a function get slots in its own table. -/
theorem defineAll_fits {scope : Scope} (h : scope.Valid) (params : List String) :
    (params.foldl (fun scope param => (scope.define param).2) scope).Valid ∧
      (params.foldl (fun scope param => (scope.define param).2) scope).outer = scope.outer := by
  induction params generalizing scope with
  | nil => exact ⟨h, rfl⟩
  | cons param params ih => exact ih (define_fits h param).1

/-- The names of builtins are bound to symbols that fit everywhere. -/
theorem defineBuiltins_fits {scope : Scope} (h : scope.Valid) (builtins : List Builtin) :
    (builtins.foldl (fun scope builtin => (scope.defineBuiltin builtin.index builtin.name).2)
      scope).Valid ∧
    (builtins.foldl (fun scope builtin => (scope.defineBuiltin builtin.index builtin.name).2)
      scope).outer = scope.outer := by
  induction builtins generalizing scope with
  | nil => exact ⟨h, rfl⟩
  | cons builtin builtins ih =>
      refine ih (ValidIn.of_table h ⟨Nat.le_refl _, Nat.le_refl _⟩ ?_ rfl)
      intro symbol hm
      rcases List.mem_cons.mp hm with rfl | hm
      · exact .inr builtin.index_lt_length
      · exact .inl hm

/-- The body of a function starts in a valid scope. -/
theorem enterFunction_fits {scope : Scope} (h : scope.Valid) (name : Option String)
    (params : List String) :
    (scope.enterFunction name params).Valid ∧
      (scope.enterFunction name params).outer = scope.table :: scope.outer := by
  have hempty : scope.enter.Valid := ⟨List.forall_mem_nil _, List.forall_mem_nil _, h⟩
  cases name with
  | none => exact defineAll_fits hempty params
  | some name =>
      have hnamed : (scope.enter.defineFunctionName name).2.Valid := by
        refine ValidIn.of_table hempty ⟨Nat.le_refl _, Nat.le_refl _⟩ ?_ rfl
        intro symbol hm
        obtain rfl : symbol = ⟨name, .function, 0⟩ := List.mem_singleton.mp hm
        exact .inr rfl
      exact defineAll_fits hnamed params

/-- Leaving a function gives the scope around it, which has what the function captures. -/
theorem leave_fits {scope inner : Scope} {table : Table} (hv : inner.Valid)
    (hg : Grows ⟨table, scope.table :: scope.outer⟩ inner) :
    (inner.leave?.getD inner).Valid ∧ scope.Grows (inner.leave?.getD inner) ∧
      (∀ symbol ∈ inner.table.free, symbol.Fits (inner.leave?.getD inner).bounds) ∧
      inner.bounds = .within (inner.leave?.getD inner).bounds.names inner.table.definitions
        inner.table.free.length := by
  obtain ⟨table', outer'⟩ := inner
  obtain ⟨-, houter⟩ := List.forall₂_cons.mp hg
  cases outer' with
  | nil => cases houter
  | cons next rest => exact ⟨hv.2.2, houter, hv.2.1, rfl⟩

end Scope

/-- An expression that is resolved in a valid scope leaves a valid one, which it fits. -/
def Expr.ResolvesFit (expr : Expr) : Prop :=
  ∀ (scope later : Scope) (core : Core.Expr), scope.Valid →
    expr.resolve scope = .ok (core, later) →
      later.Valid ∧ scope.Grows later ∧ core.Fits later.bounds

/-- A statement that is resolved in a valid scope leaves a valid one, which it fits. -/
def Stmt.ResolvesFit (stmt : Stmt) : Prop :=
  ∀ (scope later : Scope) (core : Core.Stmt), scope.Valid →
    stmt.resolve scope = .ok (core, later) →
      later.Valid ∧ scope.Grows later ∧ core.Fits later.bounds

theorem Expr.resolveAll_fits {exprs : List Expr} (he : ∀ expr ∈ exprs, expr.ResolvesFit)
    {scope later : Scope} {cores : List Core.Expr} (hv : scope.Valid)
    (h : Expr.resolveAll exprs scope = .ok (cores, later)) :
    later.Valid ∧ scope.Grows later ∧ Core.Expr.AllFit cores later.bounds := by
  induction exprs generalizing scope cores with
  | nil =>
      obtain ⟨rfl, rfl⟩ := Prod.mk.inj (Except.ok.inj h)
      exact ⟨hv, .refl _, trivial⟩
  | cons expr exprs ih =>
      rw [List.forall_mem_cons] at he
      obtain ⟨⟨core, middle⟩, hexpr, h⟩ := Except.bind_eq_ok_iff.mp h
      obtain ⟨⟨cores', last⟩, hrest, h⟩ := Except.bind_eq_ok_iff.mp h
      obtain ⟨rfl, rfl⟩ := Prod.mk.inj (Except.ok.inj h)
      obtain ⟨hv', hg, hfits⟩ := he.1 scope middle core hv hexpr
      obtain ⟨hv'', hg', hfits'⟩ := ih he.2 hv' hrest
      exact ⟨hv'', hg.trans hg', hfits.mono hg'.bounds_le, hfits'⟩

theorem Stmt.resolveAll_fits {stmts : List Stmt} (hs : ∀ stmt ∈ stmts, stmt.ResolvesFit)
    {scope later : Scope} {cores : List Core.Stmt} (hv : scope.Valid)
    (h : Stmt.resolveAll stmts scope = .ok (cores, later)) :
    later.Valid ∧ scope.Grows later ∧ ∀ core ∈ cores, core.Fits later.bounds := by
  induction stmts generalizing scope cores with
  | nil =>
      obtain ⟨rfl, rfl⟩ := Prod.mk.inj (Except.ok.inj h)
      exact ⟨hv, .refl _, List.forall_mem_nil _⟩
  | cons stmt stmts ih =>
      rw [List.forall_mem_cons] at hs
      obtain ⟨⟨core, middle⟩, hstmt, h⟩ := Except.bind_eq_ok_iff.mp h
      obtain ⟨⟨cores', last⟩, hrest, h⟩ := Except.bind_eq_ok_iff.mp h
      obtain ⟨rfl, rfl⟩ := Prod.mk.inj (Except.ok.inj h)
      obtain ⟨hv', hg, hfits⟩ := hs.1 scope middle core hv hstmt
      obtain ⟨hv'', hg', hfits'⟩ := ih hs.2 hv' hrest
      exact ⟨hv'', hg.trans hg',
        List.forall_mem_cons.mpr ⟨hfits.mono hg'.bounds_le, hfits'⟩⟩

theorem Stmt.resolveAlternative_fits {alternative : Option (List Stmt)}
    (hs : ∀ block ∈ alternative, ∀ stmt ∈ block, stmt.ResolvesFit) {scope later : Scope}
    {cores : List Core.Stmt} (hv : scope.Valid)
    (h : Stmt.resolveAlternative alternative scope = .ok (cores, later)) :
    later.Valid ∧ scope.Grows later ∧ ∀ core ∈ cores, core.Fits later.bounds := by
  cases alternative with
  | none =>
      obtain ⟨rfl, rfl⟩ := Prod.mk.inj (Except.ok.inj h)
      exact ⟨hv, .refl _, List.forall_mem_nil _⟩
  | some block => exact Stmt.resolveAll_fits (hs block rfl) hv h

theorem Expr.inTurn_fits {pairs : List (Expr × Expr)}
    (hp : ∀ pair ∈ pairs, pair.1.ResolvesFit ∧ pair.2.ResolvesFit) {scope later : Scope}
    {cores : List Core.Expr} (hv : scope.Valid)
    (h : Scope.inTurn (pairs.map Expr.resolvePair) scope = .ok (cores, later)) :
    later.Valid ∧ scope.Grows later ∧ Core.Expr.AllFit cores later.bounds := by
  induction pairs generalizing scope cores with
  | nil =>
      obtain ⟨rfl, rfl⟩ := Prod.mk.inj (Except.ok.inj h)
      exact ⟨hv, .refl _, trivial⟩
  | cons pair pairs ih =>
      rw [List.forall_mem_cons] at hp
      obtain ⟨⟨operands, second⟩, hpair, hstep⟩ := Except.bind_eq_ok_iff.mp h
      obtain ⟨⟨cores', last⟩, hrest, hend⟩ := Except.bind_eq_ok_iff.mp hstep
      obtain ⟨⟨key, first⟩, hkey, hinner⟩ := Except.bind_eq_ok_iff.mp hpair
      obtain ⟨⟨value, second'⟩, hvalue, hoperands⟩ := Except.bind_eq_ok_iff.mp hinner
      obtain ⟨rfl, rfl⟩ := Prod.mk.inj (Except.ok.inj hoperands)
      obtain ⟨rfl, rfl⟩ := Prod.mk.inj (Except.ok.inj hend)
      obtain ⟨hv', hg, hfits⟩ := hp.1.1 scope first key hv hkey
      obtain ⟨hv'', hg', hfits'⟩ := hp.1.2 first second' value hv' hvalue
      obtain ⟨hlast, hg'', hfits''⟩ := ih hp.2 hv'' hrest
      exact ⟨hlast, (hg.trans hg').trans hg'', hfits.mono (hg'.trans hg'').bounds_le,
        hfits'.mono hg''.bounds_le, hfits''⟩

namespace Expr.ResolvesFit

theorem name (id : String) : (Expr.name id).ResolvesFit := by
  intro scope later core hv h
  obtain ⟨⟨symbol, found⟩, hfind, h⟩ := Except.bind_eq_ok_iff.mp h
  obtain ⟨rfl, rfl⟩ := Prod.mk.inj (Except.ok.inj h)
  exact Scope.find_fits hv hfind

theorem unary (op : UnaryOp) {argument : Expr} (ha : argument.ResolvesFit) :
    (Expr.unary op argument).ResolvesFit := by
  intro scope later core hv h
  cases op with
  | plus => simp [Expr.resolve] at h
  | minus =>
      obtain ⟨⟨core', found⟩, hargument, h⟩ := Except.bind_eq_ok_iff.mp h
      obtain ⟨rfl, rfl⟩ := Prod.mk.inj (Except.ok.inj h)
      exact ha scope found core' hv hargument
  | not =>
      obtain ⟨⟨core', found⟩, hargument, h⟩ := Except.bind_eq_ok_iff.mp h
      obtain ⟨rfl, rfl⟩ := Prod.mk.inj (Except.ok.inj h)
      exact ha scope found core' hv hargument

/-- Two operands one after the other. -/
theorem two {left right : Expr} (hl : left.ResolvesFit) (hr : right.ResolvesFit) (op : Core.Binary)
    {scope later : Scope} {core : Core.Expr} (hv : scope.Valid)
    (h : (do
      let (left, scope) ← left.resolve scope
      let (right, scope) ← right.resolve scope
      return (Core.Expr.binary op left right, scope)) = .ok (core, later)) :
    later.Valid ∧ scope.Grows later ∧ core.Fits later.bounds := by
  obtain ⟨⟨first, middle⟩, hleft, h⟩ := Except.bind_eq_ok_iff.mp h
  obtain ⟨⟨second, last⟩, hright, h⟩ := Except.bind_eq_ok_iff.mp h
  obtain ⟨rfl, rfl⟩ := Prod.mk.inj (Except.ok.inj h)
  obtain ⟨hv', hg, hfits⟩ := hl scope middle first hv hleft
  obtain ⟨hv'', hg', hfits'⟩ := hr middle last second hv' hright
  exact ⟨hv'', hg.trans hg', hfits.mono hg'.bounds_le, hfits'⟩

theorem binary (op : BinaryOp) {left right : Expr} (hl : left.ResolvesFit)
    (hr : right.ResolvesFit) : (Expr.binary op left right).ResolvesFit := by
  intro scope later core hv h
  cases op with
  | less => exact two hr hl (.comparison .greater) hv h
  | add => exact two hl hr (.arithmetic .add) hv h
  | subtract => exact two hl hr (.arithmetic .subtract) hv h
  | multiply => exact two hl hr (.arithmetic .multiply) hv h
  | divide => exact two hl hr (.arithmetic .divide) hv h
  | greater => exact two hl hr (.comparison .greater) hv h
  | equal => exact two hl hr (.comparison .equal) hv h
  | notEqual => exact two hl hr (.comparison .notEqual) hv h

theorem condition {test : Expr} {consequent : List Stmt} {alternative : Option (List Stmt)}
    (ht : test.ResolvesFit) (hc : ∀ stmt ∈ consequent, stmt.ResolvesFit)
    (ha : ∀ block ∈ alternative, ∀ stmt ∈ block, stmt.ResolvesFit) :
    (Expr.condition test consequent alternative).ResolvesFit := by
  intro scope later core hv h
  obtain ⟨⟨test', first⟩, htest, h⟩ := Except.bind_eq_ok_iff.mp h
  obtain ⟨⟨stmts, second⟩, hconsequent, h⟩ := Except.bind_eq_ok_iff.mp h
  obtain ⟨⟨stmts', third⟩, halternative, h⟩ := Except.bind_eq_ok_iff.mp h
  obtain ⟨rfl, rfl⟩ := Prod.mk.inj (Except.ok.inj h)
  obtain ⟨hv', hg, hfits⟩ := ht scope first test' hv htest
  obtain ⟨hv'', hg', hfits'⟩ := Stmt.resolveAll_fits hc hv' hconsequent
  obtain ⟨hlast, hg'', hfits''⟩ := Stmt.resolveAlternative_fits ha hv'' halternative
  exact ⟨hlast, (hg.trans hg').trans hg'', hfits.mono (hg'.trans hg'').bounds_le,
    (Core.Block.fits_ofStmts hfits').mono hg''.bounds_le, Core.Block.fits_ofStmts hfits''⟩

theorem function (name : Option String) (params : List String) {body : List Stmt}
    (hb : ∀ stmt ∈ body, stmt.ResolvesFit) : (Expr.function name params body).ResolvesFit := by
  intro scope later core hv h
  obtain ⟨⟨stmts, inner⟩, hbody, h⟩ := Except.bind_eq_ok_iff.mp h
  obtain ⟨rfl, rfl⟩ := Prod.mk.inj (Except.ok.inj h)
  obtain ⟨hv', houter⟩ := Scope.enterFunction_fits hv name params
  obtain ⟨hv'', hg, hfits⟩ := Stmt.resolveAll_fits hb hv' hbody
  have hg' : Scope.Grows ⟨(scope.enterFunction name params).table, scope.table :: scope.outer⟩
      inner := by
    rw [← houter]
    exact hg
  obtain ⟨hleft, hgrows, hfree, hbounds⟩ := Scope.leave_fits hv'' hg'
  rw [hbounds] at hfits
  exact ⟨hleft, hgrows, hfree, Core.Block.fits_ofStmts hfits⟩

theorem call {callee : Expr} {arguments : List Expr} (hc : callee.ResolvesFit)
    (ha : ∀ expr ∈ arguments, expr.ResolvesFit) : (Expr.call callee arguments).ResolvesFit := by
  intro scope later core hv h
  obtain ⟨⟨callee', first⟩, hcallee, h⟩ := Except.bind_eq_ok_iff.mp h
  obtain ⟨⟨cores, second⟩, harguments, h⟩ := Except.bind_eq_ok_iff.mp h
  obtain ⟨rfl, rfl⟩ := Prod.mk.inj (Except.ok.inj h)
  obtain ⟨hv', hg, hfits⟩ := hc scope first callee' hv hcallee
  obtain ⟨hv'', hg', hfits'⟩ := Expr.resolveAll_fits ha hv' harguments
  exact ⟨hv'', hg.trans hg', hfits.mono hg'.bounds_le, hfits'⟩

theorem array {elements : List Expr} (he : ∀ expr ∈ elements, expr.ResolvesFit) :
    (Expr.array elements).ResolvesFit := by
  intro scope later core hv h
  obtain ⟨⟨cores, found⟩, helements, h⟩ := Except.bind_eq_ok_iff.mp h
  obtain ⟨rfl, rfl⟩ := Prod.mk.inj (Except.ok.inj h)
  exact Expr.resolveAll_fits he hv helements

theorem hash {pairs : List (Expr × Expr)}
    (hp : ∀ pair ∈ pairs, pair.1.ResolvesFit ∧ pair.2.ResolvesFit) :
    (Expr.hash pairs).ResolvesFit := by
  intro scope later core hv h
  rw [Expr.resolve] at h
  split at h
  case h_1 => simp at h
  case h_2 =>
      obtain ⟨⟨cores, found⟩, hturn, h⟩ := Except.bind_eq_ok_iff.mp h
      obtain ⟨rfl, rfl⟩ := Prod.mk.inj (Except.ok.inj h)
      have hsorted : ∀ pair ∈ pairs.mergeSort fun a b => textLe a.1.render b.1.render,
          pair.1.ResolvesFit ∧ pair.2.ResolvesFit := fun pair hm => hp pair (List.mem_mergeSort.mp hm)
      rw [Expr.resolvePairs_eq_map, Expr.mergeSort_steps, List.map_map] at hturn
      exact Expr.inTurn_fits hsorted hv hturn

theorem index {object position : Expr} (ho : object.ResolvesFit) (hp : position.ResolvesFit) :
    (Expr.index object position).ResolvesFit := by
  intro scope later core hv h
  exact two ho hp .element hv h

end Expr.ResolvesFit

namespace Stmt.ResolvesFit

theorem expr {value : Expr} (hv : value.ResolvesFit) : (Stmt.expr value).ResolvesFit := by
  intro scope later core hvalid h
  obtain ⟨⟨value', found⟩, hvalue, h⟩ := Except.bind_eq_ok_iff.mp h
  obtain ⟨rfl, rfl⟩ := Prod.mk.inj (Except.ok.inj h)
  exact hv scope found value' hvalid hvalue

theorem binding (name : String) {value : Expr} (hv : value.ResolvesFit) :
    (Stmt.binding name value).ResolvesFit := by
  intro scope later core hvalid h
  obtain ⟨⟨value', found⟩, hvalue, h⟩ := Except.bind_eq_ok_iff.mp h
  obtain ⟨rfl, rfl⟩ := Prod.mk.inj (Except.ok.inj h)
  obtain ⟨hvalid', hg, hfits⟩ := hv scope found value' hvalid hvalue
  obtain ⟨hvalid'', hg', hsymbol, hvariable⟩ := Scope.define_fits hvalid' name
  exact ⟨hvalid'', hg.trans hg', hvariable, hsymbol, hfits.mono hg'.bounds_le⟩

theorem assign (name : String) {value : Expr} (hv : value.ResolvesFit) :
    (Stmt.assign name value).ResolvesFit := by
  intro scope later core hvalid h
  obtain ⟨⟨value', found⟩, hvalue, h⟩ := Except.bind_eq_ok_iff.mp h
  obtain ⟨⟨symbol, last⟩, hsymbol, h⟩ := Except.bind_eq_ok_iff.mp h
  obtain ⟨rfl, rfl⟩ := Prod.mk.inj (Except.ok.inj h)
  obtain ⟨hvalid', hg, hfits⟩ := hv scope found value' hvalid hvalue
  obtain ⟨hvalid'', hg', hsymbol, hvariable⟩ := Scope.findVariable_fits hvalid' hsymbol
  exact ⟨hvalid'', hg.trans hg', hvariable, hsymbol, hfits.mono hg'.bounds_le⟩

theorem result {value : Option Expr} (hv : ∀ expr ∈ value, expr.ResolvesFit) :
    (Stmt.result value).ResolvesFit := by
  intro scope later core hvalid h
  cases value with
  | none =>
      obtain ⟨rfl, rfl⟩ := Prod.mk.inj (Except.ok.inj h)
      exact ⟨hvalid, .refl _, trivial⟩
  | some value =>
      obtain ⟨⟨value', found⟩, hvalue, h⟩ := Except.bind_eq_ok_iff.mp h
      obtain ⟨rfl, rfl⟩ := Prod.mk.inj (Except.ok.inj h)
      exact hv value rfl scope found value' hvalid hvalue

end Stmt.ResolvesFit

/-- A literal leaves the scope as it is. -/
theorem Expr.resolvesFit_of_literal {expr : Expr} {literal : Core.Expr}
    (hr : ∀ scope, expr.resolve scope = .ok (literal, scope))
    (hf : ∀ bounds, literal.Fits bounds) : expr.ResolvesFit := by
  intro scope later core hv h
  obtain ⟨rfl, rfl⟩ := Prod.mk.inj (Except.ok.inj ((hr scope).symm.trans h))
  exact ⟨hv, .refl _, hf _⟩

/-- Whole expressions and statements fit as their parts do. -/
theorem compositional_resolvesFit : Compositional Expr.ResolvesFit Stmt.ResolvesFit where
  name := .name
  integer _ := Expr.resolvesFit_of_literal (fun _ => rfl) (fun _ => trivial)
  text _ := Expr.resolvesFit_of_literal (fun _ => rfl) (fun _ => trivial)
  boolean _ := Expr.resolvesFit_of_literal (fun _ => rfl) (fun _ => trivial)
  unary op _ := .unary op
  binary op _ _ := .binary op
  condition _ _ _ := .condition
  function name params _ := .function name params
  call _ _ := .call
  array _ := .array
  hash _ := .hash
  index _ _ := .index
  binding name _ := .binding name
  assign name _ := .assign name
  returnValue _ hv := .result (by simpa using hv)
  returnNull := .result (by simp)
  expr _ := .expr

/-- A program that is resolved in a valid scope leaves a valid one, which it fits. -/
theorem Program.resolve_fits {program : Program} {scope later : Scope} {stmts : List Core.Stmt}
    (hv : scope.Valid) (h : Stmt.resolveAll program scope = .ok (stmts, later)) :
    later.Valid ∧ scope.Grows later ∧ ∀ stmt ∈ stmts, stmt.Fits later.bounds :=
  Stmt.resolveAll_fits (compositional_resolvesFit.statements program) hv h

end StackScript
