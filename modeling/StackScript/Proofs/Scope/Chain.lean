import Mathlib.Data.List.Forall2
import Mathlib.Data.List.Nodup
import StackScript.Proofs.Core.Fit

/-!
# Chains of tables

Whatever is bound, looked up, entered and left, the tables of a scope stay in order. The variables of
a table have slots of their own below its number of definitions, a name is captured once, and what a
table captures is what the table around it binds to that name.

Looking a name up is decided by the innermost table that binds it. Only the tables inside of that one
can change, and each of them by one capture, so that looking the name up once more gives the same
symbol and changes nothing.
-/

namespace StackScript

namespace Symbol

/-- The symbol stands for something that a function inside has to capture. -/
def IsCaptured (symbol : Symbol) : Prop :=
  symbol.place = .local ∨ symbol.place = .free ∨ symbol.place = .function

/-- The symbol stands for the same thing in every function. -/
def IsShared (symbol : Symbol) : Prop :=
  symbol.place = .global ∨ symbol.place = .builtin

theorem IsCaptured.not_isShared {symbol : Symbol} (h : symbol.IsCaptured) : ¬ symbol.IsShared := by
  unfold IsShared
  rcases h with h | h | h <;> simp [h]

end Symbol

/-! ## One table -/

namespace Table

/-- The table binds the name of the symbol to the symbol. -/
def Binds (table : Table) (symbol : Symbol) : Prop :=
  table.find? symbol.name = some symbol

/-- Variables have slots of their own, a name is captured at most once and stays bound, and a free
symbol is the number of the capture of its name. -/
structure Orderly (table : Table) : Prop where
  below : ∀ symbol, table.Binds symbol → symbol.IsVariable → symbol.index < table.definitions
  distinct : ∀ symbol other, table.Binds symbol → table.Binds other → symbol.IsVariable →
    other.IsVariable → symbol.index = other.index → symbol = other
  once : (table.free.map Symbol.name).Nodup
  kept : ∀ original ∈ table.free, table.find? original.name ≠ none
  numbered : ∀ symbol, table.Binds symbol → symbol.place = .free →
    ∃ original, table.free[symbol.index]? = some original ∧ original.name = symbol.name

/-- The later table has captured a name once more, and is otherwise the same. -/
def Captures (name : String) (table later : Table) : Prop :=
  ∃ original : Symbol, original.name = name ∧ later = (table.capture original).2

variable {table : Table}

theorem name_of_find? {name : String} {symbol : Symbol} (h : table.find? name = some symbol) :
    symbol.name = name := by
  simpa using List.find?_some h

theorem binds_of_find? {name : String} {symbol : Symbol} (h : table.find? name = some symbol) :
    table.Binds symbol := by
  rw [Binds, name_of_find? h, h]

theorem binds_bind {symbol other : Symbol} :
    (table.bind symbol).Binds other ↔
      other = symbol ∨ (other.name ≠ symbol.name ∧ table.Binds other) := by
  unfold Binds
  rw [find?_bind]
  by_cases hname : symbol.name = other.name
  · simp [hname, eq_comm]
  · have hne : other ≠ symbol := fun heq => hname (heq ▸ rfl)
    simp [hname, Ne.symm hname, hne]

/-- Binding a name leaves every name bound that is. -/
theorem find?_bind_ne_none {symbol : Symbol} {name : String} (h : table.find? name ≠ none) :
    (table.bind symbol).find? name ≠ none := by
  rw [find?_bind]
  split
  case isTrue => exact Option.some_ne_none symbol
  case isFalse => exact h

theorem orderly_empty : ({} : Table).Orderly where
  below := nofun
  distinct := nofun
  once := List.nodup_nil
  kept := nofun
  numbered := nofun

/-- A name may be bound to what is in no slot of the table. -/
theorem Orderly.bind (h : table.Orderly) {symbol : Symbol}
    (hp : symbol.place = .builtin ∨ symbol.place = .function) : (table.bind symbol).Orderly := by
  have hvariable : ¬ symbol.IsVariable := by
    rcases hp with hp | hp <;> simp [Symbol.IsVariable, hp]
  have hfree : symbol.place ≠ .free := by
    rcases hp with hp | hp <;> simp [hp]
  constructor
  · intro other hbinds hother
    obtain rfl | ⟨-, hold⟩ := binds_bind.mp hbinds
    · exact absurd hother hvariable
    · exact h.below other hold hother
  · intro first second hbinds hbinds' hfirst hsecond
    obtain rfl | ⟨-, hold⟩ := binds_bind.mp hbinds
    · exact absurd hfirst hvariable
    obtain rfl | ⟨-, hold'⟩ := binds_bind.mp hbinds'
    · exact absurd hsecond hvariable
    exact h.distinct first second hold hold' hfirst hsecond
  · exact h.once
  · exact fun original hm => find?_bind_ne_none (h.kept original hm)
  · intro other hbinds hother
    obtain rfl | ⟨-, hold⟩ := binds_bind.mp hbinds
    · exact absurd hother hfree
    · exact h.numbered other hold hother

/-- Giving a name a slot leaves the table as it is if the name has one, and otherwise takes the next
slot. -/
theorem define_cases (table : Table) (place : Symbol.Place) (name : String) :
    (∃ symbol, table.find? name = some symbol ∧ symbol.place = place ∧
      table.define place name = (symbol, table)) ∨
    ((∀ symbol, table.find? name = some symbol → symbol.place ≠ place) ∧
      table.define place name = (⟨name, place, table.definitions⟩,
        { table.bind ⟨name, place, table.definitions⟩ with
          definitions := table.definitions + 1 })) := by
  unfold define
  cases hfind : table.find? name with
  | none => exact .inr ⟨nofun, rfl⟩
  | some symbol =>
      by_cases hplace : symbol.place = place
      · exact .inl ⟨symbol, rfl, hplace, by simp [Option.filter, hplace]⟩
      · refine .inr ⟨?_, by simp [Option.filter, hplace]⟩
        rintro _ ⟨⟩
        exact hplace

/-- A new slot is behind those of the other variables. -/
theorem Orderly.define (h : table.Orderly) {place : Symbol.Place}
    (hp : place = .global ∨ place = .local) (name : String) :
    (table.define place name).2.Orderly := by
  obtain ⟨symbol, -, -, heq⟩ | ⟨-, heq⟩ := table.define_cases place name
  · rwa [heq]
  rw [heq]
  -- The bindings are those of the bound table: only the number of definitions is another one.
  have hcases : ∀ other, Binds { table.bind ⟨name, place, table.definitions⟩ with
        definitions := table.definitions + 1 } other → other.IsVariable →
      other = ⟨name, place, table.definitions⟩ ∨
        (table.Binds other ∧ other.index < table.definitions) := by
    intro other hbinds hother
    obtain rfl | ⟨-, hold⟩ := binds_bind.mp hbinds
    · exact .inl rfl
    · exact .inr ⟨hold, h.below other hold hother⟩
  constructor
  · intro other hbinds hother
    obtain rfl | ⟨-, hlt⟩ := hcases other hbinds hother
    · exact Nat.lt_succ_self _
    · exact Nat.lt_succ_of_lt hlt
  · intro first second hbinds hbinds' hfirst hsecond hsame
    obtain rfl | ⟨hold, hlt⟩ := hcases first hbinds hfirst
    · obtain rfl | ⟨-, hlt'⟩ := hcases second hbinds' hsecond
      · rfl
      · exact absurd hsame.symm (Nat.ne_of_lt hlt')
    · obtain rfl | ⟨hold', -⟩ := hcases second hbinds' hsecond
      · exact absurd hsame (Nat.ne_of_lt hlt)
      · exact h.distinct first second hold hold' hfirst hsecond hsame
  · exact h.once
  · exact fun original hm => find?_bind_ne_none (h.kept original hm)
  · intro other hbinds hother
    obtain rfl | ⟨-, hold⟩ := binds_bind.mp hbinds
    · rcases hp with rfl | rfl <;> cases hother
    · exact h.numbered other hold hother

/-- A name that is not bound may be captured. -/
theorem Orderly.capture (h : table.Orderly) {original : Symbol}
    (hn : table.find? original.name = none) : (table.capture original).2.Orderly := by
  have hvariable : ¬ Symbol.IsVariable ⟨original.name, .free, table.free.length⟩ := by
    simp [Symbol.IsVariable]
  constructor
  · intro other hbinds hother
    obtain rfl | ⟨-, hold⟩ := binds_bind.mp hbinds
    · exact absurd hother hvariable
    · exact h.below other hold hother
  · intro first second hbinds hbinds' hfirst hsecond
    obtain rfl | ⟨-, hold⟩ := binds_bind.mp hbinds
    · exact absurd hfirst hvariable
    obtain rfl | ⟨-, hold'⟩ := binds_bind.mp hbinds'
    · exact absurd hsecond hvariable
    exact h.distinct first second hold hold' hfirst hsecond
  · have hnew : original.name ∉ table.free.map Symbol.name := by
      rw [List.mem_map]
      rintro ⟨other, hm, hname⟩
      exact h.kept other hm (hname ▸ hn)
    simpa [Table.capture] using h.once.concat hnew
  · intro other hm
    rcases List.mem_append.mp hm with hm | hm
    · exact find?_bind_ne_none (h.kept other hm)
    · obtain rfl := List.mem_singleton.mp hm
      simp [Table.capture, Table.find?, Table.bind]
  · intro other hbinds hother
    obtain rfl | ⟨-, hold⟩ := binds_bind.mp hbinds
    · exact ⟨original, by simp [Table.capture], rfl⟩
    · obtain ⟨found, hfound, hname⟩ := h.numbered other hold hother
      obtain ⟨hlt, -⟩ := List.getElem?_eq_some_iff.mp hfound
      exact ⟨found, by simpa [Table.capture, List.getElem?_append_left hlt] using hfound, hname⟩

/-- What is bound stays bound when a name is captured that is not. -/
theorem Binds.capture {symbol original : Symbol} (h : table.Binds symbol)
    (hn : table.find? original.name = none) : (table.capture original).2.Binds symbol := by
  refine binds_bind.mpr (.inr ⟨?_, h⟩)
  intro hname
  rw [Binds, hname, hn] at h
  cases h

end Table

/-! ## Tables around tables -/

namespace Scope

/-- The tables of a scope, the innermost first. -/
def tables (scope : Scope) : List Table :=
  scope.table :: scope.outer

/-- Every table is in order. It captures only what the table around it binds to that name and has to
be captured, and the outermost one captures nothing. -/
def Chained : List Table → Prop
  | [] => True
  | [table] => table.Orderly ∧ table.free = []
  | table :: next :: rest =>
    table.Orderly ∧ (∀ original ∈ table.free, next.Binds original ∧ original.IsCaptured) ∧
      Chained (next :: rest)

/-- What looking a name up in tables gives, and the tables that it leaves. -/
inductive LooksUp (name : String) (tables : List Table) : Resolution → List Table → Prop where
  | notFound (unbound : ∀ table ∈ tables, table.find? name = none) :
    LooksUp name tables .notFound tables
  | found (inner : List Table) {around : List Table} {table : Table} {symbol : Symbol}
    (split : tables = inner ++ table :: around)
    (unbound : ∀ table ∈ inner, table.find? name = none)
    (bound : table.find? name = some symbol) (here : inner = [] ∨ symbol.IsShared) :
    LooksUp name tables (.found symbol) tables
  | captured (inner : List Table) {later around : List Table} {table : Table} {symbol : Symbol}
    (split : tables = inner ++ table :: around)
    (unbound : ∀ table ∈ inner, table.find? name = none)
    (bound : table.find? name = some symbol) (inside : inner ≠ []) (place : symbol.IsCaptured)
    (captures : List.Forall₂ (Table.Captures name) inner later) {number : Nat}
    (last : (inner.head inside).free.length = number) :
    LooksUp name tables (.captured ⟨name, .free, number⟩) (later ++ table :: around)

variable {table : Table} {around : List Table} {name : String}

theorem Chained.orderly (h : Chained (table :: around)) : table.Orderly := by
  cases around with
  | nil => exact h.1
  | cons next rest => exact h.1

theorem Chained.tail (h : Chained (table :: around)) : Chained around := by
  cases around with
  | nil => trivial
  | cons next rest => exact h.2.2

/-- The innermost table may be replaced by one that captures the same. -/
theorem Chained.of_free_eq {later : Table} (h : Chained (table :: around)) (hl : later.Orderly)
    (hf : later.free = table.free) : Chained (later :: around) := by
  cases around with
  | nil => exact ⟨hl, hf.trans h.2⟩
  | cons next rest => exact ⟨hl, hf ▸ h.2.1, h.2.2⟩

theorem Chained.enter (h : Chained around) : Chained ({} :: around) := by
  cases around with
  | nil => exact ⟨Table.orderly_empty, rfl⟩
  | cons next rest => exact ⟨Table.orderly_empty, List.forall_mem_nil _, h⟩

theorem Chained.define {scope : Scope} (h : Chained scope.tables) (name : String) :
    Chained (scope.define name).2.tables := by
  have hplace : scope.definitionPlace = .global ∨ scope.definitionPlace = .local := by
    unfold definitionPlace
    split <;> simp
  have hfree : (scope.table.define scope.definitionPlace name).2.free = scope.table.free := by
    obtain ⟨symbol, -, -, heq⟩ | ⟨-, heq⟩ := scope.table.define_cases scope.definitionPlace name
    · rw [heq]
    · rw [heq]
      rfl
  exact Chained.of_free_eq h (h.orderly.define hplace name) hfree

/-- The tables around the innermost one may capture more. -/
theorem Chained.of_around {next next' : Table} {rest rest' : List Table}
    (h : Chained (table :: next :: rest)) (hn : ∀ symbol, next.Binds symbol → next'.Binds symbol)
    (hr : Chained (next' :: rest')) : Chained (table :: next' :: rest') :=
  ⟨h.1, fun original hm => ⟨hn original (h.2.1 original hm).1, (h.2.1 original hm).2⟩, hr⟩

/-- A table may capture what the table around it binds. -/
theorem Chained.capture {next : Table} {rest : List Table} {original : Symbol}
    (h : Chained (table :: next :: rest)) (hn : table.find? original.name = none)
    (hb : next.Binds original) (hp : original.IsCaptured) :
    Chained ((table.capture original).2 :: next :: rest) := by
  refine ⟨h.1.capture hn, ?_, h.2.2⟩
  intro other hm
  rcases List.mem_append.mp hm with hm | hm
  · exact h.2.1 other hm
  · obtain rfl := List.mem_singleton.mp hm
    exact ⟨hb, hp⟩

/-- Looking a name up where the innermost table does not bind it. -/
theorem resolveIn_of_unbound (next : Table) (rest : List Table) (h : table.find? name = none) :
    ∃ resolution enclosing, resolveIn name next rest = (resolution, enclosing) ∧
      ((resolution = .notFound ∧
          resolveIn name table (next :: rest) = (.notFound, ⟨table, enclosing.tables⟩)) ∨
        ∃ symbol, resolution.symbol? = some symbol ∧
          ((symbol.IsShared ∧
              resolveIn name table (next :: rest) = (.found symbol, ⟨table, enclosing.tables⟩)) ∨
            (symbol.IsCaptured ∧
              resolveIn name table (next :: rest) =
                (.captured (table.capture symbol).1,
                  ⟨(table.capture symbol).2, enclosing.tables⟩)))) := by
  refine ⟨_, _, rfl, ?_⟩
  rw [resolveIn, h]
  dsimp only
  generalize resolveIn name next rest = found
  obtain ⟨resolution, enclosing⟩ := found
  have hnone : resolution.symbol? = none → resolution = .notFound := by
    cases resolution <;> simp [Resolution.symbol?]
  cases hsymbol : resolution.symbol? with
  | none => exact .inl ⟨hnone hsymbol, rfl⟩
  | some symbol =>
      refine .inr ⟨symbol, rfl, ?_⟩
      obtain ⟨id, place, index⟩ := symbol
      cases place with
      | global => exact .inl ⟨.inl rfl, rfl⟩
      | builtin => exact .inl ⟨.inr rfl, rfl⟩
      | «local» => exact .inr ⟨.inl rfl, rfl⟩
      | free => exact .inr ⟨.inr (.inl rfl), rfl⟩
      | function => exact .inr ⟨.inr (.inr rfl), rfl⟩

theorem resolveIn_of_bound {symbol : Symbol} (h : table.find? name = some symbol) :
    resolveIn name table around = (.found symbol, ⟨table, around⟩) := by
  cases around with
  | nil => rw [resolveIn, h]
  | cons next rest => rw [resolveIn, h]

variable {tables later : List Table} {resolution : Resolution} {symbol : Symbol}

theorem LooksUp.notFound_cons (h : LooksUp name tables .notFound later)
    (hn : table.find? name = none) : LooksUp name (table :: tables) .notFound (table :: later) := by
  cases h with
  | notFound unbound => exact .notFound (List.forall_mem_cons.mpr ⟨hn, unbound⟩)

/-- A shared symbol is found from further inside too. -/
theorem LooksUp.found_cons (h : LooksUp name tables resolution later)
    (hs : resolution.symbol? = some symbol) (hp : symbol.IsShared)
    (hn : table.find? name = none) :
    LooksUp name (table :: tables) (.found symbol) (table :: later) := by
  cases h with
  | notFound unbound => cases hs
  | @found inner around _ _ split unbound bound here =>
      cases hs
      exact .found (table :: inner) (congrArg (table :: ·) split)
        (List.forall_mem_cons.mpr ⟨hn, unbound⟩) bound (.inr hp)
  | captured inner split unbound bound inside place captures last =>
      cases hs
      simp [Symbol.IsShared] at hp

/-- A symbol that is not shared is captured from further inside. -/
theorem LooksUp.captured_cons (h : LooksUp name tables resolution later)
    (hs : resolution.symbol? = some symbol) (hp : symbol.IsCaptured)
    (hn : table.find? name = none) :
    LooksUp name (table :: tables) (.captured (table.capture symbol).1)
      ((table.capture symbol).2 :: later) := by
  cases h with
  | notFound unbound => cases hs
  | @found inner around _ _ split unbound bound here =>
      cases hs
      obtain rfl : symbol.name = name := Table.name_of_find? bound
      obtain rfl : inner = [] := here.resolve_right hp.not_isShared
      rw [split]
      exact .captured [table] rfl (by simpa using hn) bound (List.cons_ne_nil _ _) hp
        (.cons ⟨symbol, rfl, rfl⟩ .nil) rfl
  | @captured inner changed around _ _ split unbound bound inside place captures number last =>
      cases hs
      exact .captured (table :: inner) (congrArg (table :: ·) split)
        (List.forall_mem_cons.mpr ⟨hn, unbound⟩) bound (List.cons_ne_nil _ _) place
        (.cons ⟨⟨name, .free, number⟩, rfl, rfl⟩ captures) rfl

/-- Looking a name up finds the innermost table that binds it. -/
theorem looksUp_resolveIn (name : String) (table : Table) (around : List Table) :
    LooksUp name (table :: around) (resolveIn name table around).1
      (resolveIn name table around).2.tables := by
  induction around generalizing table with
  | nil =>
      cases hbound : table.find? name with
      | none =>
          rw [resolveIn, hbound]
          exact .notFound (by simpa using hbound)
      | some symbol =>
          rw [resolveIn_of_bound hbound]
          exact .found [] rfl (List.forall_mem_nil _) hbound (.inl rfl)
  | cons next rest ih =>
      cases hbound : table.find? name with
      | some symbol =>
          rw [resolveIn_of_bound hbound]
          exact .found [] rfl (List.forall_mem_nil _) hbound (.inl rfl)
      | none =>
          obtain ⟨resolution, enclosing, heq, hcases⟩ :=
            resolveIn_of_unbound next rest hbound
          have hnext := ih next
          rw [heq] at hnext
          obtain ⟨rfl, hlast⟩ | ⟨symbol, hsymbol, ⟨hp, hlast⟩ | ⟨hp, hlast⟩⟩ := hcases
          · rw [hlast]
            exact hnext.notFound_cons hbound
          · rw [hlast]
            exact hnext.found_cons hsymbol hp hbound
          · rw [hlast]
            exact hnext.captured_cons hsymbol hp hbound

/-- Looking a name up keeps tables in order, and what they bind. A symbol that a function inside has
to capture is bound by the innermost table. -/
theorem Chained.resolveIn (h : Chained (table :: around)) (name : String) :
    Chained (resolveIn name table around).2.tables ∧
      (∀ symbol, table.Binds symbol → (Scope.resolveIn name table around).2.table.Binds symbol) ∧
      ∀ symbol, (Scope.resolveIn name table around).1.symbol? = some symbol →
        symbol.name = name ∧
          (symbol.IsCaptured → (Scope.resolveIn name table around).2.table.Binds symbol) := by
  induction around generalizing table with
  | nil =>
      cases hbound : table.find? name with
      | none =>
          rw [Scope.resolveIn, hbound]
          exact ⟨h, fun _ hb => hb, nofun⟩
      | some symbol =>
          rw [resolveIn_of_bound hbound]
          refine ⟨h, fun _ hb => hb, ?_⟩
          rintro _ ⟨⟩
          exact ⟨Table.name_of_find? hbound, fun _ => Table.binds_of_find? hbound⟩
  | cons next rest ih =>
      cases hbound : table.find? name with
      | some symbol =>
          rw [resolveIn_of_bound hbound]
          refine ⟨h, fun _ hb => hb, ?_⟩
          rintro _ ⟨⟩
          exact ⟨Table.name_of_find? hbound, fun _ => Table.binds_of_find? hbound⟩
      | none =>
          obtain ⟨resolution, enclosing, heq, hcases⟩ :=
            resolveIn_of_unbound next rest hbound
          obtain ⟨hchained, hbinds, hfound⟩ := ih h.tail
          rw [heq] at hchained hbinds hfound
          have hkept : Chained (table :: enclosing.tables) := h.of_around hbinds hchained
          obtain ⟨rfl, hlast⟩ | ⟨symbol, hsymbol, ⟨hp, hlast⟩ | ⟨hp, hlast⟩⟩ := hcases
          · rw [hlast]
            exact ⟨hkept, fun _ hb => hb, nofun⟩
          · rw [hlast]
            refine ⟨hkept, fun _ hb => hb, ?_⟩
            rintro _ ⟨⟩
            exact ⟨(hfound symbol hsymbol).1, fun hc => absurd hp hc.not_isShared⟩
          · obtain ⟨rfl, hnext⟩ := hfound symbol hsymbol
            rw [hlast]
            refine ⟨hkept.capture hbound (hnext hp) hp, fun _ hb => hb.capture hbound, ?_⟩
            rintro _ ⟨⟩
            exact ⟨rfl, fun _ => Table.binds_bind.mpr (.inl rfl)⟩

/-- Something that is done to the current scope. -/
inductive Action where
  | define (name : String)
  | defineBuiltin (index : Nat) (name : String)
  | defineFunctionName (name : String)
  | resolve (name : String)
  | enter
  | leave

/-- The scope after an action. Leaving the outermost table changes nothing. -/
def after (scope : Scope) : Action → Scope
  | .define name => (scope.define name).2
  | .defineBuiltin index name => (scope.defineBuiltin index name).2
  | .defineFunctionName name => (scope.defineFunctionName name).2
  | .resolve name => (scope.resolve name).2
  | .enter => scope.enter
  | .leave => scope.leave?.getD scope

/-- The scope after several actions. -/
def afterAll (actions : List Action) (scope : Scope) : Scope :=
  actions.foldl after scope

/-- An action keeps tables in order. -/
theorem Chained.after {scope : Scope} (h : Chained scope.tables) (action : Action) :
    Chained (scope.after action).tables := by
  cases action with
  | define name => exact h.define name
  | defineBuiltin index name => exact Chained.of_free_eq h (h.orderly.bind (.inl rfl)) rfl
  | defineFunctionName name => exact Chained.of_free_eq h (h.orderly.bind (.inr rfl)) rfl
  | resolve name => exact (Chained.resolveIn h name).1
  | enter => exact Chained.enter h
  | leave =>
      obtain ⟨table, outer⟩ := scope
      cases outer with
      | nil => exact h
      | cons next rest => exact h.tail

theorem Chained.afterAll {scope : Scope} (h : Chained scope.tables) (actions : List Action) :
    Chained (scope.afterAll actions).tables := by
  induction actions generalizing scope with
  | nil => exact h
  | cons action actions ih => exact ih (h.after action)

end Scope

end StackScript
