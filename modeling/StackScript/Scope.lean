/-!
# Scopes

Every function has a table of the names it binds, inside the tables of the functions around it.
A name of a function further out is captured: it becomes a free name of every table on the way in,
and each of them records where the next outer table keeps it. The names of the outermost table and
the builtins are visible everywhere and are never captured.

## Implementation notes

A table keeps its bindings in a list with the latest first, so that a later binding of a name hides
an earlier one.
-/

namespace StackScript

/-- Where the value of a name is kept. -/
inductive Symbol.Place where
  | global
  | «local»
  | builtin
  | free
  | function
  deriving DecidableEq

/-- A bound name: where its value is kept, and in which slot. -/
structure Symbol where
  name : String
  place : Symbol.Place
  index : Nat
  deriving DecidableEq

/-- The names bound by one function, or by the program. -/
structure Table where
  definitions : Nat := 0
  free : List Symbol := []
  bound : List Symbol := []

namespace Table

/-- The symbol bound to a name, if any. -/
def find? (table : Table) (name : String) : Option Symbol :=
  table.bound.find? (·.name == name)

/-- Bind a name. -/
def bind (table : Table) (symbol : Symbol) : Table :=
  { table with bound := symbol :: table.bound }

/-- Give a name a slot of its own. A name that has one at the same place keeps it. -/
def define (table : Table) (place : Symbol.Place) (name : String) : Symbol × Table :=
  match (table.find? name).filter (·.place == place) with
  | some symbol => (symbol, table)
  | none =>
    let symbol := ⟨name, place, table.definitions⟩
    (symbol, { table.bind symbol with definitions := table.definitions + 1 })

/-- Bind a name to the next captured value, kept in the enclosing table as `enclosing` says. -/
def capture (table : Table) (enclosing : Symbol) : Symbol × Table :=
  let symbol := ⟨enclosing.name, .free, table.free.length⟩
  (symbol, { table.bind symbol with free := table.free ++ [enclosing] })

@[simp] theorem find?_bind (table : Table) (symbol : Symbol) (name : String) :
    (table.bind symbol).find? name =
      if symbol.name = name then some symbol else table.find? name := by
  by_cases h : symbol.name = name <;> simp [find?, bind, h]

end Table

/-- The result of looking a name up. -/
inductive Resolution where
  | found (symbol : Symbol)
  | captured (symbol : Symbol)
  | notFound
  deriving DecidableEq

/-- The symbol of a name, captured or not. -/
def Resolution.symbol? : Resolution → Option Symbol
  | found symbol => some symbol
  | captured symbol => some symbol
  | notFound => none

/-- A table and the tables around it, the innermost first. -/
structure Scope where
  table : Table := {}
  outer : List Table := []

namespace Scope

/-- The place of a name that is defined here: global in the outermost table, local in the others. -/
def definitionPlace (scope : Scope) : Symbol.Place :=
  if scope.outer.isEmpty then .global else .local

/-- Give a name a slot in the innermost table. -/
def define (scope : Scope) (name : String) : Symbol × Scope :=
  let (symbol, table) := scope.table.define scope.definitionPlace name
  (symbol, { scope with table })

/-- Bind a name to a builtin. -/
def defineBuiltin (scope : Scope) (index : Nat) (name : String) : Symbol × Scope :=
  let symbol := ⟨name, .builtin, index⟩
  (symbol, { scope with table := scope.table.bind symbol })

/-- Bind the name of the function itself. -/
def defineFunctionName (scope : Scope) (name : String) : Symbol × Scope :=
  let symbol := ⟨name, .function, 0⟩
  (symbol, { scope with table := scope.table.bind symbol })

/-- Look a name up in a table and the tables around it, capturing it where that is needed. -/
def resolveIn (name : String) (table : Table) : List Table → Resolution × Scope
  | [] =>
    match table.find? name with
    | some symbol => (.found symbol, ⟨table, []⟩)
    | none => (.notFound, ⟨table, []⟩)
  | outer :: rest =>
    match table.find? name with
    | some symbol => (.found symbol, ⟨table, outer :: rest⟩)
    | none =>
      let (resolution, enclosing) := resolveIn name outer rest
      let around := enclosing.table :: enclosing.outer
      match resolution.symbol? with
      | none => (.notFound, ⟨table, around⟩)
      | some symbol =>
        match symbol.place with
        | .global | .builtin => (.found symbol, ⟨table, around⟩)
        | .local | .free | .function =>
          let (symbol, table) := table.capture symbol
          (.captured symbol, ⟨table, around⟩)

/-- Look a name up. -/
def resolve (scope : Scope) (name : String) : Resolution × Scope :=
  resolveIn name scope.table scope.outer

/-- The symbol of a name, if it has one. -/
def lookup (scope : Scope) (name : String) : Option Symbol × Scope :=
  let (resolution, scope) := scope.resolve name
  (resolution.symbol?, scope)

/-- The scope of a function inside this one. -/
def enter (scope : Scope) : Scope :=
  ⟨{}, scope.table :: scope.outer⟩

/-- The scope of the body of a function: its own name, if it has one, and its parameters are bound. -/
def enterFunction (scope : Scope) (name : Option String) (params : List String) : Scope :=
  let inner := match name with
    | some name => (scope.enter.defineFunctionName name).2
    | none => scope.enter
  params.foldl (fun scope param => (scope.define param).2) inner

/-- The scope around this one, if there is one. -/
def leave? (scope : Scope) : Option Scope :=
  match scope.outer with
  | [] => none
  | table :: outer => some ⟨table, outer⟩

/-- The innermost table and the scope around it. A scope with none around it stays as it is, and its
table is not given away: an empty one takes its place. -/
def leave (scope : Scope) : Table × Scope :=
  match scope.leave? with
  | some around => (scope.table, around)
  | none => ({}, scope)

theorem leave_of_outer {scope : Scope} (h : scope.outer ≠ []) :
    scope.leave = (scope.table, scope.leave?.getD scope) := by
  obtain ⟨table, outer⟩ := scope
  cases outer with
  | nil => exact absurd rfl h
  | cons next rest => rfl

/-- Looking a name up changes the number of enclosing tables nowhere. -/
theorem length_outer_resolveIn (name : String) (table : Table) (outer : List Table) :
    (resolveIn name table outer).2.outer.length = outer.length := by
  induction outer generalizing table with
  | nil => unfold resolveIn; split <;> rfl
  | cons next rest ih =>
      unfold resolveIn
      have := ih next
      repeat' split
      all_goals simp_all

end Scope

end StackScript
