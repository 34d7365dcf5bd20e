/-!
# The names of the builtin functions

Compiled code refers to a builtin by its place in the list of all builtins.
-/

namespace StackScript

/-- A function of the language itself. -/
inductive Builtin where
  | len
  | print
  | first
  | last
  | rest
  | push
  deriving DecidableEq

namespace Builtin

/-- All builtins, in the order of their indices. -/
def all : List Builtin :=
  [len, print, first, last, rest, push]

/-- The name of a builtin. -/
def name : Builtin → String
  | len => "len"
  | print => "print"
  | first => "first"
  | last => "last"
  | rest => "rest"
  | push => "push"

/-- The text of a builtin in a report. -/
def report (builtin : Builtin) : String :=
  "Builtin(" ++ builtin.name ++ ")"

/-- The builtin with an index. -/
def ofIndex? (index : Nat) : Option Builtin :=
  all[index]?

/-- The index of a builtin. -/
def index (builtin : Builtin) : Nat :=
  builtin.ctorIdx

/-- The builtin with a name. -/
def ofName? (name : String) : Option Builtin :=
  all.find? (·.name == name)

@[simp] theorem ofIndex?_index (builtin : Builtin) : ofIndex? builtin.index = some builtin := by
  cases builtin <;> rfl

/-- A builtin is found under its name and under no other. -/
theorem ofName?_eq_some_iff {name : String} {builtin : Builtin} :
    ofName? name = some builtin ↔ builtin.name = name := by
  constructor
  · intro h
    simpa using List.find?_some h
  · rintro rfl
    cases builtin <;> decide

end Builtin

end StackScript
