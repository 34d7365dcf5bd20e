import StackScript.Builtin
import StackScript.Code.Instruction

/-!
# Values

Arrays and hashes are values like any other and never change. A hash holds its entries in the order
of their keys, one entry for each key, so that equal hashes have equal entries.

## Implementation notes

A key is a type of its own, not a value with a proof that it can be hashed: the three kinds of keys
are told apart by their constructors.

What a function holds as its code is a parameter. The operations on values never look at it, so that
they serve compiled functions and uncompiled ones alike.
-/

namespace StackScript

/-- A value under which a hash can hold another. -/
inductive Key where
  | integer (value : Int64)
  | boolean (value : Bool)
  | text (value : String)
  deriving DecidableEq

namespace Key

/-- Integers come first, by size, then `false` and `true`, then texts, by code points. -/
def before : Key → Key → Bool
  | integer m, integer n => m < n
  | integer _, _ => true
  | boolean _, integer _ => false
  | boolean b, boolean c => !b && c
  | boolean _, text _ => true
  | text s, text t => s < t
  | text _, _ => false

end Key

/-- What a function literal has become. Parameters are the first of its local slots. -/
structure FunctionOver (C : Type) where
  name : Option String
  code : C
  locals : Nat
  parameters : Nat
  deriving DecidableEq

/-- A compiled function. -/
abbrev Function := FunctionOver Code

/-- A value. A closure holds the values of the names that its function captures. -/
inductive ValueOver (C : Type) where
  | null
  | integer (value : Int64)
  | boolean (value : Bool)
  | text (value : String)
  | array (elements : List (ValueOver C))
  | hash (entries : List (Key × ValueOver C))
  | closure (fn : FunctionOver C) (free : List (ValueOver C))
  | builtin (builtin : Builtin)
  | function (fn : FunctionOver C)

/-- A value whose functions are compiled. -/
abbrev Value := ValueOver Code

instance : Inhabited (ValueOver C) := ⟨.null⟩

/-- The entries with one more, in its place, or instead of the one with the same key. -/
def insertEntry (key : Key) (value : V) : List (Key × V) → List (Key × V)
  | [] => [(key, value)]
  | (other, old) :: entries =>
    if other = key then (key, value) :: entries
    else if key.before other then (key, value) :: (other, old) :: entries
    else (other, old) :: insertEntry key value entries

namespace ValueOver

/-- The key of a value that can be one. -/
def key? : ValueOver C → Option Key
  | integer value => some (.integer value)
  | boolean value => some (.boolean value)
  | text value => some (.text value)
  | _ => none

/-- The value of a key. -/
def ofKey : Key → ValueOver C
  | .integer value => integer value
  | .boolean value => boolean value
  | .text value => text value

@[simp] theorem key?_ofKey (key : Key) : (ofKey key : ValueOver C).key? = some key := by
  cases key <;> rfl

/-- A hash of entries given in any order. Of two entries with the same key the later one holds. -/
def ofEntries (entries : List (Key × ValueOver C)) : ValueOver C :=
  hash (entries.foldl (fun held (key, value) => insertEntry key value held) [])

/-- All values but `null` and `false` count as true. -/
def isTruthy : ValueOver C → Bool
  | null => false
  | boolean value => value
  | _ => true

/-- The value is `null`. -/
def isNull : ValueOver C → Bool
  | null => true
  | _ => false

/-- The name of the type of a value. -/
def typeName : ValueOver C → String
  | null => "NULL"
  | integer _ => "INTEGER"
  | boolean _ => "BOOLEAN"
  | text _ => "STRING"
  | array _ => "ARRAY"
  | hash _ => "HASH"
  | closure _ _ => "CLOSURE"
  | builtin _ => "BUILTIN"
  | function _ => "COMPILED_FUNCTION"

end ValueOver

/-- Looking up an entry that was just put in finds it. -/
theorem lookup_insertEntry (key : Key) (value : V) (entries : List (Key × V)) :
    (insertEntry key value entries).lookup key = some value := by
  induction entries with
  | nil => simp [insertEntry]
  | cons entry entries ih =>
      obtain ⟨other, old⟩ := entry
      by_cases h : other = key
      · simp [insertEntry, h]
      · by_cases hb : key.before other = true
        · simp [insertEntry, h, hb]
        · have hne : (key == other) = false := by simpa using fun e => h e.symm
          simp [insertEntry, h, hb, List.lookup_cons, hne, ih]

end StackScript
