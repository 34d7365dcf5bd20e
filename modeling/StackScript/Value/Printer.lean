import StackScript.Text.Quoted
import StackScript.Value.Basic

/-!
# The text of values

A text by itself is shown as it is, and inside arrays and hashes it is quoted. The entries of a
hash are sorted by the text of their keys; entries whose keys have the same text, such as those of
`1` and `"1"`, keep the order that they have in the hash.
-/

namespace StackScript

/-- A function is shown by its name and the number of its parameters. -/
def FunctionOver.label (fn : FunctionOver C) : String :=
  fn.name.getD "<anonymous>" ++ "/" ++ toString fn.parameters

/-- The order of texts, by code points. -/
def textLe (s t : String) : Bool :=
  !decide (t < s)

/-- Texts with a text to sort by, sorted and without it. -/
def sortedTexts (keyed : List (String × String)) : List String :=
  (keyed.mergeSort fun a b => textLe a.1 b.1).map Prod.snd

namespace Key

/-- The text of a key by itself. -/
def render : Key → String
  | integer value => toString value.toInt
  | boolean value => if value then "true" else "false"
  | text value => value

/-- The text of a key inside a hash. -/
def renderQuoted : Key → String
  | text value => Text.quote value
  | key => key.render

end Key

namespace ValueOver

mutual

/-- The text of a value, where texts are quoted or not. -/
def renderWith (quoted : Bool) : ValueOver C → String
  | null => "null"
  | integer value => toString value.toInt
  | boolean value => if value then "true" else "false"
  | text value => if quoted then Text.quote value else value
  | array elements => "[" ++ String.intercalate ", " (renderElements elements) ++ "]"
  | hash entries =>
    "\x7b" ++ String.intercalate ", " (sortedTexts (renderEntries entries)) ++ "\x7d"
  | closure fn _ => "Closure[" ++ fn.label ++ "]"
  | builtin b => "builtin " ++ b.name
  | function fn => "CompiledFunction[" ++ fn.label ++ "]"

/-- The texts of the elements of an array. -/
def renderElements : List (ValueOver C) → List String
  | [] => []
  | value :: values => renderWith true value :: renderElements values

/-- The texts of the entries of a hash, each with the text of its key to sort by. -/
def renderEntries : List (Key × ValueOver C) → List (String × String)
  | [] => []
  | (key, value) :: entries =>
    (key.render, key.renderQuoted ++ ": " ++ renderWith true value) :: renderEntries entries

end

/-- The text of a value. -/
def render (value : ValueOver C) : String :=
  renderWith false value

/-- The text of a value inside another. -/
def renderNested (value : ValueOver C) : String :=
  renderWith true value

@[simp] theorem renderElements_eq_map (values : List (ValueOver C)) :
    renderElements values = values.map renderNested := by
  induction values with
  | nil => simp [renderElements]
  | cons value values ih => simp [renderElements, renderNested, ih]

@[simp] theorem renderEntries_eq_map (entries : List (Key × ValueOver C)) :
    renderEntries entries = entries.map fun entry =>
      (entry.1.render, entry.1.renderQuoted ++ ": " ++ entry.2.renderNested) := by
  induction entries with
  | nil => simp [renderEntries]
  | cons entry entries ih =>
      obtain ⟨key, value⟩ := entry
      simp [renderEntries, renderNested, ih]

mutual

/-- Some hash that shows in the text of a value has two keys with the same text. -/
def hasTwinKeys : ValueOver C → Bool
  | array elements => anyHasTwinKeys elements
  | hash entries =>
    !decide (entries.map fun entry => entry.1.render).Nodup || anyEntryHasTwinKeys entries
  | _ => false

/-- This holds for one of several values. -/
def anyHasTwinKeys : List (ValueOver C) → Bool
  | [] => false
  | value :: values => hasTwinKeys value || anyHasTwinKeys values

/-- This holds for the value of one of several entries. -/
def anyEntryHasTwinKeys : List (Key × ValueOver C) → Bool
  | [] => false
  | (_, value) :: entries => hasTwinKeys value || anyEntryHasTwinKeys entries

end

end ValueOver

end StackScript
