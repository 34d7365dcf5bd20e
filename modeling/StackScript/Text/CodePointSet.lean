/-!
# Sets of code points

A set is kept as the ascending list of the code points at which membership changes, starting
outside. A range of members is then two neighbouring entries, and a lookup reads the list only
up to the first change beyond the code point.
-/

namespace StackScript.Text

/-- A set of code points, given by the ascending places where membership changes. -/
structure CodePointSet where
  changes : List Nat

namespace CodePointSet

/-- Membership after the changes of an ascending list that lie at or below `n`. -/
def inside : List Nat → Nat → Bool
  | [], _ => false
  | change :: rest, n => if n < change then false else !inside rest n

/-- A character belongs to a set when an odd number of changes lies at or below it. -/
def contains (set : CodePointSet) (c : Char) : Bool :=
  inside set.changes c.toNat

/-- One range of members `low ≤ c < high`, written as its two changes. -/
theorem contains_range (low high : Nat) (c : Char) :
    contains ⟨[low, high]⟩ c = (decide (low ≤ c.toNat) && decide (c.toNat < high)) := by
  simp only [contains, inside]
  by_cases hl : c.toNat < low
  · have : ¬ low ≤ c.toNat := by omega
    simp [hl, this]
  · have : low ≤ c.toNat := by omega
    by_cases hh : c.toNat < high <;> simp [hl, hh, this]

end CodePointSet

end StackScript.Text
