import StackScript.Token.Basic

/-!
# Outcomes of parsing

Parsing works on a list of lexemes and returns what is left of it, after a failure too: the
offending lexeme is then the first of the rest. Where it stands in the source is the business of
whoever numbered the lexemes.

## Implementation notes

A bounded outcome carries the proof that the rest is shorter than some number, or after a failure
not longer. With the length of the given list as that number, this is what the recursion of the
grammar ends by. The proofs do not exist at run time, and `Parse.within` does nothing there.
-/

namespace StackScript

/-- What is missing in front of the rest. -/
inductive Expected where
  | expression
  | name
  | mark (mark : Mark)
  deriving DecidableEq

/-- Why parsing stops in front of the rest. -/
inductive Complaint where
  | missing (expected : Expected)
  | tooLarge (digits : String)
  deriving DecidableEq

/-- A value and the lexemes behind it, or a complaint about the first lexeme of the rest. -/
inductive Outcome (α : Type) where
  | ok (value : α) (rest : List Lexeme)
  | error (complaint : Complaint) (rest : List Lexeme)

namespace Outcome

/-- Fewer than `n` lexemes are left, or after a failure at most `n`. -/
def Fits (n : Nat) : Outcome α → Prop
  | ok _ rest => rest.length < n
  | error _ rest => rest.length ≤ n

theorem Fits.mono {m n : Nat} (h : m ≤ n) : {outcome : Outcome α} → outcome.Fits m → outcome.Fits n
  | .ok _ _, fits => Nat.lt_of_lt_of_le fits h
  | .error _ _, fits => Nat.le_trans fits h

/-- What is left, whatever the outcome. -/
def rest : Outcome α → List Lexeme
  | ok _ rest => rest
  | error _ rest => rest

end Outcome

/-- An outcome that leaves fewer than `n` lexemes, or after a failure at most `n`. -/
def Parse (α : Type) (n : Nat) : Type :=
  { outcome : Outcome α // outcome.Fits n }

namespace Parse

/-- Success in front of a rest of fewer than `n` lexemes. -/
def ok (value : α) (rest : List Lexeme)
    (h : rest.length < n := by first | omega | (simp only [List.length_cons] at *; omega)) :
    Parse α n :=
  ⟨.ok value rest, h⟩

/-- Failure in front of a rest of at most `n` lexemes. -/
def fail (complaint : Complaint) (rest : List Lexeme)
    (h : rest.length ≤ n := by first | omega | (simp only [List.length_cons] at *; omega)) :
    Parse α n :=
  ⟨.error complaint rest, h⟩

/-- Go on behind a success, with a rest that is known to be shorter. -/
@[inline] def andThen (parse : Parse α m)
    (next : (value : α) → (rest : List Lexeme) → rest.length < m → Parse β n)
    (h : m ≤ n := by first | omega | (simp only [List.length_cons] at *; omega)) : Parse β n :=
  match parse with
  | ⟨.ok value rest, shorter⟩ => next value rest shorter
  | ⟨.error complaint rest, shorter⟩ => ⟨.error complaint rest, Nat.le_trans shorter h⟩

/-- Change the value of a success. -/
@[inline] def map (f : α → β) (parse : Parse α m)
    (h : m ≤ n := by first | omega | (simp only [List.length_cons] at *; omega)) : Parse β n :=
  parse.andThen (fun value rest shorter => ok (f value) rest (Nat.lt_of_lt_of_le shorter h)) h

end Parse

end StackScript
