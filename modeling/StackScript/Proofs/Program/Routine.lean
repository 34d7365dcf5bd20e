import StackScript.Proofs.Program.Completion

/-!
# Reading without a bound

The grammar read by routines that look at the current lexeme, go on behind it and call each other,
with nothing in them that makes this end. It does end: a loop goes on, and a routine comes back to
itself, only after a lexeme was read. What each routine comes to is what the bounded form gives.

## Implementation notes

The body of a routine only names the routines that it calls, so no body is defined by recursion. To
run is a relation, and a run is a finite derivation: that there is one is not built in.
-/

namespace StackScript

/-- A routine of the descent, with what it gives. A routine that goes on behind what was read before
is a loop. -/
inductive Routine : Type → Type where
  | program (read : List Stmt) : Routine Program
  | statement : Routine Stmt
  | openStatement : Routine Stmt
  | binding : Routine Stmt
  | assignment : Routine Stmt
  | result : Routine Stmt
  | block : Routine Block
  | statements (read : List Stmt) : Routine Block
  | expression : Routine Expr
  | chain (remaining : List Tier) : Routine Expr
  | operands (tier : Tier) (tighter : List Tier) (left : Expr) : Routine Expr
  | unary : Routine Expr
  | applied : Routine Expr
  | applications (head : Expr) : Routine Expr
  | primary : Routine Expr
  | condition : Routine Expr
  | function : Routine Expr
  | parameters (read : List String) : Routine (List String)
  | items (closing : Mark) (read : List Expr) : Routine (List Expr)
  | pairs (read : List (Expr × Expr)) : Routine (List (Expr × Expr))

/-- A way of reading: look at the lexemes, go on behind the current one, call a routine. -/
inductive Attempt (α : Type) : Type 1 where
  | done (value : α)
  | fail (complaint : Complaint)
  | look (next : List Lexeme → Attempt α)
  | pass (next : Attempt α)
  | call {β : Type} (routine : Routine β) (next : β → Attempt α)

namespace Attempt

/-- Go on with another attempt behind a success. -/
def goOn (next : α → Attempt β) : Attempt α → Attempt β
  | done value => next value
  | fail complaint => fail complaint
  | look behind => look fun ts => (behind ts).goOn next
  | pass behind => pass (behind.goOn next)
  | call routine behind => call routine fun value => (behind value).goOn next

instance : Monad Attempt where
  pure := done
  bind attempt next := attempt.goOn next

/-! ## Lexemes and marks -/

/-- The current lexeme and all behind it. -/
def lexemes : Attempt (List Lexeme) :=
  look done

/-- The current lexeme, if this is not the end. -/
def current : Attempt (Option Lexeme) :=
  look fun ts => done ts.head?

/-- Go on behind the current lexeme. -/
def advance : Attempt Unit :=
  pass (done ())

/-- Go on behind the current lexeme if it is the given one, and say so. -/
def skips (t : Lexeme) : Attempt Bool := do
  if (← current) = some t then
    advance
    return true
  else return false

def expect (wanted : Mark) : Attempt Unit := do
  if ← skips (.mark wanted) then return ()
  else fail (.missing (.mark wanted))

def expectName : Attempt String := do
  match ← current with
  | some (.name id) =>
    advance
    return id
  | _ => fail (.missing .name)

def parse (routine : Routine α) : Attempt α :=
  call routine done

/-- A list, or an empty one if the closing mark comes at once. -/
def parseUnless (closing : Mark) (routine : Routine (List α)) : Attempt (List α) := do
  if ← skips (.mark closing) then return []
  else parse routine

end Attempt

/-! ## Routines -/

open Attempt in
/-- What a routine does. -/
def Routine.body : Routine α → Attempt α
  | program read => do
    if (← current) = none then return read.reverse
    else
      let stmt ← parse statement
      parse (program (stmt :: read))
  | statement => do
    let stmt ← parse openStatement
    let _ ← skips (.mark .semicolon)
    return stmt
  | openStatement => do
    match ← lexemes with
    | .keyword .binding :: _ => parse binding
    | .keyword .result :: _ => parse result
    | .name _ :: .mark .assign :: _ => parse assignment
    | _ =>
      let value ← parse expression
      return .expr value
  | binding => do
    advance
    let id ← expectName
    expect .assign
    let value ← parse expression
    return .binding id (value.named id)
  | assignment => do
    let id ← expectName
    expect .assign
    let value ← parse expression
    return .assign id value
  | result => do
    advance
    let next ← current
    if next ∈ [none, some (.mark .semicolon), some (.mark .closeBrace)] then return .result none
    else
      let value ← parse expression
      return .result (some value)
  | block => do
    expect .openBrace
    parse (statements [])
  | statements read => do
    if ← skips (.mark .closeBrace) then return read.reverse
    else if (← current) = none then fail (.missing (.mark .closeBrace))
    else
      let stmt ← parse statement
      parse (statements (stmt :: read))
  | expression => parse (chain tiers)
  | chain [] => parse unary
  | chain (tier :: tighter) => do
    let left ← parse (chain tighter)
    parse (operands tier tighter left)
  | operands tier tighter left => do
    match (← current).bind tier.operator? with
    | none => return left
    | some op =>
      advance
      let right ← parse (chain tighter)
      parse (operands tier tighter (.binary op left right))
  | unary => do
    match (← current).bind UnaryOp.ofLexeme? with
    | none => parse applied
    | some op =>
      advance
      let argument ← parse unary
      return .unary op argument
  | applied => do
    let head ← parse primary
    parse (applications head)
  | applications head => do
    if ← skips (.mark .openParen) then
      let arguments ← parseUnless .closeParen (items .closeParen [])
      parse (applications (.call head arguments))
    else if ← skips (.mark .openBracket) then
      let position ← parse expression
      expect .closeBracket
      parse (applications (.index head position))
    else return head
  | primary => do
    match ← current with
    | some (.integer digits) =>
      match integerLiteral? digits with
      | some value =>
        advance
        return .integer value
      | none => fail (.tooLarge digits)
    | some (.text value) =>
      advance
      return .text value
    | some (.keyword .truth) =>
      advance
      return .boolean true
    | some (.keyword .falsity) =>
      advance
      return .boolean false
    | some (.name id) =>
      advance
      return .name id
    | some (.mark .openParen) =>
      advance
      let value ← parse expression
      expect .closeParen
      return value
    | some (.mark .openBracket) =>
      advance
      let elements ← parseUnless .closeBracket (items .closeBracket [])
      return .array elements
    | some (.mark .openBrace) =>
      advance
      let pairs ← parse (pairs [])
      return .hash pairs
    | some (.keyword .condition) => parse condition
    | some (.keyword .function) => parse function
    | _ => fail (.missing .expression)
  | condition => do
    advance
    let test ← parse expression
    let consequent ← parse block
    if ← skips (.keyword .alternative) then
      let alternative ← parse block
      return .condition test consequent (some alternative)
    else return .condition test consequent none
  | function => do
    advance
    expect .openParen
    let params ← parseUnless .closeParen (parameters [])
    let body ← parse block
    return .function none params body
  | parameters read => do
    let id ← expectName
    if ← skips (.mark .comma) then parse (parameters (id :: read))
    else
      expect .closeParen
      return (id :: read).reverse
  | items closing read => do
    let item ← parse expression
    if ← skips (.mark .comma) then parse (items closing (item :: read))
    else
      expect closing
      return (item :: read).reverse
  | pairs read => do
    if ← skips (.mark .closeBrace) then return read.reverse
    else
      let key ← parse expression
      expect .colon
      let value ← parse expression
      if ← skips (.mark .comma) then parse (pairs ((key, value) :: read))
      else
        expect .closeBrace
        return ((key, value) :: read).reverse

namespace Attempt

/-! ## Runs -/

/-- An attempt on some lexemes comes to an outcome. -/
inductive ComesTo : {α : Type} → Attempt α → List Lexeme → Outcome α → Prop
  | done {α : Type} {value : α} {ts : List Lexeme} : ComesTo (.done value) ts (.ok value ts)
  | fail {α : Type} {complaint : Complaint} {ts : List Lexeme} :
    ComesTo (.fail complaint : Attempt α) ts (.error complaint ts)
  | look {α : Type} {next : List Lexeme → Attempt α} {ts : List Lexeme} {outcome : Outcome α}
    (h : ComesTo (next ts) ts outcome) : ComesTo (.look next) ts outcome
  | pass {α : Type} {next : Attempt α} {ts : List Lexeme} {outcome : Outcome α}
    (h : ComesTo next ts.tail outcome) : ComesTo (.pass next) ts outcome
  | call {α β : Type} {routine : Routine β} {next : β → Attempt α} {ts middle : List Lexeme}
    {value : β} {outcome : Outcome α} (hbody : ComesTo routine.body ts (.ok value middle))
    (h : ComesTo (next value) middle outcome) : ComesTo (.call routine next) ts outcome
  | stop {α β : Type} {routine : Routine β} {next : β → Attempt α} {ts rest : List Lexeme}
    {complaint : Complaint} (hbody : ComesTo routine.body ts (.error complaint rest)) :
    ComesTo (.call routine next) ts (.error complaint rest)

variable {α β : Type} {n : Nat} {t : Lexeme} {ts rest : List Lexeme}

/-- There is no second outcome. -/
theorem ComesTo.unique {attempt : Attempt α} {outcome outcome' : Outcome α}
    (h : attempt.ComesTo ts outcome) (h' : attempt.ComesTo ts outcome') : outcome = outcome' := by
  induction h with
  | done | fail =>
      cases h'
      rfl
  | look _ ih =>
      cases h' with
      | look h' => exact ih h'
  | pass _ ih =>
      cases h' with
      | pass h' => exact ih h'
  | call _ _ ihbody ih =>
      cases h' with
      | call hbody h' =>
          obtain ⟨rfl, rfl⟩ := Outcome.ok.inj (ihbody hbody)
          exact ih h'
      | stop hbody => cases ihbody hbody
  | stop _ ihbody =>
      cases h' with
      | call hbody _ => cases ihbody hbody
      | stop hbody =>
          obtain ⟨rfl, rfl⟩ := Outcome.error.inj (ihbody hbody)
          rfl

theorem ComesTo.goOn {attempt : Attempt α} {outcome : Outcome α} (h : attempt.ComesTo ts outcome)
    {next : α → Attempt β} (goOn : α → Form β)
    (hn : ∀ value rest, outcome = .ok value rest → (next value).ComesTo rest (goOn value rest)) :
    (attempt >>= next).ComesTo ts (outcome.andThen goOn) := by
  induction h with
  | done => exact hn _ _ rfl
  | fail => exact .fail
  | look _ ih => exact .look (ih goOn hn)
  | pass _ ih => exact .pass (ih goOn hn)
  | call hbody _ _ ih => exact .call hbody (ih goOn hn)
  | stop hbody => exact .stop hbody

theorem ComesTo.behind {attempt : Attempt α} {value : α} {next : α → Attempt β}
    {outcome : Outcome β} (h : attempt.ComesTo ts (.ok value rest)) (hn : (next value).ComesTo rest outcome) :
    (attempt >>= next).ComesTo ts outcome := by
  apply h.goOn fun _ _ => outcome
  rintro _ _ ⟨⟩
  exact hn

/-- An attempt comes to the outcome of a form. -/
def Ends (attempt : Attempt α) (form : Form α) (ts : List Lexeme) : Prop :=
  attempt.ComesTo ts (form ts)

namespace Ends

variable {attempt : Attempt α} {form form' : Form α} {next : α → Attempt β} {goOn : α → Form β}

theorem congr (h : attempt.Ends form ts) (heq : form' ts = form ts) : attempt.Ends form' ts := by
  rw [Ends, heq]
  exact h

theorem ok (value : α) (ts : List Lexeme) : Ends (pure value) (Outcome.ok value) ts :=
  .done

theorem done {value : α} (h : form ts = .ok value ts) : Ends (pure value) form ts :=
  (ok value ts).congr h

theorem fail {complaint : Complaint} (h : form ts = .error complaint ts) :
    Ends (.fail complaint) form ts := by
  rw [Ends, h]
  exact .fail

theorem andThen (h : attempt.Ends form ts)
    (hn : ∀ value rest, form ts = .ok value rest → (next value).Ends (goOn value) rest) :
    Ends (attempt >>= next) (form.andThen goOn) ts :=
  h.goOn goOn hn

theorem map (h : attempt.Ends form ts) (f : α → β) :
    Ends (attempt >>= fun value => pure (f value)) (form.map f) ts :=
  h.andThen fun value rest _ => ok (f value) rest

/-- What the body of a routine comes to is what the routine gives. -/
theorem parse {routine : Routine α} (h : routine.body.Ends form ts) :
    (Attempt.parse routine).Ends form ts := by
  rw [Ends] at h ⊢
  cases hform : form ts with
  | ok value rest =>
      rw [hform] at h
      exact .call h .done
  | error complaint rest =>
      rw [hform] at h
      exact .stop h

theorem lexemes {next : List Lexeme → Attempt α} (h : (next ts).Ends form ts) :
    Ends (Attempt.lexemes >>= next) form ts :=
  .look h

theorem current {next : Option Lexeme → Attempt α} (h : (next ts.head?).Ends form ts) :
    Ends (Attempt.current >>= next) form ts :=
  .look h

/-- An attempt that goes on behind the current lexeme. -/
theorem advance (h : attempt.Ends form ts) (heq : form' (t :: ts) = form ts) :
    Ends (Attempt.advance >>= fun _ => attempt) form' (t :: ts) := by
  rw [Ends, heq]
  exact .pass h

end Ends

theorem comesTo_skips_self (t : Lexeme) (ts : List Lexeme) :
    (skips t).ComesTo (t :: ts) (.ok true ts) := by
  have h : Ends (skips t) (fun ts => .ok true ts.tail) (t :: ts) := by
    apply Ends.current
    rw [if_pos List.head?_cons]
    exact .pass .done
  exact h

theorem comesTo_skips_of_ne (ht : ∀ first ∈ ts.head?, first ≠ t) :
    (skips t).ComesTo ts (.ok false ts) := by
  have hne : ts.head? ≠ some t := fun hm => ht t hm rfl
  have h : Ends (skips t) (Outcome.ok false) ts := by
    apply Ends.current
    rw [if_neg hne]
    exact Ends.ok false ts
  exact h

namespace Ends

variable {yes no : Attempt α} {form form' : Form α}

theorem skips_self (h : yes.Ends form ts) (heq : form' (t :: ts) = form ts) :
    Ends (do if ← skips t then yes else no) form' (t :: ts) := by
  rw [Ends, heq]
  exact (comesTo_skips_self t ts).behind h

theorem skips_of_ne (h : no.Ends form ts) (ht : ∀ first ∈ ts.head?, first ≠ t) :
    Ends (do if ← skips t then yes else no) form ts :=
  (comesTo_skips_of_ne ht).behind h

end Ends

end Attempt

end StackScript
