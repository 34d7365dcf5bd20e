import StackScript.Program.Basic
import StackScript.Program.Outcome

/-!
# The grammar

One function for each form of the grammar reads that form from the front of a list of lexemes. A
chain of binary operators is read tier by tier, the loosest tier first, and associates to the left.

## Implementation notes

The measure counts twelve for every lexeme that is left, so that a call on a shorter list may start
again with any form. On the same list, calls go down the forms, from blocks and statements over the
tiers of operators to calls and primary expressions. As the measure is a number, closed terms can
be evaluated in the kernel.
-/

namespace StackScript

/-- The operators of one strength of binding. -/
abbrev Tier := List (Mark × BinaryOp)

/-- The tiers of binary operators, the loosest first. -/
def tiers : List Tier :=
  [[(.equal, .equal), (.notEqual, .notEqual)],
    [(.less, .less), (.greater, .greater)],
    [(.plus, .add), (.minus, .subtract)],
    [(.star, .multiply), (.slash, .divide)]]

/-- The operator of a tier that a lexeme spells. -/
def Tier.operator? (tier : Tier) : Lexeme → Option BinaryOp
  | .mark mark => tier.lookup mark
  | _ => none

/-- The unary operator that a lexeme spells. -/
def UnaryOp.ofLexeme? : Lexeme → Option UnaryOp
  | .mark .minus => some .minus
  | .mark .plus => some .plus
  | .mark .bang => some .not
  | _ => none

/-- The number that decimal digits stand for. -/
def decimalValue (digits : String) : Nat :=
  digits.toList.foldl (fun value digit => 10 * value + (digit.toNat - '0'.toNat)) 0

/-- The largest integer of 64 bits with a sign. -/
def maxInteger : Nat := 9223372036854775807

/-- An integer literal has to fit in 64 bits with a sign. -/
def integerLiteral? (digits : String) : Option Int64 :=
  let value := decimalValue digits
  if value ≤ maxInteger then some (Int64.ofNat value) else none

namespace Parse

/-- Read one mark. -/
def mark (wanted : Mark) : (ts : List Lexeme) → Parse Unit ts.length
  | .mark found :: ts =>
    if found = wanted then ok () ts (Nat.lt_succ_self _)
    else fail (.missing (.mark wanted)) (.mark found :: ts) (Nat.le_refl _)
  | ts => fail (.missing (.mark wanted)) ts (Nat.le_refl _)

/-- Read one name. -/
def name : (ts : List Lexeme) → Parse String ts.length
  | .name id :: ts => ok id ts (Nat.lt_succ_self _)
  | ts => fail (.missing .name) ts (Nat.le_refl _)

/-- The names between the parentheses of a function behind those `read` before, in reverse, and
the closing parenthesis. A name is due. -/
def parametersOnto (read : List String) : (ts : List Lexeme) →
    (h : ts.length ≤ n := by first | omega | (simp only [List.length_cons] at *; omega)) →
    Parse (List String) n
  | .name id :: .mark .comma :: ts, _ => parametersOnto (id :: read) ts
  | .name id :: ts, _ => (mark .closeParen ts).map fun _ => (id :: read).reverse
  | ts, _ => fail (.missing .name) ts

/-- The names between the parentheses of a function, and the closing parenthesis. -/
def parameters : (ts : List Lexeme) → Parse (List String) ts.length
  | .mark .closeParen :: ts => ok [] ts (Nat.lt_succ_self _)
  | ts => parametersOnto [] ts (Nat.le_refl _)

/-- A statement and the semicolon behind it, if there is one. -/
def withSemicolon (statement : Stmt) : (ts : List Lexeme) → ts.length < n → Parse Stmt n
  | .mark .semicolon :: ts, _ => ok statement ts
  | ts, h => ok statement ts h

mutual

/-- A statement, with or without a semicolon behind it. -/
def statement (ts : List Lexeme) : Parse Stmt ts.length :=
  (openStatement ts).andThen fun statement rest h => withSemicolon statement rest h
termination_by 12 * ts.length + 10
decreasing_by all_goals omega

/-- A statement up to the place of its semicolon. -/
def openStatement : (ts : List Lexeme) → Parse Stmt ts.length
  | .keyword .binding :: ts =>
    (name ts).andThen fun id rest _ =>
    (mark .assign rest).andThen fun _ rest _ =>
    (expression rest).map fun value => .binding id (value.named id)
  | .keyword .result :: [] => ok (.result none) []
  | .keyword .result :: .mark .semicolon :: ts => ok (.result none) (.mark .semicolon :: ts)
  | .keyword .result :: .mark .closeBrace :: ts => ok (.result none) (.mark .closeBrace :: ts)
  | .keyword .result :: ts => (expression ts).map fun value => .result (some value)
  | .name id :: .mark .assign :: ts => (expression ts).map fun value => .assign id value
  | ts => (expression ts).map .expr
termination_by ts => 12 * ts.length + 9
decreasing_by all_goals first | omega | (simp only [List.length_cons] at *; omega)

/-- Statements up to a closing brace, behind those `read` before, in reverse. -/
def statementsOnto (read : List Stmt) (ts : List Lexeme)
    (h : ts.length ≤ n := by first | omega | (simp only [List.length_cons] at *; omega)) :
    Parse Block n :=
  match ts with
  | .mark .closeBrace :: ts => ok read.reverse ts
  | [] => fail (.missing (.mark .closeBrace)) []
  | ts =>
    (statement ts).andThen fun statement rest _ => statementsOnto (statement :: read) rest
termination_by 12 * ts.length + 11
decreasing_by all_goals omega

/-- Statements between braces. -/
def block (ts : List Lexeme) : Parse Block ts.length :=
  (mark .openBrace ts).andThen fun _ rest _ => statementsOnto [] rest
termination_by 12 * ts.length
decreasing_by all_goals omega

/-- An expression is a chain of operators of all tiers. -/
def expression (ts : List Lexeme) : Parse Expr ts.length :=
  chain tiers ts
termination_by 12 * ts.length + 8
decreasing_by simp only [tiers, List.length_cons, List.length_nil]; omega

/-- A chain of operators of some tiers: operands without operators of the loosest of them, joined
by such operators. -/
def chain (remaining : List Tier) (ts : List Lexeme) : Parse Expr ts.length :=
  match remaining with
  | [] => unary ts
  | tier :: tighter =>
    (chain tighter ts).andThen fun left rest h => chainOnto tier tighter left rest h
termination_by 12 * ts.length + 3 + remaining.length
decreasing_by all_goals first | omega | (simp only [List.length_cons] at *; omega)

/-- More operands of a tier, behind the chain `left` of those before. -/
def chainOnto (tier : Tier) (tighter : List Tier) (left : Expr) (ts : List Lexeme)
    (h : ts.length < n := by first | omega | (simp only [List.length_cons] at *; omega)) :
    Parse Expr n :=
  match ts with
  | [] => ok left []
  | t :: ts =>
    match tier.operator? t with
    | none => ok left (t :: ts)
    | some op =>
      (chain tighter ts).andThen fun right rest _ =>
      chainOnto tier tighter (.binary op left right) rest
termination_by 12 * ts.length + tighter.length
decreasing_by all_goals first | omega | (simp only [List.length_cons] at *; omega)

/-- An operand with any number of unary operators in front. -/
def unary : (ts : List Lexeme) → Parse Expr ts.length
  | [] => applied []
  | t :: ts =>
    match UnaryOp.ofLexeme? t with
    | some op => (unary ts).map fun argument => .unary op argument
    | none => applied (t :: ts)
termination_by ts => 12 * ts.length + 2
decreasing_by all_goals first | omega | (simp only [List.length_cons] at *; omega)

/-- A primary expression with any number of calls and element accesses behind. -/
def applied (ts : List Lexeme) : Parse Expr ts.length :=
  (primary ts).andThen fun head rest h => appliedOnto head rest h
termination_by 12 * ts.length + 1
decreasing_by all_goals omega

/-- More calls and element accesses behind `head`. -/
def appliedOnto (head : Expr) (ts : List Lexeme)
    (h : ts.length < n := by first | omega | (simp only [List.length_cons] at *; omega)) :
    Parse Expr n :=
  match ts with
  | .mark .openParen :: ts =>
    (items .closeParen ts).andThen fun arguments rest _ =>
    appliedOnto (.call head arguments) rest
  | .mark .openBracket :: ts =>
    (expression ts).andThen fun position rest _ =>
    (mark .closeBracket rest).andThen fun _ rest _ =>
    appliedOnto (.index head position) rest
  | ts => ok head ts h
termination_by 12 * ts.length
decreasing_by all_goals first | omega | (simp only [List.length_cons] at *; omega)

/-- An expression that no operator, call or element access takes apart. -/
def primary : (ts : List Lexeme) → Parse Expr ts.length
  | .integer digits :: ts =>
    match integerLiteral? digits with
    | some value => ok (.integer value) ts
    | none => fail (.tooLarge digits) (.integer digits :: ts)
  | .text value :: ts => ok (.text value) ts
  | .keyword .truth :: ts => ok (.boolean true) ts
  | .keyword .falsity :: ts => ok (.boolean false) ts
  | .name id :: ts => ok (.name id) ts
  | .mark .openParen :: ts =>
    (expression ts).andThen fun value rest _ =>
    (mark .closeParen rest).map fun _ => value
  | .mark .openBracket :: ts => (items .closeBracket ts).map .array
  | .mark .openBrace :: ts => (pairsOnto (n := ts.length) [] ts).map .hash
  | .keyword .condition :: ts =>
    (expression ts).andThen fun test rest _ =>
    (block rest).andThen fun consequent rest _ =>
      match rest with
      | .keyword .alternative :: rest =>
        (block rest).map fun alternative => .condition test consequent (some alternative)
      | rest => ok (.condition test consequent none) rest
  | .keyword .function :: ts =>
    (mark .openParen ts).andThen fun _ rest _ =>
    (parameters rest).andThen fun params rest _ =>
    (block rest).map fun body => .function none params body
  | ts => fail (.missing .expression) ts
termination_by ts => 12 * ts.length
decreasing_by all_goals first | omega | (simp only [List.length_cons] at *; omega)

/-- Expressions with commas between them, up to a closing mark. -/
def items (closing : Mark) (ts : List Lexeme) : Parse (List Expr) ts.length :=
  match ts with
  | .mark found :: ts =>
    if found = closing then ok [] ts else itemsOnto closing [] (.mark found :: ts)
  | ts => itemsOnto closing [] ts
termination_by 12 * ts.length + 10
decreasing_by all_goals omega

/-- Expressions with commas between them, up to a closing mark, behind those `read` before, in
reverse. An expression is due. -/
def itemsOnto (closing : Mark) (read : List Expr) (ts : List Lexeme)
    (h : ts.length ≤ n := by first | omega | (simp only [List.length_cons] at *; omega)) :
    Parse (List Expr) n :=
  (expression ts).andThen fun item rest _ =>
    match rest with
    | .mark .comma :: rest => itemsOnto closing (item :: read) rest
    | rest => (mark closing rest).map fun _ => (item :: read).reverse
termination_by 12 * ts.length + 9
decreasing_by all_goals first | omega | (simp only [List.length_cons] at *; omega)

/-- Pairs of a key and a value up to a closing brace, behind those `read` before, in reverse. A
comma may follow the last pair. -/
def pairsOnto (read : List (Expr × Expr)) (ts : List Lexeme)
    (h : ts.length ≤ n := by first | omega | (simp only [List.length_cons] at *; omega)) :
    Parse (List (Expr × Expr)) n :=
  match ts with
  | .mark .closeBrace :: ts => ok read.reverse ts
  | ts =>
    (expression ts).andThen fun key rest _ =>
    (mark .colon rest).andThen fun _ rest _ =>
    (expression rest).andThen fun value rest _ =>
      match rest with
      | .mark .comma :: rest => pairsOnto ((key, value) :: read) rest
      | rest => (mark .closeBrace rest).map fun _ => ((key, value) :: read).reverse
termination_by 12 * ts.length + 9
decreasing_by all_goals first | omega | (simp only [List.length_cons] at *; omega)

end

/-- Statements up to the end, behind those `read` before, in reverse. -/
def programOnto (read : List Stmt) (ts : List Lexeme) : Outcome Program :=
  match ts with
  | [] => .ok read.reverse []
  | t :: ts =>
    match statement (t :: ts) with
    | ⟨.ok statement rest, _⟩ => programOnto (statement :: read) rest
    | ⟨.error complaint rest, _⟩ => .error complaint rest
termination_by ts.length
decreasing_by assumption

/-- A program is all statements up to the end. -/
def program (ts : List Lexeme) : Outcome Program :=
  programOnto [] ts

end Parse

end StackScript
