import StackScript.Program.Basic
import StackScript.Text.Quoted

/-!
# The text of a program

Operators and element accesses are printed between parentheses, so that the text of an expression
shows how it was read. The order of the pairs of a hash literal in compiled code depends on the
text of their keys.
-/

namespace StackScript

/-- Statements between braces, with a space behind each. -/
def Block.enclose (statements : List String) : String :=
  "\x7b " ++ String.join (statements.map (· ++ " ")) ++ "\x7d"

mutual

/-- The text of an expression. -/
def Expr.render : Expr → String
  | .name id => id
  | .integer value => toString value.toInt
  | .text value => Text.quote value
  | .boolean value => if value then "true" else "false"
  | .unary op argument => "(" ++ op.symbol ++ argument.render ++ ")"
  | .binary op left right =>
    "(" ++ left.render ++ " " ++ op.symbol ++ " " ++ right.render ++ ")"
  | .condition test consequent alternative =>
    "if " ++ test.render ++ " " ++ Block.enclose (Stmt.renderAll consequent) ++
      Stmt.renderAlternative alternative
  | .function name params body =>
    "fn" ++ name.elim "" (fun name => "<" ++ name ++ ">") ++
      "(" ++ String.intercalate ", " params ++ ") " ++ Block.enclose (Stmt.renderAll body)
  | .call callee arguments =>
    callee.render ++ "(" ++ String.intercalate ", " (Expr.renderAll arguments) ++ ")"
  | .array elements => "[" ++ String.intercalate ", " (Expr.renderAll elements) ++ "]"
  | .hash pairs => "\x7b" ++ String.intercalate ", " (Expr.renderPairs pairs) ++ "\x7d"
  | .index object position => "(" ++ object.render ++ "[" ++ position.render ++ "])"
termination_by structural e => e

/-- The texts of several expressions. -/
def Expr.renderAll : List Expr → List String
  | [] => []
  | e :: es => e.render :: Expr.renderAll es

/-- The texts of the pairs of a hash literal. -/
def Expr.renderPairs : List (Expr × Expr) → List String
  | [] => []
  | (key, value) :: pairs => (key.render ++ ": " ++ value.render) :: Expr.renderPairs pairs

/-- The text of a statement. -/
def Stmt.render : Stmt → String
  | .binding name value => "let " ++ name ++ " = " ++ value.render ++ ";"
  | .assign name value => name ++ " = " ++ value.render ++ ";"
  | .result none => "return;"
  | .result (some value) => "return " ++ value.render ++ ";"
  | .expr value => value.render

/-- The texts of several statements. -/
def Stmt.renderAll : List Stmt → List String
  | [] => []
  | s :: ss => s.render :: Stmt.renderAll ss

/-- The text of the second branch of a condition, with its keyword, if it is there. -/
def Stmt.renderAlternative : Option (List Stmt) → String
  | none => ""
  | some block => " else " ++ Block.enclose (Stmt.renderAll block)

end

/-- The text of a program: its statements without anything between them. -/
def Program.render (program : Program) : String :=
  String.join (Stmt.renderAll program)

@[simp] theorem Expr.renderAll_eq_map (es : List Expr) :
    Expr.renderAll es = es.map Expr.render := by
  induction es with
  | nil => simp [Expr.renderAll]
  | cons e es ih => simp [Expr.renderAll, ih]

@[simp] theorem Expr.renderPairs_eq_map (pairs : List (Expr × Expr)) :
    Expr.renderPairs pairs = pairs.map fun pair => pair.1.render ++ ": " ++ pair.2.render := by
  induction pairs with
  | nil => simp [Expr.renderPairs]
  | cons pair pairs ih =>
      obtain ⟨key, value⟩ := pair
      simp [Expr.renderPairs, ih]

@[simp] theorem Stmt.renderAll_eq_map (ss : List Stmt) :
    Stmt.renderAll ss = ss.map Stmt.render := by
  induction ss with
  | nil => simp [Stmt.renderAll]
  | cons s ss ih => simp [Stmt.renderAll, ih]

end StackScript
