import StackScript.Program.Reader
import StackScript.Proofs.Program.Boundary

/-!
# Chains of operators

Operands with binary operators between them are read as a tree that has them in the same order. An
operator stands above those that bind more tightly, and above those in front of it that bind as
tightly.

## Implementation notes

A tier reads as many steps of a chain as its operators and those of the tighter tiers reach. The
chain is cut there, and the looser tiers go on behind the cut.
-/

namespace StackScript

open Lexeme Parse

/-- How tightly an operator binds its operands. -/
def BinaryOp.strength : BinaryOp → Nat
  | equal | notEqual => 0
  | less | greater => 1
  | add | subtract => 2
  | multiply | divide => 3

/-- A name or an integer in range, as it is written and as it is read. -/
inductive IsAtom : Lexeme → Expr → Prop
  | name (id : String) : IsAtom (.name id) (.name id)
  | integer {digits : String} {value : Int64} (h : integerLiteral? digits = some value) :
    IsAtom (.integer digits) (.integer value)

/-- A name or an integer with unary operators in front. -/
structure Operand where
  signs : List UnaryOp
  lexeme : Lexeme
  atom : Expr
  isAtom : IsAtom lexeme atom

namespace Operand

def lexemes (operand : Operand) : List Lexeme :=
  operand.signs.map (fun op => .mark op.mark) ++ [operand.lexeme]

def expr (operand : Operand) : Expr :=
  operand.signs.foldr .unary operand.atom

end Operand

/-- An operand, and binary operators with the operands behind them. -/
structure Chain where
  first : Operand
  steps : List (BinaryOp × Operand)

namespace Chain

/-- The lexemes of some steps. -/
def stepLexemes (steps : List (BinaryOp × Operand)) : List Lexeme :=
  steps.flatMap fun step => .mark step.1.mark :: step.2.lexemes

def lexemes (chain : Chain) : List Lexeme :=
  chain.first.lexemes ++ stepLexemes chain.steps

/-- The operands and operators from left to right. -/
def inOrder (chain : Chain) : List (Expr ⊕ BinaryOp) :=
  .inl chain.first.expr :: chain.steps.flatMap fun step => [.inr step.1, .inl step.2.expr]

end Chain

namespace Expr

/-- The operands and operators of a tree of binary operators from left to right. -/
def inOrder : Expr → List (Expr ⊕ BinaryOp)
  | .binary op left right => left.inOrder ++ .inr op :: right.inOrder
  | expr => [.inl expr]

/-- The binary operators of a tree from left to right. -/
def operators : Expr → List BinaryOp
  | .binary op left right => left.operators ++ op :: right.operators
  | _ => []

/-- The operators on the left of each operator bind at least as tightly, and those on its right bind
more tightly. -/
def WellBound : Expr → Prop
  | .binary op left right =>
    (∀ other ∈ left.operators, op.strength ≤ other.strength) ∧
      (∀ other ∈ right.operators, op.strength < other.strength) ∧ left.WellBound ∧ right.WellBound
  | _ => True

end Expr

/-- A tree has the operands and operators of a chain in their order and is well bound. -/
structure Chain.IsReadAs (chain : Chain) (tree : Expr) : Prop where
  inOrder : tree.inOrder = chain.inOrder
  wellBound : tree.WellBound

/-! ## Operands -/

theorem IsAtom.inOrder {lexeme : Lexeme} {atom : Expr} (h : IsAtom lexeme atom) :
    atom.inOrder = [.inl atom] ∧ atom.WellBound := by
  cases h <;> exact ⟨rfl, trivial⟩

theorem IsAtom.reads {lexeme : Lexeme} {atom : Expr} (h : IsAtom lexeme atom)
    {rest : List Lexeme} (hr : ∀ t ∈ rest.head?, t ∉ applications) :
    (unary (lexeme :: rest)).Reads atom rest := by
  have hend : ∀ h : rest.length < (lexeme :: rest).length, (appliedOnto atom rest h).Reads atom rest := by
    intro hlt
    apply reads_appliedOnto_end
    intro t ht
    constructor
    · rintro rfl
      exact hr _ ht (by decide)
    · rintro rfl
      exact hr _ ht (by decide)
  apply reads_unary_applied
  · rintro t ⟨⟩
    cases h <;> rfl
  · apply reads_applied _ hend
    cases h with
    | name id => exact reads_primary_name id rest
    | integer hvalue => exact reads_primary_integer hvalue rest

namespace Operand

theorem inOrder_expr (operand : Operand) :
    operand.expr.inOrder = [.inl operand.expr] ∧ operand.expr.WellBound := by
  obtain ⟨signs, lexeme, atom, hatom⟩ := operand
  cases signs with
  | nil => exact hatom.inOrder
  | cons op signs => exact ⟨rfl, trivial⟩

/-- An operand is read with its operators in front, where no call or element access follows. -/
theorem reads (operand : Operand) {rest : List Lexeme} (hr : ∀ t ∈ rest.head?, t ∉ applications) :
    (unary (operand.lexemes ++ rest)).Reads operand.expr rest := by
  obtain ⟨signs, lexeme, atom, hatom⟩ := operand
  induction signs with
  | nil => exact hatom.reads hr
  | cons op signs ih =>
      have hop : UnaryOp.ofLexeme? (.mark op.mark) = some op := by cases op <;> rfl
      exact reads_unary_operator hop ih

end Operand

/-! ## Trees -/

theorem Expr.operators_eq (expr : Expr) :
    expr.operators = expr.inOrder.filterMap Sum.getRight? := by
  fun_induction Expr.operators expr with
  | case1 op left right ihl ihr => simp [Expr.inOrder, ihl, ihr]
  | case2 expr h =>
      rw [Expr.inOrder]
      · rfl
      · exact h

namespace Chain.IsReadAs

theorem operators_eq {chain : Chain} {tree : Expr} (h : chain.IsReadAs tree) :
    tree.operators = chain.steps.map Prod.fst := by
  have hsteps : ∀ steps : List (BinaryOp × Operand),
      (steps.flatMap fun step => [Sum.inr step.1, Sum.inl step.2.expr]).filterMap
        (Sum.getRight? (α := Expr)) = steps.map Prod.fst := by
    intro steps
    induction steps with
    | nil => rfl
    | cons step steps ih =>
        rw [List.flatMap_cons, List.filterMap_append, ih]
        rfl
  rw [Expr.operators_eq, h.inOrder]
  exact hsteps chain.steps

theorem operand (operand : Operand) : (Chain.mk operand []).IsReadAs operand.expr :=
  ⟨operand.inOrder_expr.1, operand.inOrder_expr.2⟩

/-- An operator joins two trees, if the one in front has only operators that bind as tightly and the
one behind only operators that bind more tightly. -/
theorem binary {first operand : Operand} {front back : List (BinaryOp × Operand)} {op : BinaryOp}
    {left right : Expr} (hl : (Chain.mk first front).IsReadAs left)
    (hr : (Chain.mk operand back).IsReadAs right)
    (hfront : ∀ step ∈ front, op.strength ≤ step.1.strength)
    (hback : ∀ step ∈ back, op.strength < step.1.strength) :
    (Chain.mk first (front ++ (op, operand) :: back)).IsReadAs (.binary op left right) := by
  constructor
  case inOrder =>
    rw [Expr.inOrder, hl.inOrder, hr.inOrder]
    simp [Chain.inOrder]
  case wellBound =>
    refine ⟨?_, ?_, hl.wellBound, hr.wellBound⟩
    · rw [hl.operators_eq, List.forall_mem_map]
      exact hfront
    · rw [hr.operators_eq, List.forall_mem_map]
      exact hback

end Chain.IsReadAs

/-! ## Tiers -/

theorem operator?_mark {k : Nat} (hk : k < tiers.length) (op : BinaryOp) :
    tiers[k].operator? (.mark op.mark) = if op.strength = k then some op else none := by
  match k, hk with
  | 0, _ | 1, _ | 2, _ | 3, _ => cases op <;> rfl

theorem Chain.stepLexemes_cons (op : BinaryOp) (operand : Operand)
    (steps : List (BinaryOp × Operand)) (rest : List Lexeme) :
    stepLexemes ((op, operand) :: steps) ++ rest =
      .mark op.mark :: (operand.lexemes ++ (stepLexemes steps ++ rest)) := by
  simp [stepLexemes]

/-- The operator of a step follows, or what ends the chain. -/
theorem not_mem_applications_steps {rest : List Lexeme} (hr : Stops rest) :
    (steps : List (BinaryOp × Operand)) →
      ∀ t ∈ (Chain.stepLexemes steps ++ rest).head?, t ∉ applications
  | [] => hr.not_mem_applications
  | (op, operand) :: steps => by
      rw [Chain.stepLexemes_cons]
      rintro t ⟨⟩
      cases op <;> decide

/-- The tiers from the `k`-th on read the steps of a chain up to the first operator of a looser
tier. -/
def TiersRead (k : Nat) : Prop :=
  ∀ (first : Operand) (steps : List (BinaryOp × Operand)) (rest : List Lexeme), Stops rest →
    ∃ front back tree, steps = front ++ back ∧ (∀ step ∈ front, k ≤ step.1.strength) ∧
      (∀ step ∈ back.head?, step.1.strength < k) ∧ (Chain.mk first front).IsReadAs tree ∧
      (chain (tiers.drop k) (first.lexemes ++ (Chain.stepLexemes steps ++ rest))).Reads tree
        (Chain.stepLexemes back ++ rest)

theorem tiersRead_length : TiersRead tiers.length := by
  intro first steps rest hr
  refine ⟨[], steps, first.expr, rfl, List.forall_mem_nil _, ?_, .operand first, ?_⟩
  · intro step _
    cases step.1 <;> decide
  · rw [List.drop_length]
    exact reads_chain_unary nofun (first.reads (not_mem_applications_steps hr steps))

/-- The loop of a tier reads steps of its own and of the tighter tiers behind a tree of such. -/
theorem reads_chainOnto_steps {k : Nat} (hk : k < tiers.length) (h : TiersRead (k + 1)) {first : Operand}
    {rest : List Lexeme} (hr : Stops rest) (seen steps : List (BinaryOp × Operand)) {left : Expr}
    (hleft : (Chain.mk first seen).IsReadAs left) (hseen : ∀ step ∈ seen, k ≤ step.1.strength)
    (hhead : ∀ step ∈ steps.head?, step.1.strength < k + 1) :
    ∃ front back tree, steps = front ++ back ∧ (∀ step ∈ front, k ≤ step.1.strength) ∧
      (∀ step ∈ back.head?, step.1.strength < k) ∧
      (Chain.mk first (seen ++ front)).IsReadAs tree ∧
      ∀ n (hlt : (Chain.stepLexemes steps ++ rest).length < n),
        (Parse.chainOnto tiers[k] (tiers.drop (k + 1)) left (Chain.stepLexemes steps ++ rest) hlt).Reads
          tree (Chain.stepLexemes back ++ rest) := by
  match steps with
  | [] =>
      rw [← List.append_nil seen] at hleft
      refine ⟨[], [], left, rfl, List.forall_mem_nil _, by simp, hleft, fun n hlt => ?_⟩
      apply reads_chainOnto_end
      exact fun t ht => operator?_of_not_mem (hr t ht) _ (List.getElem_mem hk)
  | (op, operand) :: steps =>
      have hop := operator?_mark hk op
      by_cases hstrength : op.strength = k
      case neg =>
          have hlt : op.strength < k := Nat.lt_of_le_of_ne (Nat.le_of_lt_succ (hhead _ rfl)) hstrength
          rw [if_neg hstrength] at hop
          rw [← List.append_nil seen] at hleft
          refine ⟨[], (op, operand) :: steps, left, rfl, List.forall_mem_nil _, ?_, hleft, ?_⟩
          · rintro step ⟨⟩
            exact hlt
          · intro n hlt
            apply reads_chainOnto_end
            rintro t ⟨⟩
            exact hop
      case pos =>
          rw [if_pos hstrength] at hop
          obtain ⟨inner, outer, right, rfl, hinner, houter, hright, hreads⟩ := h operand steps rest hr
          have hbefore : ∀ step ∈ seen, op.strength ≤ step.1.strength := hstrength ▸ hseen
          have hbehind : ∀ step ∈ inner, op.strength < step.1.strength := hstrength ▸ hinner
          have hjoined := hleft.binary hright hbefore hbehind
          have hall : ∀ step ∈ seen ++ (op, operand) :: inner, k ≤ step.1.strength := by
            simp only [List.forall_mem_append, List.forall_mem_cons]
            exact ⟨hseen, Nat.le_of_eq hstrength.symm, fun step hm => Nat.le_of_lt (hinner step hm)⟩
          obtain ⟨front, back, tree, rfl, hfront, hback, htree, hloop⟩ :=
            reads_chainOnto_steps hk h hr _ outer hjoined hall houter
          refine ⟨(op, operand) :: (inner ++ front), back, tree, by simp, ?_, hback, ?_, ?_⟩
          · rw [List.forall_mem_append, List.forall_mem_cons] at hall
            rw [List.forall_mem_cons, List.forall_mem_append]
            exact ⟨hall.2.1, hall.2.2, hfront⟩
          · rwa [List.append_assoc] at htree
          · simp only [Chain.stepLexemes_cons]
            exact fun n _ => reads_chainOnto_operator hop hreads fun hlt => hloop n hlt
termination_by steps.length

/-- A tier reads an operand of the tighter tiers, and further steps behind it. -/
theorem TiersRead.looser {k : Nat} (hk : k < tiers.length) (h : TiersRead (k + 1)) : TiersRead k := by
  intro first steps rest hr
  obtain ⟨inner, outer, left, rfl, hinner, houter, hleft, hreads⟩ := h first steps rest hr
  have hweaker : ∀ step ∈ inner, k ≤ step.1.strength := fun step hm => Nat.le_of_lt (hinner step hm)
  obtain ⟨front, back, tree, rfl, hfront, hback, htree, hloop⟩ :=
    reads_chainOnto_steps hk h hr inner outer hleft hweaker houter
  refine ⟨inner ++ front, back, tree, (List.append_assoc _ _ _).symm, ?_, hback, htree, ?_⟩
  · rw [List.forall_mem_append]
    exact ⟨hweaker, hfront⟩
  · rw [List.drop_eq_getElem_cons hk, chain]
    exact hreads.andThen fun hlt => hloop _ hlt

/-- A chain is read as one of its trees, up to what ends it. -/
theorem reads_expression_chain (chain : Chain) {rest : List Lexeme} (hr : Stops rest) :
    ∃ tree, chain.IsReadAs tree ∧ (expression (chain.lexemes ++ rest)).Reads tree rest := by
  have h3 : TiersRead 3 := .looser (by decide) tiersRead_length
  have h2 : TiersRead 2 := h3.looser (by decide)
  have h1 : TiersRead 1 := h2.looser (by decide)
  have h0 : TiersRead 0 := h1.looser (by decide)
  obtain ⟨first, steps⟩ := chain
  obtain ⟨front, back, tree, rfl, -, hback, htree, hreads⟩ := h0 first steps rest hr
  cases back with
  | cons step back => exact absurd (hback step rfl) (Nat.not_lt_zero _)
  | nil =>
      rw [List.append_nil] at hreads ⊢
      refine ⟨tree, htree, ?_⟩
      rw [Chain.lexemes, List.append_assoc, expression]
      exact hreads

/-- A reader whose lexemes are an expression reads it and is at the end then. -/
theorem Reader.expression_of_reads {reader : Reader} {value : Expr}
    (h : (Parse.expression reader.lexemes).Reads value []) :
    reader.expression = (.ok value, ⟨[], reader.stop⟩) := by
  have hread : (Parse.expression reader.lexemes).val = .ok value [] := h
  have hlast : reader.last 0 = ⟨[], reader.stop⟩ := by
    rw [last, Nat.sub_zero, List.drop_length]
  rw [Reader.expression, read, hread]
  exact congrArg (Except.ok value, ·) hlast

/-- A source that consists of a chain is read as a tree of it. The tree has a node for each operator,
in order it is the chain, and it is well bound. -/
theorem Reader.expression_chain {source : String} (chain : Chain)
    (h : (Reader.ofSource source).lexemes = chain.lexemes) :
    ∃ tree, (Reader.ofSource source).expression = (.ok tree, ⟨[], source.utf8ByteSize⟩) ∧
      tree.operators.length = chain.steps.length ∧ tree.inOrder = chain.inOrder ∧ tree.WellBound := by
  obtain ⟨tree, htree, hreads⟩ := reads_expression_chain chain stops_nil
  rw [List.append_nil, ← h] at hreads
  have hnodes : tree.operators.length = chain.steps.length := by
    rw [htree.operators_eq, List.length_map]
  exact ⟨tree, expression_of_reads hreads, hnodes, htree.inOrder, htree.wellBound⟩

/-- All tiers occur, looser ones behind tighter ones and the other way round. -/
theorem Reader.expression_chain_mixed :
    let operand (signs : List UnaryOp) (id : String) : Operand := ⟨signs, _, _, .name id⟩
    let two : IsAtom (.integer "2") (.integer 2) := .integer (by decide)
    let chain : Chain := ⟨operand [.minus] "a", [(.multiply, ⟨[], _, _, two⟩),
      (.add, operand [.not, .minus] "b"), (.equal, operand [] "c"), (.less, operand [] "d"),
      (.subtract, operand [.minus] "e"), (.divide, operand [] "f"), (.notEqual, operand [] "g")]⟩
    let source := "-a*2 + !-b == c<d - -e/f != g"
    (Reader.ofSource source).lexemes = chain.lexemes ∧
      ∃ tree, (Reader.ofSource source).expression = (.ok tree, ⟨[], source.utf8ByteSize⟩) ∧
        tree.operators.length = chain.steps.length ∧ tree.inOrder = chain.inOrder ∧
        tree.WellBound := by
  intro operand two chain source
  have hlexemes : (Reader.ofSource source).lexemes = chain.lexemes := by decide +kernel
  exact ⟨hlexemes, Reader.expression_chain chain hlexemes⟩

end StackScript
