import StackScript.Proofs.Program.Reading
import StackScript.Proofs.Program.Spelling

/-!
# Where printed expressions begin and end

The lexemes of a printed expression begin with one of a few, and the expression ends in front of
whatever does not go on with it. Operators and element accesses are printed between parentheses, so
that nearly every part ends like that. A callee does not: its calls are read from the inside out, so
that what is known of it is how reading goes on behind it.
-/

namespace StackScript

open Lexeme Parse

namespace Lexeme

/-- The lexemes that go on with an operand in front of them. -/
def applications : List Lexeme :=
  [.mark .openParen, .mark .openBracket, .keyword .alternative]

/-- The lexemes that go on with an expression in front of them. -/
def continuations : List Lexeme :=
  applications ++ [.mark .assign, .mark .equal, .mark .notEqual, .mark .less, .mark .greater,
    .mark .plus, .mark .minus, .mark .star, .mark .slash]

/-- An expression ends in front of these lexemes. -/
def Stops (rest : List Lexeme) : Prop :=
  ∀ t ∈ rest.head?, t ∉ continuations

theorem stops_nil : Stops [] :=
  nofun

@[simp] theorem stops_cons_iff {t : Lexeme} {rest : List Lexeme} :
    Stops (t :: rest) ↔ t ∉ continuations := by
  simp [Stops]

theorem Stops.head_ne {rest : List Lexeme} {other : Lexeme} (h : Stops rest)
    (ho : other ∈ continuations) : ∀ t ∈ rest.head?, t ≠ other := by
  rintro t ht rfl
  exact h t ht ho

theorem Stops.not_mem_applications {rest : List Lexeme} (h : Stops rest) :
    ∀ t ∈ rest.head?, t ∉ applications :=
  fun t ht hm => h t ht (List.mem_append_left _ hm)

theorem operator?_of_not_mem {t : Lexeme} (h : t ∉ continuations) :
    ∀ tier ∈ tiers, tier.operator? t = none := by
  cases t with
  | mark m =>
      revert h
      cases m <;> decide
  | _ => exact fun _ _ => rfl

/-- The lexemes that the text of an expression begins with. -/
def startsExpr : Lexeme → Bool
  | .integer _ | .text _ | .name _ => true
  | .keyword word => word ∈ [Keyword.truth, .falsity, .condition, .function]
  | .mark m => m ∈ [Mark.openParen, .openBracket, .openBrace]
  | .unclosedText | .illegal _ => false

theorem ofLexeme?_of_startsExpr {t : Lexeme} (h : t.startsExpr = true) :
    UnaryOp.ofLexeme? t = none := by
  cases t with
  | mark m =>
      revert h
      cases m <;> decide
  | _ => rfl

/-- The lexemes that the text of a statement begins with. -/
def startsStmt (t : Lexeme) : Bool :=
  t.startsExpr || t ∈ [Lexeme.keyword .binding, .keyword .result]

/-- Some lexemes begin with one of a class. -/
def First (starts : Lexeme → Bool) (lexemes : List Lexeme) : Prop :=
  ∃ t ts, lexemes = t :: ts ∧ starts t = true

theorem First.head {starts : Lexeme → Bool} {lexemes : List Lexeme} (h : First starts lexemes) :
    ∀ t ∈ lexemes.head?, starts t = true := by
  obtain ⟨t, ts, rfl, hstarts⟩ := h
  rintro t' ⟨⟩
  exact hstarts

/-- Lexemes that begin with one of a class do not begin with one that is not of it. -/
theorem First.head_ne {starts : Lexeme → Bool} {lexemes : List Lexeme} {other : Lexeme}
    (h : First starts lexemes) (ho : starts other = false) : ∀ t ∈ lexemes.head?, t ≠ other := by
  rintro t ht rfl
  exact Bool.false_ne_true (ho.symm.trans (h.head t ht))

theorem First.ne_nil {starts : Lexeme → Bool} {lexemes : List Lexeme} (h : First starts lexemes) :
    lexemes ≠ [] := by
  obtain ⟨t, ts, rfl, -⟩ := h
  exact List.cons_ne_nil t ts

theorem First.append {starts : Lexeme → Bool} {lexemes : List Lexeme} (h : First starts lexemes)
    (more : List Lexeme) : First starts (lexemes ++ more) := by
  obtain ⟨t, ts, rfl, hstarts⟩ := h
  exact ⟨t, ts ++ more, rfl, hstarts⟩

theorem First.separated {starts : Lexeme → Bool} {item : List Lexeme} (h : First starts item)
    (items : List (List Lexeme)) : First starts (separated (item :: items)) := by
  cases items with
  | nil =>
      rw [separated_singleton]
      exact h
  | cons next items =>
      rw [separated_cons_cons]
      exact h.append _

end Lexeme

theorem Expr.first_lexemes : (expr : Expr) → First startsExpr expr.lexemes
  | .name _ | .integer _ | .text _ | .unary _ _ | .binary _ _ _ | .condition _ _ _
  | .function _ _ _ | .array _ | .hash _ | .index _ _ => ⟨_, _, rfl, rfl⟩
  | .boolean value => by cases value <;> exact ⟨_, _, rfl, rfl⟩
  | .call callee _ => callee.first_lexemes.append _

theorem Stmt.first_lexemes (stmt : Stmt) : First startsStmt stmt.lexemes := by
  cases stmt with
  | binding | assign => exact ⟨_, _, rfl, rfl⟩
  | result value => cases value <;> exact ⟨_, _, rfl, rfl⟩
  | expr value =>
      obtain ⟨t, ts, hlexemes, hstarts⟩ := value.first_lexemes
      exact ⟨t, ts, hlexemes, by rw [startsStmt, hstarts, Bool.true_or]⟩

/-- No expression begins like an assignment. -/
theorem Expr.lexemes_ne_assign {rest : List Lexeme} (hr : ∀ t ∈ rest.head?, t ≠ .mark .assign)
    (id : String) (others : List Lexeme) :
    (expr : Expr) → expr.lexemes ++ rest ≠ .name id :: .mark .assign :: others
  | .name _ => by
      intro heq
      obtain ⟨-, rfl⟩ := List.cons.inj heq
      exact hr _ rfl rfl
  | .integer _ | .text _ | .boolean _ | .unary _ _ | .binary _ _ _ | .condition _ _ _
  | .function _ _ _ | .array _ | .hash _ | .index _ _ => nofun
  | .call callee arguments => by
      rw [Expr.lexemes, List.append_assoc]
      apply callee.lexemes_ne_assign
      simp

/-! ## Operands and chains -/

/-- Reading a legible expression comes to what follows with that expression as the head. -/
def Expr.Readable (expr : Expr) : Prop :=
  expr.Legible → ∀ rest rest' value, (∀ t ∈ rest.head?, t ≠ .keyword .alternative) →
    (∀ n (h : rest.length < n), (appliedOnto expr rest h).Reads value rest') →
    (applied (expr.lexemes ++ rest)).Reads value rest'

/-- Lexemes are read as an expression in front of what does not go on with it. -/
def Lexeme.ReadsAs (lexemes : List Lexeme) (expr : Expr) : Prop :=
  ∀ rest, Stops rest → (expression (lexemes ++ rest)).Reads expr rest

/-- An expression is read in front of what does not go on with it. -/
def Expr.ReadsBack (expr : Expr) : Prop :=
  ∀ rest, Stops rest → (expression (expr.lexemes ++ rest)).Reads expr rest

theorem Expr.reads_unary {expr value : Expr} {rest rest' : List Lexeme}
    (h : (applied (expr.lexemes ++ rest)).Reads value rest') :
    (Parse.unary (expr.lexemes ++ rest)).Reads value rest' := by
  have hfirst := (expr.first_lexemes.append rest).head
  exact reads_unary_applied (fun t ht => ofLexeme?_of_startsExpr (hfirst t ht)) h

theorem reads_expression_of_unary {ts rest : List Lexeme} {value : Expr} (hr : Stops rest)
    (h : (unary ts).Reads value rest) : (expression ts).Reads value rest := by
  rw [expression]
  exact reads_chain_unary (fun tier hm t ht => operator?_of_not_mem (hr t ht) tier hm) h

/-- An expression is an operand of the operator that follows. -/
theorem Expr.Readable.operand {expr : Expr} (h : expr.Readable) (hl : expr.Legible)
    {rest : List Lexeme}
    (hr : ∀ t ∈ rest.head?, t ∉ applications) :
    (Parse.unary (expr.lexemes ++ rest)).Reads expr rest := by
  simp only [applications, List.mem_cons, List.not_mem_nil, or_false, not_or] at hr
  apply Expr.reads_unary
  apply h hl rest rest expr fun t ht => (hr t ht).2.2
  exact fun n hn => reads_appliedOnto_end fun t ht => ⟨(hr t ht).1, (hr t ht).2.1⟩

theorem Expr.Readable.readsBack {expr : Expr} (h : expr.Readable) (hl : expr.Legible) :
    expr.ReadsBack := by
  intro rest hr
  apply reads_expression_of_unary hr
  exact h.operand hl hr.not_mem_applications

/-- An expression between parentheses is read as itself. -/
theorem reads_primary_of_expression {ts rest : List Lexeme} {value : Expr}
    (h : ∀ rest, Stops rest → (expression (ts ++ rest)).Reads value rest) :
    (primary (.mark .openParen :: (ts ++ .mark .closeParen :: rest))).Reads value rest := by
  apply reads_primary_parenthesized
  apply h
  exact stops_cons_iff.mpr (by decide)

/-- Every operator is one of some tier, and not of the tighter ones. -/
theorem BinaryOp.exists_tier (op : BinaryOp) :
    ∃ looser tier tighter, tiers = looser ++ tier :: tighter ∧
      tier.operator? (.mark op.mark) = some op ∧
      ∀ other ∈ tighter, other.operator? (.mark op.mark) = none := by
  cases op
  case equal | notEqual => exact ⟨[], _, _, rfl, rfl, by decide⟩
  case less | greater => exact ⟨[_], _, _, rfl, rfl, by decide⟩
  case add | subtract => exact ⟨[_, _], _, _, rfl, rfl, by decide⟩
  case multiply | divide => exact ⟨[_, _, _], _, _, rfl, rfl, by decide⟩

theorem Expr.Readable.binary_operands {op : BinaryOp} {left right : Expr} (hl : left.Readable)
    (hr : right.Readable) (h : left.Legible ∧ right.Legible) {rest : List Lexeme}
    (hs : Stops rest) :
    (expression (left.lexemes ++ .mark op.mark :: (right.lexemes ++ rest))).Reads
      (.binary op left right) rest := by
  obtain ⟨looser, tier, tighter, htiers, hop, htighter⟩ := op.exists_tier
  have hnone : ∀ tier ∈ tiers, ∀ t ∈ rest.head?, tier.operator? t = none :=
    fun tier hm t ht => operator?_of_not_mem (hs t ht) tier hm
  rw [htiers, List.forall_mem_append, List.forall_mem_cons] at hnone
  have hleft : (chain tighter (left.lexemes ++ .mark op.mark :: (right.lexemes ++ rest))).Reads left
      (.mark op.mark :: (right.lexemes ++ rest)) := by
    apply reads_chain_unary
    · rintro other hm t ⟨⟩
      exact htighter other hm
    · apply hl.operand h.1
      rintro t ⟨⟩
      cases op <;> decide
  have hright : (chain tighter (right.lexemes ++ rest)).Reads right rest := by
    apply reads_chain_unary hnone.2.2
    exact hr.operand h.2 hs.not_mem_applications
  rw [expression, htiers]
  exact reads_chain_append hnone.1 (reads_chain_binary hop hleft hright hnone.2.1)

end StackScript
