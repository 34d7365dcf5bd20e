import StackScript.Program.Grammar

/-!
# What the forms of the grammar read

Reading a form gives a value and leaves a rest. What a form reads follows from what its parts read
and from the first lexeme behind it: an expression is at its end where no call, element access or
operator follows.
-/

namespace StackScript

namespace Parse

variable {α β : Type} {m n : Nat} {ts rest rest' : List Lexeme}

/-- Parsing gives a value and leaves a rest. -/
def Reads (parse : Parse α n) (value : α) (rest : List Lexeme) : Prop :=
  parse.val = .ok value rest

attribute [local simp] items openStatement parameters pairsOnto primary statementsOnto

@[simp] theorem reads_ok (value : α) (h : rest.length < n) : (ok value rest h).Reads value rest :=
  rfl

theorem Reads.andThen {parse : Parse α m} {value : α} {result : β}
    {next : (value : α) → (rest : List Lexeme) → rest.length < m → Parse β n} {h : m ≤ n}
    (hp : parse.Reads value rest) (hn : ∀ hlt, (next value rest hlt).Reads result rest') :
    (parse.andThen next h).Reads result rest' := by
  obtain ⟨outcome, hfits⟩ := parse
  obtain rfl : outcome = .ok value rest := hp
  exact hn hfits

theorem Reads.map {parse : Parse α m} {value : α} {h : m ≤ n} (hp : parse.Reads value rest)
    (f : α → β) : (parse.map f h).Reads (f value) rest :=
  hp.andThen fun _ => reads_ok _ _

theorem reads_mark (wanted : Mark) (ts : List Lexeme) :
    (mark wanted (.mark wanted :: ts)).Reads () ts := by
  rw [Reads, mark, if_pos rfl]
  rfl

/-! ## Operators -/

theorem reads_unary_operator {t : Lexeme} {op : UnaryOp} {argument : Expr}
    (hop : UnaryOp.ofLexeme? t = some op) (h : (unary ts).Reads argument rest) :
    (unary (t :: ts)).Reads (.unary op argument) rest := by
  rw [unary]
  split
  case h_1 op' heq =>
      obtain rfl : op = op' := Option.some.inj (hop.symm.trans heq)
      exact h.map _
  case h_2 heq => cases hop.symm.trans heq

theorem reads_unary_applied {value : Expr} (hop : ∀ t ∈ ts.head?, UnaryOp.ofLexeme? t = none)
    (h : (applied ts).Reads value rest) : (unary ts).Reads value rest := by
  cases ts with
  | nil =>
      rw [unary]
      exact h
  | cons t ts =>
      rw [unary]
      split
      case h_1 heq => cases (hop t rfl).symm.trans heq
      case h_2 => exact h

/-- A chain ends where no operator of its tier follows. -/
theorem reads_chainOnto_end {tier : Tier} {tighter : List Tier} {left : Expr} {h : rest.length < n}
    (hn : ∀ t ∈ rest.head?, tier.operator? t = none) :
    (chainOnto tier tighter left rest h).Reads left rest := by
  cases rest with
  | nil =>
      rw [chainOnto]
      rfl
  | cons t rest =>
      rw [chainOnto]
      split
      case h_1 => rfl
      case h_2 heq => cases (hn t rfl).symm.trans heq

/-- A chain goes on with an operator of its tier and a further operand. -/
theorem reads_chainOnto_operator {tier : Tier} {tighter : List Tier} {t : Lexeme} {op : BinaryOp}
    {left right value : Expr} {h : (t :: ts).length < n} (hop : tier.operator? t = some op)
    (hr : (chain tighter ts).Reads right rest)
    (hn : ∀ h : rest.length < n,
      (chainOnto tier tighter (.binary op left right) rest h).Reads value rest') :
    (chainOnto tier tighter left (t :: ts) h).Reads value rest' := by
  rw [chainOnto]
  split
  case h_1 heq => cases hop.symm.trans heq
  case h_2 op' heq =>
      obtain rfl : op = op' := Option.some.inj (hop.symm.trans heq)
      exact hr.andThen fun _ => hn _

/-- A chain of tighter tiers is one of looser tiers too, where no operator of these follows. -/
theorem reads_chain_append {looser remaining : List Tier} {value : Expr}
    (hn : ∀ tier ∈ looser, ∀ t ∈ rest.head?, tier.operator? t = none)
    (h : (chain remaining ts).Reads value rest) :
    (chain (looser ++ remaining) ts).Reads value rest := by
  induction looser with
  | nil => exact h
  | cons tier looser ih =>
      rw [List.forall_mem_cons] at hn
      rw [List.cons_append, chain]
      exact (ih hn.2).andThen fun _ => reads_chainOnto_end hn.1

/-- An operand is a chain of every tier, where no operator follows. -/
theorem reads_chain_unary {remaining : List Tier} {value : Expr}
    (hn : ∀ tier ∈ remaining, ∀ t ∈ rest.head?, tier.operator? t = none)
    (h : (unary ts).Reads value rest) : (chain remaining ts).Reads value rest := by
  rw [← List.append_nil remaining]
  apply reads_chain_append hn
  rw [chain]
  exact h

/-- A binary expression is a chain of the tier of its operator. -/
theorem reads_chain_binary {tier : Tier} {tighter : List Tier} {t : Lexeme} {op : BinaryOp}
    {left right : Expr} {middle : List Lexeme} (hop : tier.operator? t = some op)
    (hl : (chain tighter ts).Reads left (t :: middle))
    (hr : (chain tighter middle).Reads right rest)
    (hn : ∀ t ∈ rest.head?, tier.operator? t = none) :
    (chain (tier :: tighter) ts).Reads (.binary op left right) rest := by
  rw [chain]
  exact hl.andThen fun _ => reads_chainOnto_operator hop hr fun _ => reads_chainOnto_end hn

/-! ## Calls and element accesses -/

theorem reads_appliedOnto_end {head : Expr} {h : rest.length < n}
    (hn : ∀ t ∈ rest.head?, t ≠ .mark .openParen ∧ t ≠ .mark .openBracket) :
    (appliedOnto head rest h).Reads head rest := by
  unfold appliedOnto
  split
  case h_1 => exact absurd rfl (hn _ rfl).1
  case h_2 => exact absurd rfl (hn _ rfl).2
  case h_3 => rfl

theorem reads_appliedOnto_call {head value : Expr} {arguments : List Expr}
    {h : (Lexeme.mark .openParen :: ts).length < n}
    (ha : (items .closeParen ts).Reads arguments rest)
    (hn : ∀ h : rest.length < n, (appliedOnto (.call head arguments) rest h).Reads value rest') :
    (appliedOnto head (.mark .openParen :: ts) h).Reads value rest' := by
  rw [appliedOnto]
  exact ha.andThen fun _ => hn _

theorem reads_appliedOnto_index {head position value : Expr}
    {h : (Lexeme.mark .openBracket :: ts).length < n}
    (hp : (expression ts).Reads position (.mark .closeBracket :: rest))
    (hn : ∀ h : rest.length < n, (appliedOnto (.index head position) rest h).Reads value rest') :
    (appliedOnto head (.mark .openBracket :: ts) h).Reads value rest' := by
  rw [appliedOnto]
  exact hp.andThen fun _ => (reads_mark _ _).andThen fun _ => hn _

theorem reads_applied {head value : Expr} (hp : (primary ts).Reads head rest)
    (hn : ∀ h : rest.length < ts.length, (appliedOnto head rest h).Reads value rest') :
    (applied ts).Reads value rest' := by
  rw [applied]
  exact hp.andThen hn

/-! ## Lists -/

theorem reads_items_nil (closing : Mark) (ts : List Lexeme) :
    (items closing (.mark closing :: ts)).Reads [] ts := by
  simp

theorem reads_items_cons {closing : Mark} {values : List Expr}
    (ht : ∀ t ∈ ts.head?, t ≠ .mark closing)
    (h : (itemsOnto closing [] ts (Nat.le_refl _)).Reads values rest) :
    (items closing ts).Reads values rest := by
  fun_cases items closing ts with
  | case1 => exact absurd rfl (ht _ rfl)
  | case2 found ts hne =>
      rw [items, if_neg hne]
      exact h
  | case3 =>
      rw [items]
      · exact h
      · assumption

theorem reads_itemsOnto_last {closing : Mark} {read : List Expr} {item : Expr} {h : ts.length ≤ n}
    (hc : closing ≠ .comma) (hi : (expression ts).Reads item (.mark closing :: rest)) :
    (itemsOnto closing read ts h).Reads (item :: read).reverse rest := by
  rw [itemsOnto]
  refine hi.andThen fun _ => ?_
  split
  case h_1 heq _ =>
      obtain ⟨hmark, -⟩ := List.cons.inj heq
      exact absurd (Lexeme.mark.inj hmark) hc
  case h_2 => exact (reads_mark _ _).map _

theorem reads_itemsOnto_comma {closing : Mark} {read values : List Expr} {item : Expr}
    {h : ts.length ≤ n} (hi : (expression ts).Reads item (.mark .comma :: rest))
    (hn : ∀ h : rest.length ≤ n, (itemsOnto closing (item :: read) rest h).Reads values rest') :
    (itemsOnto closing read ts h).Reads values rest' := by
  rw [itemsOnto]
  exact hi.andThen fun _ => hn _

theorem reads_pairsOnto_nil {read : List (Expr × Expr)}
    {h : (Lexeme.mark .closeBrace :: ts).length ≤ n} :
    (pairsOnto read (.mark .closeBrace :: ts) h).Reads read.reverse ts := by
  simp

/-- A pair is read before another one or before the end. -/
theorem reads_pairsOnto_cons {read : List (Expr × Expr)} {key value : Expr} {middle : List Lexeme}
    {pairs : List (Expr × Expr)} {h : ts.length ≤ n} (ht : ∀ t ∈ ts.head?, t ≠ .mark .closeBrace)
    (hk : (expression ts).Reads key (.mark .colon :: middle))
    (hv : (expression middle).Reads value rest)
    (hn : (rest = .mark .closeBrace :: rest' ∧ pairs = ((key, value) :: read).reverse) ∨
      ∃ others, rest = .mark .comma :: others ∧ ∀ h : others.length ≤ n,
        (pairsOnto ((key, value) :: read) others h).Reads pairs rest') :
    (pairsOnto read ts h).Reads pairs rest' := by
  unfold pairsOnto
  split
  case h_1 => exact absurd rfl (ht _ rfl)
  case h_2 =>
      refine hk.andThen fun _ => (reads_mark _ _).andThen fun _ => hv.andThen fun _ => ?_
      obtain ⟨rfl, rfl⟩ | ⟨others, rfl, hothers⟩ := hn
      · exact (reads_mark _ _).map _
      · exact hothers _

theorem reads_parameters_nil (ts : List Lexeme) :
    (parameters (.mark .closeParen :: ts)).Reads [] ts := by
  simp

theorem reads_parameters_cons {ids : List String} (ht : ∀ t ∈ ts.head?, t ≠ .mark .closeParen)
    (h : (parametersOnto [] ts (Nat.le_refl _)).Reads ids rest) :
    (parameters ts).Reads ids rest := by
  rw [parameters]
  · exact h
  · rintro others rfl
    exact ht _ rfl rfl

theorem reads_parametersOnto_last {read : List String} {id : String}
    {h : (Lexeme.name id :: .mark .closeParen :: ts).length ≤ n} :
    (parametersOnto read (.name id :: .mark .closeParen :: ts) h).Reads (id :: read).reverse ts := by
  unfold parametersOnto
  exact (reads_mark _ _).map _

theorem reads_parametersOnto_comma {read ids : List String} {id : String}
    {h : (Lexeme.name id :: .mark .comma :: ts).length ≤ n}
    (hn : ∀ h : ts.length ≤ n, (parametersOnto (id :: read) ts h).Reads ids rest) :
    (parametersOnto read (.name id :: .mark .comma :: ts) h).Reads ids rest := by
  rw [parametersOnto]
  exact hn _

/-! ## Statements -/

theorem reads_statement {stmt : Stmt} {middle : List Lexeme}
    (h : (openStatement ts).Reads stmt middle)
    (hs : middle = .mark .semicolon :: rest ∨
      (middle = rest ∧ ∀ t ∈ rest.head?, t ≠ .mark .semicolon)) :
    (statement ts).Reads stmt rest := by
  rw [statement]
  refine h.andThen fun hlt => ?_
  obtain rfl | ⟨rfl, hn⟩ := hs
  · rfl
  · unfold withSemicolon
    split
    case h_1 => exact absurd rfl (hn _ rfl)
    case h_2 => rfl

theorem reads_openStatement_binding (id : String) {value : Expr}
    (h : (expression ts).Reads value rest) :
    (openStatement (.keyword .binding :: .name id :: .mark .assign :: ts)).Reads
      (.binding id (value.named id)) rest := by
  rw [openStatement]
  have hname : (name (.name id :: .mark .assign :: ts)).Reads id (.mark .assign :: ts) := rfl
  exact hname.andThen fun _ => (reads_mark _ _).andThen fun _ => h.map _

theorem reads_openStatement_assign {id : String} {value : Expr}
    (h : (expression ts).Reads value rest) :
    (openStatement (.name id :: .mark .assign :: ts)).Reads (.assign id value) rest := by
  rw [openStatement]
  exact h.map _

theorem reads_openStatement_returnNull (ts : List Lexeme) :
    (openStatement (.keyword .result :: .mark .semicolon :: ts)).Reads (.result none)
      (.mark .semicolon :: ts) := by
  simp

theorem reads_openStatement_returnValue {value : Expr} (hne : ts ≠ [])
    (ht : ∀ t ∈ ts.head?, t ≠ .mark .semicolon ∧ t ≠ .mark .closeBrace)
    (h : (expression ts).Reads value rest) :
    (openStatement (.keyword .result :: ts)).Reads (.result (some value)) rest := by
  rw [openStatement]
  · exact h.map _
  · exact hne
  · rintro _ rfl
    exact (ht _ rfl).1 rfl
  · rintro _ rfl
    exact (ht _ rfl).2 rfl

theorem reads_openStatement_expr {value : Expr}
    (ht : ∀ t ∈ ts.head?, t ≠ .keyword .binding ∧ t ≠ .keyword .result)
    (ha : ∀ id others, ts ≠ .name id :: .mark .assign :: others)
    (h : (expression ts).Reads value rest) : (openStatement ts).Reads (.expr value) rest := by
  have hbinding : ∀ others, ts ≠ .keyword .binding :: others := by
    rintro others rfl
    exact (ht _ rfl).1 rfl
  have hresult : ∀ others, ts ≠ .keyword .result :: others := by
    rintro others rfl
    exact (ht _ rfl).2 rfl
  rw [openStatement]
  · exact h.map _
  · exact hbinding
  · exact hresult _
  · exact fun _ => hresult _
  · exact fun _ => hresult _
  · exact hresult
  · exact ha

theorem reads_statementsOnto_nil {read : List Stmt}
    {h : (Lexeme.mark .closeBrace :: ts).length ≤ n} :
    (statementsOnto read (.mark .closeBrace :: ts) h).Reads read.reverse ts := by
  simp

theorem reads_statementsOnto_cons {read stmts : List Stmt} {stmt : Stmt} {h : ts.length ≤ n}
    (hne : ts ≠ []) (ht : ∀ t ∈ ts.head?, t ≠ .mark .closeBrace)
    (hs : (statement ts).Reads stmt rest)
    (hn : ∀ h : rest.length ≤ n, (statementsOnto (stmt :: read) rest h).Reads stmts rest') :
    (statementsOnto read ts h).Reads stmts rest' := by
  unfold statementsOnto
  split
  case h_1 => exact absurd rfl (ht _ rfl)
  case h_2 => exact absurd rfl hne
  case h_3 => exact hs.andThen fun _ => hn _

theorem reads_block {stmts : List Stmt}
    (h : ∀ h : ts.length ≤ (Lexeme.mark .openBrace :: ts).length,
      (statementsOnto [] ts h).Reads stmts rest) :
    (block (.mark .openBrace :: ts)).Reads stmts rest := by
  rw [block]
  exact (reads_mark _ _).andThen fun _ => h _

/-- A program may be a single statement. -/
theorem program_single {stmt : Stmt} (hne : ts ≠ []) (h : (statement ts).Reads stmt []) :
    program ts = .ok [stmt] [] := by
  cases ts with
  | nil => exact absurd rfl hne
  | cons t ts =>
      unfold Reads at h
      rw [program, programOnto]
      generalize statement (t :: ts) = parse at h
      obtain ⟨outcome, hfits⟩ := parse
      obtain rfl : outcome = .ok stmt [] := h
      simp [programOnto]

/-! ## Primary expressions -/

theorem reads_primary_text (value : String) (ts : List Lexeme) :
    (primary (.text value :: ts)).Reads (.text value) ts := by
  simp

theorem reads_primary_boolean (value : Bool) (ts : List Lexeme) :
    (primary (.keyword (if value then .truth else .falsity) :: ts)).Reads (.boolean value) ts := by
  cases value <;> simp

theorem reads_primary_name (id : String) (ts : List Lexeme) :
    (primary (.name id :: ts)).Reads (.name id) ts := by
  simp

theorem reads_primary_integer {digits : String} {value : Int64}
    (h : integerLiteral? digits = some value) (ts : List Lexeme) :
    (primary (.integer digits :: ts)).Reads (.integer value) ts := by
  rw [primary]
  split
  case h_1 value' heq =>
      obtain rfl : value = value' := Option.some.inj (h.symm.trans heq)
      rfl
  case h_2 heq => cases h.symm.trans heq

theorem reads_primary_parenthesized {value : Expr}
    (h : (expression ts).Reads value (.mark .closeParen :: rest)) :
    (primary (.mark .openParen :: ts)).Reads value rest := by
  rw [primary]
  exact h.andThen fun _ => (reads_mark _ _).map _

theorem reads_primary_array {elements : List Expr} (h : (items .closeBracket ts).Reads elements rest) :
    (primary (.mark .openBracket :: ts)).Reads (.array elements) rest := by
  rw [primary]
  exact h.map _

theorem reads_primary_hash {pairs : List (Expr × Expr)}
    (h : (pairsOnto [] ts (Nat.le_refl _)).Reads pairs rest) :
    (primary (.mark .openBrace :: ts)).Reads (.hash pairs) rest := by
  rw [primary]
  exact h.map _

theorem reads_primary_condition {test : Expr} {consequent : List Stmt} {middle : List Lexeme}
    (ht : (expression ts).Reads test middle) (hc : (block middle).Reads consequent rest)
    (hn : ∀ t ∈ rest.head?, t ≠ .keyword .alternative) :
    (primary (.keyword .condition :: ts)).Reads (.condition test consequent none) rest := by
  rw [primary]
  refine ht.andThen fun _ => hc.andThen fun _ => ?_
  split
  case h_1 => exact absurd rfl (hn _ rfl)
  case h_2 => rfl

theorem reads_primary_alternative {test : Expr} {consequent alternative : List Stmt}
    {middle others : List Lexeme} (ht : (expression ts).Reads test middle)
    (hc : (block middle).Reads consequent (.keyword .alternative :: others))
    (ha : (block others).Reads alternative rest) :
    (primary (.keyword .condition :: ts)).Reads (.condition test consequent (some alternative))
      rest := by
  rw [primary]
  exact ht.andThen fun _ => hc.andThen fun _ => ha.map _

theorem reads_primary_function {params : List String} {body : List Stmt} {middle : List Lexeme}
    (hp : (parameters ts).Reads params middle) (hb : (block middle).Reads body rest) :
    (primary (.keyword .function :: .mark .openParen :: ts)).Reads (.function none params body)
      rest := by
  rw [primary]
  exact (reads_mark _ _).andThen fun _ => hp.andThen fun _ => hb.map _

end Parse

end StackScript
