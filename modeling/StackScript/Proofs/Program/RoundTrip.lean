import StackScript.Program.Reader
import StackScript.Proofs.Program.Boundary

/-!
# Printed expressions are read back

The text of a legible expression is read as that expression, and nothing of it is left. Lists and
blocks are read by induction on their items, and what every form reads follows from what its parts do.
-/

namespace StackScript

open Lexeme Parse

/-! ## Integers -/

theorem integerLiteral?_toInt {value : Int64} (h : 0 ≤ value.toInt) :
    integerLiteral? (toString value.toInt) = some value := by
  obtain ⟨n, hn⟩ := Int.eq_ofNat_of_zero_le h
  have hdecimal : decimalValue (toString value.toInt) = n := by
    rw [hn]
    show Nat.ofDigitChars 10 n.repr.toList 0 = n
    rw [Nat.toList_repr]
    exact Nat.ofDigitChars_toDigits (by decide) (by decide)
  have hbound : n ≤ maxInteger := by
    have hlt := value.toInt_lt
    rw [hn] at hlt
    rw [maxInteger]
    omega
  have hvalue : Int64.ofNat n = value := by
    rw [← Int64.ofInt_toInt value, hn]
    rfl
  rw [integerLiteral?, hdecimal, if_pos hbound, hvalue]

/-! ## Lists -/

section

variable {closing : Mark} (lexemes : α → List Lexeme) (expr : α → Expr)

/-- Expressions with commas between them are read up to the closing mark. -/
theorem reads_itemsOnto_each (hc : closing ≠ .comma) (hs : Lexeme.mark closing ∉ continuations)
    {first : α} {others : List α}
    (hread : ∀ item ∈ first :: others, ReadsAs (lexemes item) (expr item)) (rest : List Lexeme)
    {n : Nat} (read : List Expr)
    (h : (separated ((first :: others).map lexemes) ++ .mark closing :: rest).length ≤ n) :
    (itemsOnto closing read (separated ((first :: others).map lexemes) ++ .mark closing :: rest)
      h).Reads (read.reverse ++ (first :: others).map expr) rest := by
  induction others generalizing first read with
  | nil =>
      have hitem := hread first List.mem_cons_self (.mark closing :: rest) (stops_cons_iff.mpr hs)
      simp only [List.map_cons, List.map_nil, separated_singleton, ← List.reverse_cons]
      exact reads_itemsOnto_last hc hitem
  | cons next others ih =>
      rw [List.forall_mem_cons] at hread
      have hitem := hread.1 (.mark .comma :: (separated ((next :: others).map lexemes) ++
        .mark closing :: rest)) (stops_cons_iff.mpr (by decide))
      have hlexemes : separated ((first :: next :: others).map lexemes) ++ .mark closing :: rest =
          lexemes first ++ .mark .comma ::
            (separated ((next :: others).map lexemes) ++ .mark closing :: rest) := by
        simp
      simp only [hlexemes]
      refine reads_itemsOnto_comma hitem fun hle => ?_
      have hrest := ih hread.2 (expr first :: read) hle
      rw [List.reverse_cons, List.append_assoc] at hrest
      exact hrest

/-- Expressions up to a mark that none of them begins with. -/
theorem reads_items_each {starts : Lexeme → Bool} (hc : closing ∈ [Mark.closeParen, .closeBracket])
    (hstarts : starts (.mark closing) = false) {items : List α}
    (hfirst : ∀ item ∈ items, First starts (lexemes item))
    (hread : ∀ item ∈ items, ReadsAs (lexemes item) (expr item)) (rest : List Lexeme) :
    (Parse.items closing (separated (items.map lexemes) ++ .mark closing :: rest)).Reads
      (items.map expr) rest := by
  have hclosing : ∀ mark ∈ [Mark.closeParen, .closeBracket],
      mark ≠ .comma ∧ Lexeme.mark mark ∉ continuations := by
    decide
  obtain ⟨hcomma, hcontinues⟩ := hclosing closing hc
  cases items with
  | nil => exact reads_items_nil closing rest
  | cons first others =>
      have hhead : First starts
          (separated ((first :: others).map lexemes) ++ .mark closing :: rest) :=
        ((hfirst first List.mem_cons_self).separated _).append _
      apply reads_items_cons (hhead.head_ne hstarts)
      exact reads_itemsOnto_each lexemes expr hcomma hcontinues hread rest [] _

end

/-- The lexemes of a key and of a value with a colon between them. -/
def Lexeme.paired (lexemes : List Lexeme × List Lexeme) : List Lexeme :=
  lexemes.1 ++ .mark .colon :: lexemes.2

section

variable (lexemes : α → List Lexeme × List Lexeme) (exprs : α → Expr × Expr)

/-- Pairs with commas between them are read up to the closing brace. -/
theorem reads_pairsOnto_each {starts : Lexeme → Bool}
    (hstarts : starts (.mark .closeBrace) = false) {items : List α}
    (hfirst : ∀ item ∈ items, First starts (lexemes item).1)
    (hread : ∀ item ∈ items, ReadsAs (lexemes item).1 (exprs item).1 ∧
      ReadsAs (lexemes item).2 (exprs item).2) (rest : List Lexeme) {n : Nat}
    (read : List (Expr × Expr))
    (h : (separated (items.map fun item => paired (lexemes item)) ++
      .mark .closeBrace :: rest).length ≤ n) :
    (pairsOnto read (separated (items.map fun item => paired (lexemes item)) ++
      .mark .closeBrace :: rest) h).Reads (read.reverse ++ items.map exprs) rest := by
  induction items generalizing read with
  | nil =>
      simp only [List.map_nil, List.append_nil]
      exact reads_pairsOnto_nil
  | cons item items ih =>
      rw [List.forall_mem_cons] at hfirst hread
      obtain ⟨⟨hkey, hvalue⟩, hread⟩ := hread
      have hhead : First starts (separated ((item :: items).map fun item => paired (lexemes item)) ++
          .mark .closeBrace :: rest) :=
        ((hfirst.1.append _).separated _).append _
      cases items with
      | nil =>
          have hlexemes : separated ([item].map fun item => paired (lexemes item)) ++
              .mark .closeBrace :: rest = (lexemes item).1 ++ .mark .colon ::
                ((lexemes item).2 ++ .mark .closeBrace :: rest) := by
            simp [paired]
          rw [hlexemes] at hhead
          simp only [hlexemes]
          apply reads_pairsOnto_cons (hhead.head_ne hstarts)
            (hkey _ (stops_cons_iff.mpr (by decide))) (hvalue _ (stops_cons_iff.mpr (by decide)))
          exact Or.inl ⟨rfl, List.reverse_cons.symm⟩
      | cons next items =>
          have hlexemes : separated ((item :: next :: items).map fun item => paired (lexemes item)) ++
              .mark .closeBrace :: rest = (lexemes item).1 ++ .mark .colon :: ((lexemes item).2 ++
                .mark .comma :: (separated ((next :: items).map fun item => paired (lexemes item)) ++
                  .mark .closeBrace :: rest)) := by
            simp [paired]
          rw [hlexemes] at hhead
          simp only [hlexemes]
          apply reads_pairsOnto_cons (hhead.head_ne hstarts)
            (hkey _ (stops_cons_iff.mpr (by decide))) (hvalue _ (stops_cons_iff.mpr (by decide)))
          refine Or.inr ⟨_, rfl, fun hle => ?_⟩
          have hrest := ih hfirst.2 hread (exprs item :: read) hle
          rw [List.reverse_cons, List.append_assoc] at hrest
          exact hrest

end

theorem reads_items {closing : Mark} (hc : closing ∈ [Mark.closeParen, .closeBracket])
    {exprs : List Expr} (hback : ∀ expr ∈ exprs, expr.ReadsBack) (rest : List Lexeme) :
    (items closing (separated (Expr.eachLexemes exprs) ++ .mark closing :: rest)).Reads exprs rest := by
  have hclosing : (Lexeme.mark closing).startsExpr = false := by
    revert closing
    decide
  have hitems := reads_items_each Expr.lexemes id hc hclosing
    (fun expr _ => expr.first_lexemes) hback rest
  rwa [List.map_id, ← Expr.eachLexemes_eq_map] at hitems

theorem reads_pairsOnto {pairs : List (Expr × Expr)}
    (hback : ∀ pair ∈ pairs, pair.1.ReadsBack ∧ pair.2.ReadsBack) (rest : List Lexeme) :
    (pairsOnto [] (separated (Expr.pairLexemes pairs) ++ .mark .closeBrace :: rest)
      (Nat.le_refl _)).Reads pairs rest := by
  have hpairs := reads_pairsOnto_each (Prod.map Expr.lexemes Expr.lexemes) id rfl
    (fun pair _ => pair.1.first_lexemes) hback rest [] (Nat.le_refl _)
  rw [List.reverse_nil, List.nil_append, List.map_id] at hpairs
  rw [Expr.pairLexemes_eq_map]
  exact hpairs

/-- Names with commas between them are read up to the closing parenthesis. -/
theorem reads_parametersOnto (first : String) (others : List String) (rest : List Lexeme) {n : Nat}
    (read : List String)
    (h : (separated ((first :: others).map fun param => [.name param]) ++
      .mark .closeParen :: rest).length ≤ n) :
    (parametersOnto read (separated ((first :: others).map fun param => [.name param]) ++
      .mark .closeParen :: rest) h).Reads (read.reverse ++ first :: others) rest := by
  induction others generalizing first read with
  | nil =>
      rw [← List.reverse_cons]
      exact reads_parametersOnto_last
  | cons next others ih =>
      simp only [List.map_cons, separated_cons_cons, List.cons_append, List.nil_append] at h ih ⊢
      refine reads_parametersOnto_comma fun hle => ?_
      have hrest := ih next (first :: read) hle
      rw [List.reverse_cons, List.append_assoc] at hrest
      exact hrest

theorem reads_parameters (params : List String) (rest : List Lexeme) :
    (parameters (separated (params.map fun param => [.name param]) ++
      .mark .closeParen :: rest)).Reads params rest := by
  cases params with
  | nil => exact reads_parameters_nil rest
  | cons first others =>
      have hfirst : First startsExpr (separated ((first :: others).map fun param => [.name param]) ++
          .mark .closeParen :: rest) :=
        (First.separated ⟨.name first, [], rfl, rfl⟩ _).append _
      apply reads_parameters_cons (hfirst.head_ne rfl)
      exact reads_parametersOnto first others rest [] _

/-! ## Statements -/

/-- A statement can stand in front of these lexemes. A semicolon stands behind every statement but an
expression, which ends by itself. -/
def Stmt.Ends (stmt : Stmt) (rest : List Lexeme) : Prop :=
  ∀ value, stmt = .expr value → Stops rest ∧ ∀ t ∈ rest.head?, t ≠ .mark .semicolon

/-- A legible statement is read in front of what it can stand in front of. -/
def Stmt.Readable (stmt : Stmt) : Prop :=
  stmt.Legible → ∀ rest, stmt.Ends rest → (statement (stmt.lexemes ++ rest)).Reads stmt rest

/-- What begins a statement and is no call and no element access does not go on with an expression. -/
theorem Lexeme.not_mem_continuations {t : Lexeme} (h : t.startsStmt = true)
    (hp : t ≠ .mark .openParen) (hb : t ≠ .mark .openBracket) : t ∉ continuations := by
  revert h hp hb
  cases t with
  | mark m => cases m <;> decide
  | keyword word => cases word <;> decide
  | _ => simp [continuations, applications]

theorem Stmt.ends_closeBrace (stmt : Stmt) (rest : List Lexeme) :
    stmt.Ends (.mark .closeBrace :: rest) := by
  intro value _
  constructor
  · exact stops_cons_iff.mpr (by decide)
  · rintro t ⟨⟩
    nofun

theorem Stmt.Separates.ends {stmt next : Stmt} (h : stmt.Separates next)
    (hn : Begins next.render next.lexemes) (rest : List Lexeme) :
    stmt.Ends (next.lexemes ++ rest) := by
  intro value hvalue
  obtain ⟨c, t, hc, ht, -, hparen, hbracket⟩ := hn
  have hfirst := next.first_lexemes.append rest
  have hsep := h value hvalue c hc
  have hhead : (next.lexemes ++ rest).head? = some t := by
    rw [List.head?_append, ht, Option.some_or]
  constructor
  · intro t' ht'
    obtain rfl : t = t' := Option.some.inj (hhead.symm.trans ht')
    exact not_mem_continuations (hfirst.head t ht') (fun heq => hsep.1 (hparen heq))
      (fun heq => hsep.2 (hbracket heq))
  · exact hfirst.head_ne rfl

theorem reads_statementsOnto {stmts : List Stmt} (hr : ∀ stmt ∈ stmts, stmt.Readable)
    (hl : Stmt.LegibleBlock stmts) (rest : List Lexeme) {n : Nat} (read : List Stmt)
    (h : (Stmt.allLexemes stmts ++ .mark .closeBrace :: rest).length ≤ n) :
    (statementsOnto read (Stmt.allLexemes stmts ++ .mark .closeBrace :: rest) h).Reads
      (read.reverse ++ stmts) rest := by
  induction stmts generalizing read with
  | nil =>
      rw [List.append_nil]
      exact reads_statementsOnto_nil
  | cons stmt stmts ih =>
      rw [List.forall_mem_cons] at hr
      obtain ⟨hstmt, hseparates, hblock⟩ := hl
      have hends : stmt.Ends (Stmt.allLexemes stmts ++ .mark .closeBrace :: rest) := by
        cases stmts with
        | nil => exact stmt.ends_closeBrace rest
        | cons next stmts =>
            have hmirrors := compositional_mirrored.statement next hblock.1
            rw [Stmt.allLexemes, List.append_assoc]
            exact (hseparates next rfl).ends hmirrors.begins _
      have hfirst := stmt.first_lexemes.append (Stmt.allLexemes stmts ++ .mark .closeBrace :: rest)
      have hlexemes : Stmt.allLexemes (stmt :: stmts) ++ .mark .closeBrace :: rest =
          stmt.lexemes ++ (Stmt.allLexemes stmts ++ .mark .closeBrace :: rest) := by
        rw [Stmt.allLexemes, List.append_assoc]
      simp only [hlexemes]
      refine reads_statementsOnto_cons hfirst.ne_nil (hfirst.head_ne rfl) (hr.1 hstmt _ hends)
        fun hle => ?_
      have hrest := ih hr.2 hblock (stmt :: read) hle
      rw [List.reverse_cons, List.append_assoc] at hrest
      exact hrest

theorem reads_enclosed {stmts : List Stmt} (hr : ∀ stmt ∈ stmts, stmt.Readable)
    (hl : Stmt.LegibleBlock stmts) (rest : List Lexeme) :
    (block (enclosed (Stmt.allLexemes stmts) ++ rest)).Reads stmts rest := by
  have hlexemes : enclosed (Stmt.allLexemes stmts) ++ rest =
      .mark .openBrace :: (Stmt.allLexemes stmts ++ .mark .closeBrace :: rest) := by
    simp [enclosed]
  rw [hlexemes]
  exact reads_block fun hle => reads_statementsOnto hr hl rest [] hle

/-! ## Every form -/

theorem Expr.readable_of_primary {expr : Expr}
    (h : expr.Legible → ∀ rest, (∀ t ∈ rest.head?, t ≠ .keyword .alternative) →
      (primary (expr.lexemes ++ rest)).Reads expr rest) : expr.Readable :=
  fun hl rest _ _ he hn => reads_applied (h hl rest he) fun _ => hn _ _

/-- The expressions of a legible list are read back. -/
theorem Expr.readsBack_all {exprs : List Expr} (h : ∀ expr ∈ exprs, expr.Readable)
    (hl : Expr.AllLegible exprs) : ∀ expr ∈ exprs, expr.ReadsBack :=
  fun expr hm => (h expr hm).readsBack (Expr.allLegible_iff.mp hl expr hm)

namespace Expr.Readable

theorem name (id : String) : (Expr.name id).Readable := by
  apply Expr.readable_of_primary
  intro _ rest _
  exact reads_primary_name id rest

theorem integer (value : Int64) : (Expr.integer value).Readable := by
  apply Expr.readable_of_primary
  intro h rest _
  exact reads_primary_integer (integerLiteral?_toInt h) rest

theorem text (value : String) : (Expr.text value).Readable := by
  apply Expr.readable_of_primary
  intro _ rest _
  exact reads_primary_text value rest

theorem boolean (value : Bool) : (Expr.boolean value).Readable := by
  apply Expr.readable_of_primary
  intro _ rest _
  exact reads_primary_boolean value rest

theorem unary (op : UnaryOp) {argument : Expr} (ha : argument.Readable) :
    (Expr.unary op argument).Readable := by
  apply Expr.readable_of_primary
  intro h rest _
  have hop : UnaryOp.ofLexeme? (.mark op.mark) = some op := by cases op <;> rfl
  have hlexemes : (Expr.unary op argument).lexemes ++ rest =
      .mark .openParen :: (.mark op.mark :: argument.lexemes ++ .mark .closeParen :: rest) := by
    simp [Expr.lexemes]
  rw [hlexemes]
  apply reads_primary_of_expression
  intro rest hs
  apply reads_expression_of_unary hs
  exact reads_unary_operator hop (ha.operand h hs.not_mem_applications)

theorem binary (op : BinaryOp) {left right : Expr} (hl : left.Readable) (hr : right.Readable) :
    (Expr.binary op left right).Readable := by
  apply Expr.readable_of_primary
  intro h rest _
  have hlexemes : (Expr.binary op left right).lexemes ++ rest =
      .mark .openParen :: ((left.lexemes ++ .mark op.mark :: right.lexemes) ++
        .mark .closeParen :: rest) := by
    simp [Expr.lexemes]
  rw [hlexemes]
  apply reads_primary_of_expression
  intro rest hs
  rw [List.append_assoc, List.cons_append]
  exact hl.binary_operands hr h hs

theorem condition {test : Expr} {consequent : List Stmt} {alternative : Option (List Stmt)}
    (ht : test.Readable) (hc : ∀ stmt ∈ consequent, stmt.Readable)
    (ha : ∀ block ∈ alternative, ∀ stmt ∈ block, stmt.Readable) :
    (Expr.condition test consequent alternative).Readable := by
  apply Expr.readable_of_primary
  rintro ⟨htest, hconsequent, halternative⟩ rest he
  have hlexemes : (Expr.condition test consequent alternative).lexemes ++ rest =
      .keyword .condition :: (test.lexemes ++ (enclosed (Stmt.allLexemes consequent) ++
        (Stmt.alternativeLexemes alternative ++ rest))) := by
    simp [Expr.lexemes]
  rw [hlexemes]
  have htest := ht.readsBack htest (enclosed (Stmt.allLexemes consequent) ++
    (Stmt.alternativeLexemes alternative ++ rest)) (stops_cons_iff.mpr (by decide))
  have hblock := reads_enclosed hc hconsequent (Stmt.alternativeLexemes alternative ++ rest)
  cases alternative with
  | none => exact reads_primary_condition htest hblock he
  | some block =>
      exact reads_primary_alternative htest hblock (reads_enclosed (ha block rfl) halternative rest)

theorem function (self : Option String) (params : List String) {body : List Stmt}
    (hb : ∀ stmt ∈ body, stmt.Readable) : (Expr.function self params body).Readable := by
  apply Expr.readable_of_primary
  rintro ⟨rfl, -, hbody⟩ rest _
  have hlexemes : (Expr.function none params body).lexemes ++ rest =
      .keyword .function :: .mark .openParen :: (separated (params.map fun param => [.name param]) ++
        .mark .closeParen :: (enclosed (Stmt.allLexemes body) ++ rest)) := by
    simp [Expr.lexemes]
  rw [hlexemes]
  exact reads_primary_function (reads_parameters params _) (reads_enclosed hb hbody rest)

theorem call {callee : Expr} {arguments : List Expr} (hc : callee.Readable)
    (ha : ∀ expr ∈ arguments, expr.Readable) : (Expr.call callee arguments).Readable := by
  rintro ⟨hcallee, harguments⟩ rest rest' value _ hn
  have hlexemes : (Expr.call callee arguments).lexemes ++ rest =
      callee.lexemes ++ .mark .openParen :: (separated (Expr.eachLexemes arguments) ++
        .mark .closeParen :: rest) := by
    simp [Expr.lexemes]
  rw [hlexemes]
  apply hc hcallee
  · rintro t ⟨⟩
    nofun
  · intro n hlt
    have hitems : (items .closeParen _).Reads arguments rest :=
      reads_items (by decide) (Expr.readsBack_all ha harguments) rest
    exact reads_appliedOnto_call hitems fun h => hn n h

theorem array {elements : List Expr} (he : ∀ expr ∈ elements, expr.Readable) :
    (Expr.array elements).Readable := by
  apply Expr.readable_of_primary
  intro h rest _
  have hlexemes : (Expr.array elements).lexemes ++ rest =
      .mark .openBracket :: (separated (Expr.eachLexemes elements) ++ .mark .closeBracket :: rest) := by
    simp [Expr.lexemes]
  rw [hlexemes]
  exact reads_primary_array (reads_items (by decide) (Expr.readsBack_all he h) rest)

theorem hash {pairs : List (Expr × Expr)}
    (hp : ∀ pair ∈ pairs, pair.1.Readable ∧ pair.2.Readable) : (Expr.hash pairs).Readable := by
  apply Expr.readable_of_primary
  intro h rest _
  have hlexemes : (Expr.hash pairs).lexemes ++ rest =
      .mark .openBrace :: (separated (Expr.pairLexemes pairs) ++ .mark .closeBrace :: rest) := by
    simp [Expr.lexemes]
  rw [hlexemes]
  have hback : ∀ pair ∈ pairs, pair.1.ReadsBack ∧ pair.2.ReadsBack := by
    intro pair hm
    obtain ⟨hkey, hvalue⟩ := Expr.pairsLegible_iff.mp h pair hm
    exact ⟨(hp pair hm).1.readsBack hkey, (hp pair hm).2.readsBack hvalue⟩
  exact reads_primary_hash (reads_pairsOnto hback rest)

theorem index {object position : Expr} (ho : object.Readable) (hp : position.Readable) :
    (Expr.index object position).Readable := by
  apply Expr.readable_of_primary
  rintro ⟨hobject, hposition⟩ rest _
  have hlexemes : (Expr.index object position).lexemes ++ rest =
      .mark .openParen :: ((object.lexemes ++ .mark .openBracket ::
        (position.lexemes ++ [.mark .closeBracket])) ++ .mark .closeParen :: rest) := by
    simp [Expr.lexemes]
  rw [hlexemes]
  apply reads_primary_of_expression
  intro rest hs
  apply reads_expression_of_unary hs
  rw [List.append_assoc, List.cons_append, List.append_assoc]
  apply Expr.reads_unary
  apply ho hobject
  · rintro t ⟨⟩
    nofun
  · intro n hlt
    have hp := hp.readsBack hposition (.mark .closeBracket :: rest) (stops_cons_iff.mpr (by decide))
    refine reads_appliedOnto_index hp fun _ => reads_appliedOnto_end fun t ht => ?_
    exact ⟨hs.head_ne (by decide) t ht, hs.head_ne (by decide) t ht⟩

end Expr.Readable

namespace Stmt.Readable

theorem binding (name : String) {value : Expr} (hv : value.Readable) :
    (Stmt.binding name value).Readable := by
  rintro ⟨-, hvalue, hfunction⟩ rest -
  have hnamed : value.named name = value := by
    cases value
    case function self params body => exact absurd rfl (hfunction self params body)
    all_goals rfl
  have hvalue := hv.readsBack hvalue (.mark .semicolon :: rest) (stops_cons_iff.mpr (by decide))
  have hopen := reads_openStatement_binding name hvalue
  rw [hnamed] at hopen
  have hlexemes : (Stmt.binding name value).lexemes ++ rest = .keyword .binding :: .name name ::
      .mark .assign :: (value.lexemes ++ .mark .semicolon :: rest) := by
    simp [Stmt.lexemes]
  rw [hlexemes]
  exact reads_statement hopen (Or.inl rfl)

theorem assign (name : String) {value : Expr} (hv : value.Readable) :
    (Stmt.assign name value).Readable := by
  rintro ⟨-, hvalue⟩ rest -
  have hvalue := hv.readsBack hvalue (.mark .semicolon :: rest) (stops_cons_iff.mpr (by decide))
  have hlexemes : (Stmt.assign name value).lexemes ++ rest =
      .name name :: .mark .assign :: (value.lexemes ++ .mark .semicolon :: rest) := by
    simp [Stmt.lexemes]
  rw [hlexemes]
  exact reads_statement (reads_openStatement_assign hvalue) (Or.inl rfl)

theorem returnValue {value : Expr} (hv : value.Readable) : (Stmt.result (some value)).Readable := by
  intro h rest _
  have hvalue := hv.readsBack h (.mark .semicolon :: rest) (stops_cons_iff.mpr (by decide))
  have hfirst := value.first_lexemes.append (.mark .semicolon :: rest)
  have hopen := reads_openStatement_returnValue hfirst.ne_nil
    (fun t ht => ⟨hfirst.head_ne rfl t ht, hfirst.head_ne rfl t ht⟩) hvalue
  have hlexemes : (Stmt.result (some value)).lexemes ++ rest =
      .keyword .result :: (value.lexemes ++ .mark .semicolon :: rest) := by
    simp [Stmt.lexemes]
  rw [hlexemes]
  exact reads_statement hopen (Or.inl rfl)

theorem returnNull : (Stmt.result none).Readable :=
  fun _ rest _ => reads_statement (reads_openStatement_returnNull rest) (Or.inl rfl)

theorem expr {value : Expr} (hv : value.Readable) : (Stmt.expr value).Readable := by
  intro h rest hends
  obtain ⟨hstops, hsemicolon⟩ := hends value rfl
  have hfirst := value.first_lexemes.append rest
  have hopen := reads_openStatement_expr
    (fun t ht => ⟨hfirst.head_ne rfl t ht, hfirst.head_ne rfl t ht⟩)
    (fun id others => value.lexemes_ne_assign (hstops.head_ne (by decide)) id others)
    (hv.readsBack h rest hstops)
  exact reads_statement hopen (Or.inr ⟨rfl, hsemicolon⟩)

end Stmt.Readable

/-- Wholes are read as their parts are. -/
theorem compositional_readable : Compositional Expr.Readable Stmt.Readable where
  name := .name
  integer := .integer
  text := .text
  boolean := .boolean
  unary op _ := .unary op
  binary op _ _ := .binary op
  condition _ _ _ := .condition
  function self params _ := .function self params
  call _ _ := .call
  array _ := .array
  hash _ := .hash
  index _ _ := .index
  binding name _ := .binding name
  assign name _ := .assign name
  returnValue _ := .returnValue
  returnNull := .returnNull
  expr _ := .expr

/-- The lexemes that a source gives are those that are read. -/
theorem Lexeme.Spells.lexemes_ofSource {source : String} {lexemes : List Lexeme}
    (h : Spells source lexemes) : (Reader.ofSource source).lexemes = lexemes := by
  have hscan := h [] delimited_nil
  rw [List.append_nil, scan_nil, List.append_nil] at hscan
  calc (Reader.ofSource source).lexemes
    _ = scan source.toList := map_lexeme_tokens (Cursor.ofSource source)
    _ = lexemes := hscan

/-- A legible expression is read from its text, and nothing of the text is left. -/
theorem Expr.expression_render {expr : Expr} (h : expr.Legible) :
    (Reader.ofSource expr.render).expression = (.ok expr, ⟨[], expr.render.utf8ByteSize⟩) := by
  have hlexemes : (Reader.ofSource expr.render).lexemes = expr.lexemes :=
    ((compositional_mirrored.expression expr) h).spells.lexemes_ofSource
  have hreads : (Parse.expression expr.lexemes).val = .ok expr [] := by
    have hback := (compositional_readable.expression expr).readsBack h [] stops_nil
    rw [List.append_nil] at hback
    exact hback
  have hread : (Reader.ofSource expr.render).expression =
      (.ok expr, (Reader.ofSource expr.render).last 0) := by
    rw [Reader.expression, Reader.read, hlexemes, hreads]
    rfl
  rw [hread, Reader.last, Nat.sub_zero, List.drop_length]
  rfl

/-- The result of a condition is called with a function, behind whose first statement a block goes on. -/
theorem Expr.expression_render_called_condition :
    let called : Expr := .call
      (.condition (.binary .less (.name "x") (.integer 1))
        [.binding "y" (.unary .minus (.name "x")), .result (some (.index (.name "y") (.text "a\n\"")))]
        none)
      [.function none ["x"] [.expr (.name "x"), .assign "x" (.hash [(.boolean true, .array [])])]]
    (Reader.ofSource called.render).expression = (.ok called, ⟨[], called.render.utf8ByteSize⟩) := by
  intro called
  have hx : IsIdentifier "x" := ⟨'x', [], 0, by decide +kernel⟩
  have hy : IsIdentifier "y" := ⟨'y', [], 0, by decide +kernel⟩
  have hone : 0 ≤ (1 : Int64).toInt := by decide
  have hbinding : (Stmt.binding "y" (.unary .minus (.name "x"))).Legible := ⟨hy, hx, nofun⟩
  have htext : (Expr.text "a\n\"").Legible := by
    show ∀ c ∈ ['a', '\n', '"'], IsPlain c
    simp only [List.forall_mem_cons, List.not_mem_nil, false_implies, implies_true, and_true]
    decide
  have hassign : (Stmt.assign "x" (.hash [(.boolean true, .array [])])).Legible :=
    ⟨hx, ⟨trivial, trivial⟩, trivial⟩
  have hseparates : (Stmt.expr (.name "x")).Separates
      (.assign "x" (.hash [(.boolean true, .array [])])) := by
    rintro _ _ c ⟨⟩
    decide
  apply Expr.expression_render
  constructor
  case left =>
    exact ⟨⟨hx, hone⟩, ⟨hbinding, fun _ _ => nofun, ⟨hy, htext⟩, nofun, trivial⟩, trivial⟩
  case right =>
    have hparams : ∀ param ∈ ["x"], IsIdentifier param := by
      rintro param hm
      rw [List.mem_singleton.mp hm]
      exact hx
    refine ⟨⟨rfl, hparams, hx, ?_, hassign, nofun, trivial⟩, trivial⟩
    rintro next ⟨⟩
    exact hseparates

end StackScript
