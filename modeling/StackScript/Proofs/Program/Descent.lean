import StackScript.Proofs.Program.Routine

/-!
# Every routine ends

Each routine comes to the outcome of the bounded form, whatever the lexemes are. The induction is on
the number of lexemes: an expression or a statement inside of another one begins behind a lexeme of
it, and what is read in a loop leaves fewer lexemes for the next round.
-/

namespace StackScript

namespace Attempt

variable {α : Type} {n : Nat} {ts : List Lexeme}

open Form (eq_cons_or_head_ne)

/-! ## Marks, names and lists -/

theorem ends_expect (wanted : Mark) (ts : List Lexeme) :
    (expect wanted).Ends (Form.mark wanted) ts := by
  obtain ⟨others, rfl⟩ | ht := eq_cons_or_head_ne (.mark wanted) ts
  · exact (Ends.ok () others).skips_self (Form.mark_self wanted others)
  · exact .skips_of_ne (.fail (Form.mark_of_ne ht)) ht

theorem Ends.before {attempt : Attempt α} {form : Form α} (h : attempt.Ends form ts)
    (wanted : Mark) : Ends (do let value ← attempt; expect wanted; return value) (form.before wanted) ts :=
  h.andThen fun value rest _ => (ends_expect wanted rest).map fun _ => value

theorem ends_expectName (ts : List Lexeme) : expectName.Ends Form.name ts := by
  match ts with
  | .name id :: ts => exact .current ((Ends.ok id ts).advance rfl)
  | [] | .integer _ :: _ | .text _ :: _ | .keyword _ :: _ | .mark _ :: _ | .unclosedText :: _
  | .illegal _ :: _ =>
      refine .current (.fail (Form.name_of_ne fun id t ht => ?_))
      cases ht <;> exact nofun

theorem ends_orComma (closing : Mark) {more : Attempt α} {form : Form α} (value : α)
    (h : ∀ others, ts = .mark .comma :: others → more.Ends form others) :
    Ends (do
        if ← skips (.mark .comma) then more
        else do
          expect closing
          return value)
      (Form.orComma closing form value) ts := by
  obtain ⟨others, rfl⟩ | ht := eq_cons_or_head_ne (.mark .comma) ts
  · exact (h others rfl).skips_self rfl
  · have hmark := (ends_expect closing ts).map fun _ => value
    exact (hmark.congr (Form.orComma_of_ne ht)).skips_of_ne ht

theorem ends_parameters (read : List String) (ts : List Lexeme) :
    (parse (.parameters read)).Ends (Form.parametersOnto read) ts := by
  apply Ends.parse
  rw [Routine.body, Form.parametersOnto_eq]
  refine (ends_expectName ts).andThen fun id rest hid => ends_orComma .closeParen _ ?_
  rintro others rfl
  have hlt : (Lexeme.mark .comma :: others).length < ts.length := Parse.length_lt hid
  exact ends_parameters (id :: read) others
termination_by ts.length
decreasing_by exact Nat.lt_of_succ_lt hlt

theorem ends_parseUnless {closing : Mark} {routine : Routine (List α)} {form inner : Form (List α)}
    (hclosing : ∀ others, form (.mark closing :: others) = .ok [] others)
    (hinner : (∀ t ∈ ts.head?, t ≠ .mark closing) → form ts = inner ts)
    (h : (parse routine).Ends inner ts) : (parseUnless closing routine).Ends form ts := by
  obtain ⟨others, rfl⟩ | ht := eq_cons_or_head_ne (.mark closing) ts
  · exact (Ends.ok [] others).skips_self (hclosing others)
  · exact (h.congr (hinner ht)).skips_of_ne ht

/-! ## Expressions and statements of fewer lexemes -/

/-- Reading an expression or a statement of fewer than `n` lexemes ends. -/
structure EndsBelow (n : Nat) : Prop where
  expression : ∀ ts, ts.length < n → (parse .expression).Ends Form.expression ts
  statement : ∀ ts, ts.length < n → (parse .statement).Ends Form.statement ts

/-! ## Blocks -/

theorem ends_statements (h : EndsBelow n) (read : List Stmt) (ts : List Lexeme)
    (hts : ts.length < n) : (parse (.statements read)).Ends (Form.statementsOnto read) ts := by
  apply Ends.parse
  rw [Routine.body]
  obtain ⟨others, rfl⟩ | ht := eq_cons_or_head_ne (.mark .closeBrace) ts
  · exact (Ends.ok _ others).skips_self (Form.statementsOnto_closeBrace read others)
  refine .skips_of_ne (.current ?_) ht
  match ts with
  | [] => exact .fail (Form.statementsOnto_nil read)
  | t :: ts =>
      rw [if_neg (by simp)]
      apply Ends.congr _ (Form.statementsOnto_of_ne read (List.cons_ne_nil t ts) ht)
      apply (h.statement _ hts).andThen
      intro stmt rest hstmt
      have hlt : rest.length < (t :: ts).length := Parse.length_lt hstmt
      exact ends_statements h (stmt :: read) rest (Nat.lt_trans hlt hts)
termination_by ts.length
decreasing_by exact hlt

theorem ends_block (h : EndsBelow n) (ts : List Lexeme) (hts : ts.length ≤ n) :
    (parse .block).Ends Form.block ts := by
  apply Ends.parse
  rw [Routine.body, Form.block_eq]
  apply (ends_expect .openBrace ts).andThen
  intro _ rest hmark
  have hlt : rest.length < ts.length := Parse.length_lt hmark
  exact ends_statements h [] rest (Nat.lt_of_lt_of_le hlt hts)

/-! ## Lists of expressions -/

theorem ends_items (h : EndsBelow n) (closing : Mark) (read : List Expr) (ts : List Lexeme)
    (hts : ts.length < n) :
    (parse (.items closing read)).Ends (Form.itemsOnto closing read) ts := by
  apply Ends.parse
  rw [Routine.body, Form.itemsOnto_eq]
  apply (h.expression ts hts).andThen
  intro item rest hitem
  apply ends_orComma closing
  rintro others rfl
  have hlt : (Lexeme.mark .comma :: others).length < ts.length := Parse.length_lt hitem
  have hlt' : others.length < ts.length := Nat.lt_of_succ_lt hlt
  exact ends_items h closing (item :: read) others (Nat.lt_trans hlt' hts)
termination_by ts.length
decreasing_by exact hlt'

/-- The expressions between two marks, behind the first one. -/
theorem ends_list (h : EndsBelow n) (closing : Mark) (ts : List Lexeme) (hts : ts.length < n) :
    (parseUnless closing (.items closing [])).Ends (Form.items closing) ts :=
  ends_parseUnless (Form.items_closing closing) Form.items_of_ne (ends_items h closing [] ts hts)

theorem ends_pairs (h : EndsBelow n) (read : List (Expr × Expr)) (ts : List Lexeme)
    (hts : ts.length < n) : (parse (.pairs read)).Ends (Form.pairsOnto read) ts := by
  apply Ends.parse
  rw [Routine.body]
  obtain ⟨others, rfl⟩ | ht := eq_cons_or_head_ne (.mark .closeBrace) ts
  · exact (Ends.ok _ others).skips_self (Form.pairsOnto_closeBrace read others)
  refine Ends.skips_of_ne (Ends.congr ?_ (Form.pairsOnto_of_ne read ht)) ht
  rw [Form.before_andThen]
  apply (h.expression ts hts).andThen
  intro key middle hkey
  have hmiddle : middle.length < ts.length := Parse.length_lt hkey
  apply (ends_expect .colon middle).andThen
  intro _ back hcolon
  have hback : back.length < ts.length := Nat.lt_trans (Parse.length_lt hcolon) hmiddle
  apply (h.expression back (Nat.lt_trans hback hts)).andThen
  intro value rest hvalue
  apply ends_orComma .closeBrace
  rintro others rfl
  have hrest : others.length < back.length := Nat.lt_of_succ_lt (Parse.length_lt hvalue)
  have hothers : others.length < ts.length := Nat.lt_trans hrest hback
  exact ends_pairs h ((key, value) :: read) others (Nat.lt_trans hothers hts)
termination_by ts.length
decreasing_by exact hothers

/-! ## Operands -/

theorem ends_alternative (h : EndsBelow n) (test : Expr) (consequent : Block) (ts : List Lexeme)
    (hts : ts.length ≤ n) :
    Ends (do
        if ← skips (.keyword .alternative) then
          let alternative ← parse .block
          return .condition test consequent (some alternative)
        else return .condition test consequent none)
      (Form.alternative test consequent) ts := by
  obtain ⟨others, rfl⟩ | ht := eq_cons_or_head_ne (.keyword .alternative) ts
  · exact ((ends_block h others (Nat.le_of_succ_le hts)).map _).skips_self rfl
  · exact .skips_of_ne (.done (Form.alternative_of_ne ht)) ht

theorem ends_condition (h : EndsBelow n) (hts : ts.length < n) :
    (parse .condition).Ends Form.primary (.keyword .condition :: ts) := by
  apply Ends.parse
  rw [Routine.body]
  refine Ends.advance ?_ (Form.primary_condition ts)
  apply (h.expression ts hts).andThen
  intro test middle htest
  have hmiddle : middle.length < n := Nat.lt_trans (Parse.length_lt htest) hts
  apply (ends_block h middle (Nat.le_of_lt hmiddle)).andThen
  intro consequent rest hblock
  have hrest : rest.length < middle.length := Parse.length_lt hblock
  exact ends_alternative h test consequent rest (Nat.le_of_lt (Nat.lt_trans hrest hmiddle))

theorem ends_function (h : EndsBelow n) (hts : ts.length < n) :
    (parse .function).Ends Form.primary (.keyword .function :: ts) := by
  apply Ends.parse
  rw [Routine.body]
  refine Ends.advance ?_ (Form.primary_function ts)
  apply (ends_expect .openParen ts).andThen
  intro _ middle hopen
  have hmiddle : middle.length < n := Nat.lt_trans (Parse.length_lt hopen) hts
  apply (ends_parseUnless Form.parameters_closeParen Form.parameters_of_ne
    (ends_parameters [] middle)).andThen
  intro params rest hparams
  have hrest : rest.length < middle.length := Parse.length_lt hparams
  exact (ends_block h rest (Nat.le_of_lt (Nat.lt_trans hrest hmiddle))).map _

theorem ends_primary (h : EndsBelow n) (ts : List Lexeme) (hts : ts.length ≤ n) :
    (parse .primary).Ends Form.primary ts := by
  apply Ends.parse
  have hfail : (∀ t ∈ ts.head?, t.startsExpr = false) →
      Ends (.fail (.missing .expression)) Form.primary ts :=
    fun ht => .fail (Form.primary_of_not_starts ht)
  rw [Routine.body]
  apply Ends.current
  cases ts with
  | nil => exact hfail nofun
  | cons t ts =>
    have hlt : ts.length < n := hts
    cases t with
    | integer digits =>
        simp only [List.head?_cons]
        cases hvalue : integerLiteral? digits with
        | some value => exact (Ends.ok _ ts).advance (Form.primary_integer hvalue ts)
        | none => exact .fail (Form.primary_tooLarge hvalue ts)
    | text value => exact (Ends.ok _ ts).advance (Parse.reads_primary_text value ts)
    | name id => exact (Ends.ok _ ts).advance (Parse.reads_primary_name id ts)
    | keyword word =>
      cases word with
      | truth => exact (Ends.ok _ ts).advance (Parse.reads_primary_boolean true ts)
      | falsity => exact (Ends.ok _ ts).advance (Parse.reads_primary_boolean false ts)
      | condition => exact ends_condition h hlt
      | function => exact ends_function h hlt
      | _ => exact hfail (by rintro t ⟨⟩; rfl)
    | mark m =>
      cases m with
      | openParen =>
          exact ((h.expression ts hlt).before .closeParen).advance (Form.primary_openParen ts)
      | openBracket =>
          exact ((ends_list h .closeBracket ts hlt).map _).advance (Form.primary_openBracket ts)
      | openBrace =>
          exact ((ends_pairs h [] ts hlt).map _).advance (Form.primary_openBrace ts)
      | _ => exact hfail (by rintro t ⟨⟩; rfl)
    | _ => exact hfail (by rintro t ⟨⟩; rfl)

theorem ends_applications (h : EndsBelow n) (head : Expr) (ts : List Lexeme)
    (hts : ts.length ≤ n) : (parse (.applications head)).Ends (Form.appliedOnto head) ts := by
  apply Ends.parse
  rw [Routine.body]
  obtain ⟨others, rfl⟩ | hparen := eq_cons_or_head_ne (.mark .openParen) ts
  · refine Ends.skips_self ?_ (Form.appliedOnto_openParen head others)
    apply (ends_list h .closeParen others hts).andThen
    intro arguments rest hitems
    have hlt : rest.length < others.length := Parse.length_lt hitems
    exact ends_applications h (.call head arguments) rest (Nat.le_of_lt (Nat.lt_trans hlt hts))
  refine .skips_of_ne ?_ hparen
  obtain ⟨others, rfl⟩ | hbracket := eq_cons_or_head_ne (.mark .openBracket) ts
  · refine Ends.skips_self ?_ (Form.appliedOnto_openBracket head others)
    rw [Form.before_andThen]
    apply (h.expression others hts).andThen
    intro position middle hposition
    have hmiddle : middle.length < others.length := Parse.length_lt hposition
    apply (ends_expect .closeBracket middle).andThen
    intro _ rest hclose
    have hlt : rest.length < others.length := Nat.lt_trans (Parse.length_lt hclose) hmiddle
    exact ends_applications h (.index head position) rest (Nat.le_of_lt (Nat.lt_trans hlt hts))
  · refine .skips_of_ne (.done (Form.appliedOnto_of_ne head ?_)) hbracket
    exact fun t ht => ⟨hparen t ht, hbracket t ht⟩
termination_by ts.length
decreasing_by
  all_goals
    subst_vars
    exact Nat.lt_succ_of_lt hlt

theorem ends_applied (h : EndsBelow n) (ts : List Lexeme) (hts : ts.length ≤ n) :
    (parse .applied).Ends Form.applied ts := by
  apply Ends.parse
  rw [Routine.body, Form.applied_eq]
  apply (ends_primary h ts hts).andThen
  intro head rest hprimary
  have hrest : rest.length < ts.length := Parse.length_lt hprimary
  exact ends_applications h head rest (Nat.le_of_lt (Nat.lt_of_lt_of_le hrest hts))

theorem ends_unary (h : EndsBelow n) (ts : List Lexeme) (hts : ts.length ≤ n) :
    (parse .unary).Ends Form.unary ts := by
  apply Ends.parse
  rw [Routine.body]
  apply Ends.current
  cases hop : ts.head?.bind UnaryOp.ofLexeme? with
  | none => exact (ends_applied h ts hts).congr (Form.unary_of_none (Option.bind_eq_none_iff.mp hop))
  | some op =>
      obtain ⟨t, ht, hop⟩ := Option.bind_eq_some_iff.mp hop
      obtain ⟨others, rfl⟩ := List.head?_eq_some_iff.mp ht
      have hargument := ends_unary h others (Nat.le_of_succ_le hts)
      exact (hargument.map _).advance (Form.unary_of_some hop others)

/-! ## Chains of operators -/

theorem ends_operands (tier : Tier) {tighter : List Tier}
    (h : ∀ ts, ts.length ≤ n → (parse (.chain tighter)).Ends (Form.chain tighter) ts) (left : Expr)
    (ts : List Lexeme) (hts : ts.length ≤ n) :
    (parse (.operands tier tighter left)).Ends (Form.chainOnto tier tighter left) ts := by
  apply Ends.parse
  rw [Routine.body]
  apply Ends.current
  cases hop : ts.head?.bind tier.operator? with
  | none => exact .done (Form.chainOnto_of_none tighter left (Option.bind_eq_none_iff.mp hop))
  | some op =>
      obtain ⟨t, ht, hop⟩ := Option.bind_eq_some_iff.mp hop
      obtain ⟨others, rfl⟩ := List.head?_eq_some_iff.mp ht
      have hothers : others.length ≤ n := Nat.le_of_succ_le hts
      refine Ends.advance ?_ (Form.chainOnto_of_some tighter left hop others)
      apply (h others hothers).andThen
      intro right rest hright
      have hlt : rest.length < others.length := Parse.length_lt hright
      exact ends_operands tier h (.binary op left right) rest
        (Nat.le_of_lt (Nat.lt_of_lt_of_le hlt hothers))
termination_by ts.length
decreasing_by
  subst_vars
  exact Nat.lt_succ_of_lt hlt

theorem ends_chain (h : EndsBelow n) (remaining : List Tier) (ts : List Lexeme)
    (hts : ts.length ≤ n) : (parse (.chain remaining)).Ends (Form.chain remaining) ts := by
  induction remaining generalizing ts with
  | nil =>
      apply Ends.parse
      rw [Routine.body, Form.chain_nil]
      exact ends_unary h ts hts
  | cons tier tighter ih =>
      apply Ends.parse
      rw [Routine.body, Form.chain_cons]
      apply (ih ts hts).andThen
      intro left rest hleft
      have hrest : rest.length < ts.length := Parse.length_lt hleft
      exact ends_operands tier ih left rest (Nat.le_of_lt (Nat.lt_of_lt_of_le hrest hts))

theorem ends_expression (h : EndsBelow n) (ts : List Lexeme) (hts : ts.length ≤ n) :
    (parse .expression).Ends Form.expression ts := by
  apply Ends.parse
  rw [Routine.body, Form.expression_eq]
  exact ends_chain h tiers ts hts

/-! ## Statements -/

theorem ends_binding (h : EndsBelow n) (hts : ts.length ≤ n) :
    (parse .binding).Ends Form.openStatement (.keyword .binding :: ts) := by
  apply Ends.parse
  rw [Routine.body]
  refine Ends.advance ?_ (Form.openStatement_binding ts)
  rw [Form.before_andThen]
  apply (ends_expectName ts).andThen
  intro id middle hname
  have hmiddle : middle.length < ts.length := Parse.length_lt hname
  apply (ends_expect .assign middle).andThen
  intro _ rest hassign
  have hrest : rest.length < ts.length := Nat.lt_trans (Parse.length_lt hassign) hmiddle
  exact (ends_expression h rest (Nat.le_of_lt (Nat.lt_of_lt_of_le hrest hts))).map _

theorem ends_assignment (h : EndsBelow n) (id : String) (hts : ts.length ≤ n) :
    (parse .assignment).Ends Form.openStatement (.name id :: .mark .assign :: ts) := by
  apply Ends.parse
  rw [Routine.body, Ends, Form.openStatement_assign]
  have hname : expectName.ComesTo (.name id :: .mark .assign :: ts)
      (.ok id (.mark .assign :: ts)) :=
    ends_expectName _
  have hmark : (expect .assign).ComesTo (.mark .assign :: ts) (.ok () ts) := by
    rw [← Form.mark_self]
    exact ends_expect .assign _
  exact hname.behind (hmark.behind ((ends_expression h ts hts).map _))

theorem head?_mem_iff : ts.head? ∈ [none, some (.mark .semicolon), some (.mark .closeBrace)] ↔
    EndsOpen ts := by
  cases ts <;> simp [EndsOpen]

theorem ends_result (h : EndsBelow n) (hts : ts.length ≤ n) :
    (parse .result).Ends Form.openStatement (.keyword .result :: ts) := by
  apply Ends.parse
  rw [Routine.body]
  by_cases hends : EndsOpen ts
  · refine Ends.advance (.current ?_) (Form.openStatement_result_of_endsOpen hends)
    rw [if_pos (head?_mem_iff.mpr hends)]
    exact .ok _ ts
  · refine Ends.advance (.current ?_) (Form.openStatement_result_of_not_endsOpen hends)
    rw [if_neg (mt head?_mem_iff.mp hends)]
    exact (ends_expression h ts hts).map _

theorem ends_openStatement (h : EndsBelow n) (ts : List Lexeme) (hts : ts.length ≤ n) :
    (parse .openStatement).Ends Form.openStatement ts := by
  apply Ends.parse
  rw [Routine.body]
  apply Ends.lexemes
  split
  case h_1 => exact ends_binding h (Nat.le_of_succ_le hts)
  case h_2 => exact ends_result h (Nat.le_of_succ_le hts)
  case h_3 id others => exact ends_assignment h id (Nat.le_of_lt (Nat.lt_of_succ_lt hts))
  case h_4 hbinding hresult hassign =>
      apply ((ends_expression h ts hts).map _).congr
      apply Form.openStatement_of_ne
      · exact fun t ht => ⟨Form.head_ne hbinding t ht, Form.head_ne hresult t ht⟩
      · exact hassign

theorem ends_withSemicolon (stmt : Stmt) (ts : List Lexeme) :
    Ends (do let _ ← skips (.mark .semicolon); return stmt) (Form.withSemicolon stmt) ts := by
  obtain ⟨others, rfl⟩ | ht := eq_cons_or_head_ne (.mark .semicolon) ts
  · exact (comesTo_skips_self _ others).behind (Ends.ok stmt others)
  · rw [Ends, Form.withSemicolon_of_ne stmt ht]
    exact (comesTo_skips_of_ne ht).behind (Ends.ok stmt ts)

theorem ends_statement (h : EndsBelow n) (ts : List Lexeme) (hts : ts.length ≤ n) :
    (parse .statement).Ends Form.statement ts := by
  apply Ends.parse
  rw [Routine.body, Form.statement_eq]
  exact (ends_openStatement h ts hts).andThen fun stmt rest _ => ends_withSemicolon stmt rest

/-- Reading an expression or a statement ends. -/
theorem endsBelow (n : Nat) : EndsBelow n := by
  induction n with
  | zero => exact ⟨nofun, nofun⟩
  | succ n ih =>
      constructor
      · exact fun ts hts => ends_expression ih ts (Nat.le_of_lt_succ hts)
      · exact fun ts hts => ends_statement ih ts (Nat.le_of_lt_succ hts)

/-! ## Programs -/

theorem ends_program (read : List Stmt) (ts : List Lexeme) :
    (parse (.program read)).Ends (Parse.programOnto read) ts := by
  apply Ends.parse
  rw [Routine.body]
  apply Ends.current
  match ts with
  | [] =>
      apply Ends.done
      rw [Parse.programOnto]
  | t :: ts =>
      rw [if_neg (by simp)]
      apply Ends.congr _ (Form.programOnto_eq read t ts)
      apply ((endsBelow _).statement (t :: ts) (Nat.lt_succ_self _)).andThen
      intro stmt rest hstmt
      have hlt : rest.length < (t :: ts).length := Parse.length_lt hstmt
      exact ends_program (stmt :: read) rest
termination_by ts.length
decreasing_by exact hlt

end Attempt

end StackScript
