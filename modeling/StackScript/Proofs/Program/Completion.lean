import StackScript.Proofs.Program.Precedence
import StackScript.Proofs.Program.Prompt

/-!
# The grammar complains at once

Every form of the grammar is prompt. Loops read shorter and shorter lexemes, and the parts of a form
that are expressions or statements themselves are prompt on fewer lexemes than the form is given.
-/

namespace StackScript

open Lexeme

variable {α : Type} {n : Nat} {Starts Ends : List Lexeme → Prop} {ts rest : List Lexeme}

/-- An open statement ends in front of these lexemes, whatever it is. -/
def EndsOpen (rest : List Lexeme) : Prop :=
  ∀ t ∈ rest.head?, t = .mark .semicolon ∨ t = .mark .closeBrace

/-- A statement ends in front of these lexemes, whatever it is. -/
def EndsStmt (rest : List Lexeme) : Prop :=
  ∀ t ∈ rest.head?, t = .mark .closeBrace

theorem endsStmt_nil : EndsStmt [] := by
  intro t ht
  cases ht

theorem EndsStmt.endsOpen (h : EndsStmt rest) : EndsOpen rest :=
  fun t ht => .inr (h t ht)

theorem EndsOpen.stops (h : EndsOpen rest) : Stops rest := by
  intro t ht
  obtain rfl | rfl := h t ht <;> decide

theorem Parse.length_lt {parse : Parse α n} {value : α} (h : parse.val = .ok value rest) :
    rest.length < n := by
  have hfits := parse.property
  rwa [h] at hfits

namespace Form

/-! ## Marks, names and lists -/

theorem consumes_mark (wanted : Mark) : (mark wanted).Consumes :=
  fun _ _ _ => Parse.length_lt

theorem completes_mark {wanted : Mark} (hm : .mark wanted ∈ fillers)
    (hs : ∀ others, Starts (.mark wanted :: others)) : Completes Starts Ends (mark wanted) :=
  .single (.mark wanted) () hm hs fun others _ => mark_self wanted others

theorem prompt_mark {wanted : Mark} (hm : .mark wanted ∈ fillers) (ts : List Lexeme) :
    Prompt Anything (mark wanted) ts := by
  obtain ⟨others, rfl⟩ | ht := eq_cons_or_head_ne (.mark wanted) ts
  · exact .cons nofun (mark_self wanted) (.done () fun _ _ => rfl)
  · apply Prompt.stuck (.missing (.mark wanted)) trivial
    · exact fun others ho => mark_of_ne (ho ▸ ht)
    · exact completes_mark hm fun _ => trivial

theorem prompt_name (ts : List Lexeme) : Prompt Anything name ts := by
  have hcompletes : Completes Anything Anything name :=
    .single (.name "x") "x" (by decide) (fun _ => trivial) fun _ _ => rfl
  match ts with
  | .name id :: ts => exact .cons nofun (fun _ => rfl) (.done id fun _ _ => rfl)
  | [] | .integer _ :: _ | .text _ :: _ | .keyword _ :: _ | .mark _ :: _ | .unclosedText :: _
  | .illegal _ :: _ =>
      refine .stuck (.missing .name) trivial (fun others ho => ?_) hcompletes
      refine name_of_ne fun id t ht => ?_
      rw [ho] at ht
      cases ht <;> exact nofun

end Form

/-- A form is prompt if a mark has to stand behind it that it ends in front of. -/
theorem Prompt.before {form : Form α} (h : Prompt Ends form ts) {wanted : Mark}
    (hm : .mark wanted ∈ fillers) (hends : ∀ others, Ends (.mark wanted :: others)) :
    Prompt Anything (form.before wanted) ts :=
  h.andThen_of_consumes (fun _ rest _ => (Form.prompt_mark hm rest).map (fun _ => id) _)
    (fun _ => (Form.consumes_mark wanted).map _) fun _ => (Form.completes_mark hm hends).map _

namespace Form

theorem completes_orComma {closing : Mark} (hm : .mark closing ∈ fillers)
    (hs : ∀ others, Starts (.mark closing :: others)) (more : Form α) (value : α) :
    Completes Starts Ends (orComma closing more value) := by
  apply Completes.single (.mark closing) value hm hs
  intro others _
  rw [orComma_of_ne, map, andThen, mark_self]
  · rfl
  · rintro t ⟨⟩ heq
    rw [heq] at hm
    exact absurd hm (by decide)

theorem consumes_orComma {more : Form α} (h : more.Consumes) (closing : Mark) (value : α) :
    (orComma closing more value).Consumes := by
  intro ts result rest hok
  obtain ⟨others, rfl⟩ | ht := eq_cons_or_head_ne (.mark .comma) ts
  · exact Nat.lt_succ_of_lt (h others result rest hok)
  · rw [orComma_of_ne ht] at hok
    exact (consumes_mark closing).map _ ts result rest hok

theorem prompt_orComma {closing : Mark} (hm : .mark closing ∈ fillers) {more : Form α} (value : α)
    (hmore : more.Consumes) (h : ∀ others, ts = .mark .comma :: others → Prompt Anything more others) :
    Prompt Anything (orComma closing more value) ts := by
  obtain ⟨others, rfl⟩ | ht := eq_cons_or_head_ne (.mark .comma) ts
  · exact .cons nofun (fun _ => rfl) (h others rfl)
  · apply ((prompt_mark hm ts).map (fun _ => id) fun _ => value).congr_of_consumes
    · exact fun others ho => orComma_of_ne (ho ▸ ht)
    · exact consumes_orComma hmore closing value
    · exact completes_orComma hm (fun _ => trivial) more value

theorem prompt_parametersOnto (read : List String) (ts : List Lexeme) :
    Prompt Anything (parametersOnto read) ts := by
  have hm : .mark .closeParen ∈ fillers := by decide
  rw [parametersOnto_eq]
  apply (prompt_name ts).andThen_of_le
  · intro id rest hid
    apply prompt_orComma hm
    · exact fun _ _ _ => Parse.length_lt
    · rintro others rfl
      have hlt : (Lexeme.mark .comma :: others).length < ts.length := Parse.length_lt hid
      exact prompt_parametersOnto (id :: read) others
  · exact fun _ => id
  · exact fun id => completes_orComma hm (fun _ => trivial) _ _
termination_by ts.length
decreasing_by exact Nat.lt_of_succ_lt hlt

theorem completes_parameters : Completes Anything Ends parameters :=
  .single (.mark .closeParen) [] (by decide) (fun _ => trivial) fun _ _ => rfl

theorem prompt_parameters (ts : List Lexeme) : Prompt Anything parameters ts := by
  obtain ⟨others, rfl⟩ | ht := eq_cons_or_head_ne (.mark .closeParen) ts
  · exact .cons nofun parameters_closeParen (.done [] fun _ _ => rfl)
  · apply (prompt_parametersOnto [] ts).congr_of_consumes
    · exact fun others ho => parameters_of_ne (ho ▸ ht)
    · exact fun _ _ _ => Parse.length_lt
    · exact completes_parameters

end Form

/-! ## Expressions and statements of fewer lexemes -/

/-- Expressions and statements are prompt on fewer than `n` lexemes. -/
structure PromptBelow (n : Nat) : Prop where
  expression : ∀ ts, ts.length < n → Prompt Stops Form.expression ts
  statement : ∀ ts, ts.length < n → Prompt EndsStmt Form.statement ts

namespace Form

theorem chain_atom {lexeme : Lexeme} {atom : Expr} (h : IsAtom lexeme atom) {remaining : List Tier}
    (hr : remaining ⊆ tiers) (hs : Stops rest) : chain remaining (lexeme :: rest) = .ok atom rest := by
  apply Parse.reads_chain_unary _ (h.reads hs.not_mem_applications)
  exact fun tier hm t ht => operator?_of_not_mem (hs t ht) tier (hr hm)

theorem expression_atom {lexeme : Lexeme} {atom : Expr} (h : IsAtom lexeme atom) (hs : Stops rest) :
    expression (lexeme :: rest) = .ok atom rest := by
  rw [expression_eq]
  exact chain_atom h (List.Subset.refl _) hs

theorem isAtom_zero : IsAtom (.integer "0") (.integer 0) :=
  .integer (by decide)

/-- A zero is an expression. -/
theorem completes_chain {remaining : List Tier} (hr : remaining ⊆ tiers) :
    Completes Anything Stops (chain remaining) :=
  .single (.integer "0") (.integer 0) (by decide) (fun _ => trivial) fun _ =>
    chain_atom isAtom_zero hr

theorem completes_expression : Completes Anything Stops expression := by
  rw [expression_eq]
  exact completes_chain fun _ => id

theorem consumes_expression : expression.Consumes :=
  fun _ _ _ => Parse.length_lt

/-! ## Blocks -/

theorem completes_statementsOnto (read : List Stmt)
    (hs : ∀ others, Starts (.mark .closeBrace :: others)) :
    Completes Starts Ends (statementsOnto read) :=
  .single (.mark .closeBrace) read.reverse (by decide) hs fun others _ =>
    statementsOnto_closeBrace read others

theorem endsStmt_closeBrace (others : List Lexeme) : EndsStmt (.mark .closeBrace :: others) := by
  rintro t ⟨⟩
  rfl

theorem prompt_statementsOnto (h : PromptBelow n) (read : List Stmt) (ts : List Lexeme)
    (hts : ts.length < n) : Prompt Anything (statementsOnto read) ts := by
  have hcompletes : Completes Anything Anything (statementsOnto read) :=
    completes_statementsOnto read fun _ => trivial
  obtain ⟨others, rfl⟩ | ht := eq_cons_or_head_ne (.mark .closeBrace) ts
  · exact .cons nofun (statementsOnto_closeBrace read) (.done read.reverse fun _ _ => rfl)
  match ts with
  | [] =>
      apply Prompt.stuck (.missing (.mark .closeBrace)) trivial _ hcompletes
      intro others ho
      rw [List.head?_nil, List.head?_eq_none_iff] at ho
      rw [ho]
      exact statementsOnto_nil read
  | t :: ts =>
      have hprompt : Prompt Anything (statement.andThen fun stmt => statementsOnto (stmt :: read))
          (t :: ts) := by
        apply (h.statement _ hts).andThen_of_consumes
        · intro stmt rest hstmt
          have hlt : rest.length < (t :: ts).length := Parse.length_lt hstmt
          exact prompt_statementsOnto h (stmt :: read) rest (Nat.lt_trans hlt hts)
        · exact fun stmt _ _ _ => Parse.length_lt
        · exact fun stmt => completes_statementsOnto (stmt :: read) endsStmt_closeBrace
      apply hprompt.congr_of_consumes _ (fun _ _ _ => Parse.length_lt) hcompletes
      intro others ho
      apply statementsOnto_of_ne
      · rintro rfl
        cases ho
      · exact ho ▸ ht
termination_by ts.length
decreasing_by exact hlt

theorem completes_block (hs : ∀ others, Starts (.mark .openBrace :: others)) :
    Completes Starts Ends block := by
  have hstatements : Completes Anything Ends (statementsOnto []) :=
    completes_statementsOnto [] fun _ => trivial
  rw [block_eq]
  exact (completes_mark (by decide) hs).andThen fun _ => hstatements

theorem prompt_block (h : PromptBelow n) (ts : List Lexeme) (hts : ts.length ≤ n) :
    Prompt Anything block ts := by
  rw [block_eq]
  apply (prompt_mark (by decide) ts).andThen_of_le
  · intro _ rest hmark
    have hlt : rest.length < ts.length := Parse.length_lt hmark
    exact prompt_statementsOnto h [] rest (Nat.lt_of_lt_of_le hlt hts)
  · exact fun _ => id
  · exact fun _ => completes_statementsOnto [] fun _ => trivial

/-! ## Lists of expressions -/

theorem prompt_itemsOnto (h : PromptBelow n) {closing : Mark} (hm : .mark closing ∈ fillers)
    (hends : .mark closing ∉ continuations) (read : List Expr) (ts : List Lexeme)
    (hts : ts.length < n) : Prompt Anything (itemsOnto closing read) ts := by
  rw [itemsOnto_eq]
  apply (h.expression ts hts).andThen_of_consumes
  · intro item rest hitem
    apply prompt_orComma hm
    · exact fun _ _ _ => Parse.length_lt
    · rintro others rfl
      have hlt : (Lexeme.mark .comma :: others).length < ts.length := Parse.length_lt hitem
      have hlt' : others.length < ts.length := Nat.lt_of_succ_lt hlt
      exact prompt_itemsOnto h hm hends (item :: read) others (Nat.lt_trans hlt' hts)
  · exact fun _ => consumes_orComma (fun _ _ _ => Parse.length_lt) closing _
  · exact fun _ => completes_orComma hm (fun _ => stops_cons_iff.mpr hends) _ _
termination_by ts.length
decreasing_by exact hlt'

theorem completes_items {closing : Mark} (hm : .mark closing ∈ fillers) :
    Completes Anything Ends (items closing) :=
  .single (.mark closing) [] hm (fun _ => trivial) fun others _ => items_closing closing others

theorem prompt_items (h : PromptBelow n) {closing : Mark} (hm : .mark closing ∈ fillers)
    (hends : .mark closing ∉ continuations) (ts : List Lexeme) (hts : ts.length < n) :
    Prompt Anything (items closing) ts := by
  obtain ⟨others, rfl⟩ | ht := eq_cons_or_head_ne (.mark closing) ts
  · exact .cons nofun (items_closing closing) (.done [] fun _ _ => rfl)
  · apply (prompt_itemsOnto h hm hends [] ts hts).congr_of_consumes
    · exact fun others ho => items_of_ne (ho ▸ ht)
    · exact fun _ _ _ => Parse.length_lt
    · exact completes_items hm

theorem completes_pairsOnto (read : List (Expr × Expr)) : Completes Anything Ends (pairsOnto read) :=
  .single (.mark .closeBrace) read.reverse (by decide) (fun _ => trivial) fun others _ =>
    pairsOnto_closeBrace read others

theorem prompt_pairsOnto (h : PromptBelow n) (read : List (Expr × Expr)) (ts : List Lexeme)
    (hts : ts.length < n) : Prompt Anything (pairsOnto read) ts := by
  have hm : .mark .closeBrace ∈ fillers := by decide
  obtain ⟨others, rfl⟩ | ht := eq_cons_or_head_ne (.mark .closeBrace) ts
  · exact .cons nofun (pairsOnto_closeBrace read) (.done read.reverse fun _ _ => rfl)
  have hends : ∀ others, Stops (.mark .closeBrace :: others) := fun _ =>
    stops_cons_iff.mpr (by decide)
  have hkey : Prompt Anything (expression.before .colon) ts :=
    (h.expression ts hts).before (by decide) fun _ => stops_cons_iff.mpr (by decide)
  have hconsumes : (expression.before .colon).Consumes :=
    consumes_expression.andThen fun _ => (consumes_mark .colon).map _
  have hpair : Prompt Anything ((expression.before .colon).andThen fun key =>
      expression.andThen fun value => orComma .closeBrace (pairsOnto ((key, value) :: read))
        ((key, value) :: read).reverse) ts := by
    apply hkey.andThen_of_le
    · intro key middle hmiddle
      have hlt : middle.length < ts.length := hconsumes ts key middle hmiddle
      apply (h.expression middle (Nat.lt_trans hlt hts)).andThen_of_consumes
      · intro value rest hvalue
        apply prompt_orComma hm
        · exact fun _ _ _ => Parse.length_lt
        · rintro others rfl
          have hlt' : others.length < middle.length := Nat.lt_of_succ_lt (Parse.length_lt hvalue)
          have hothers : others.length < ts.length := Nat.lt_trans hlt' hlt
          exact prompt_pairsOnto h ((key, value) :: read) others (Nat.lt_trans hothers hts)
      · exact fun _ => consumes_orComma (fun _ _ _ => Parse.length_lt) .closeBrace _
      · exact fun _ => completes_orComma hm hends _ _
    · exact fun _ => id
    · exact fun key => completes_expression.andThen fun value => completes_orComma hm hends _ _
  apply hpair.congr_of_consumes
  · exact fun others ho => pairsOnto_of_ne read (ho ▸ ht)
  · exact fun _ _ _ => Parse.length_lt
  · exact completes_pairsOnto read
termination_by ts.length
decreasing_by exact hothers

/-! ## Operands -/

theorem prompt_alternative (h : PromptBelow n) (test : Expr) (consequent : Block) (ts : List Lexeme)
    (hts : ts.length ≤ n) : Prompt Stops (alternative test consequent) ts := by
  obtain ⟨others, rfl⟩ | ht := eq_cons_or_head_ne (.keyword .alternative) ts
  · refine .cons nofun (fun _ => rfl) ((prompt_block h others ?_).map (fun _ _ => trivial) _)
    exact Nat.le_of_succ_le hts
  · refine .done (.condition test consequent none) fun others ho => alternative_of_ne ?_
    obtain ho | ho := ho
    · exact ho ▸ ht
    · exact ho.head_ne (by decide)

theorem completes_primary : Completes Anything Ends primary :=
  .single (.integer "0") (.integer 0) (by decide) (fun _ => trivial) fun others _ =>
    primary_integer (by decide) others

/-- No primary expression begins here. -/
theorem prompt_primary_of_not_starts (ht : ∀ t ∈ ts.head?, t.startsExpr = false) :
    Prompt Ends primary ts :=
  .stuck (.missing .expression) trivial (fun _ ho => primary_of_not_starts (ho ▸ ht)) completes_primary

theorem prompt_primary_integer (digits : String) (ts : List Lexeme) :
    Prompt Ends primary (.integer digits :: ts) := by
  cases hvalue : integerLiteral? digits with
  | some value => exact .cons nofun (primary_integer hvalue) (.done (.integer value) fun _ _ => rfl)
  | none =>
      refine .stuck (.tooLarge digits) ?_ (fun others ho => ?_) completes_primary
      · exact List.head?_cons
      · obtain ⟨others, rfl⟩ := List.head?_eq_some_iff.mp ho
        exact primary_tooLarge hvalue others

theorem prompt_primary_openParen (h : PromptBelow n) (hts : ts.length < n) :
    Prompt Ends primary (.mark .openParen :: ts) := by
  refine .cons nofun primary_openParen (Prompt.mono ?_ fun _ _ => trivial)
  exact (h.expression ts hts).before (by decide) fun _ => stops_cons_iff.mpr (by decide)

theorem prompt_primary_condition (h : PromptBelow n) (hts : ts.length < n) :
    Prompt Stops primary (.keyword .condition :: ts) := by
  have hcompletes : ∀ test consequent, Completes Anything Stops (alternative test consequent) :=
    fun test consequent => .nothing (.condition test consequent none) (fun _ _ => trivial)
      fun others ho => alternative_of_ne (ho.head_ne (by decide))
  refine .cons nofun primary_condition ((h.expression ts hts).andThen_of_le ?_ (fun _ => id) ?_)
  · intro test middle htest
    have hmiddle : middle.length < n := Nat.lt_trans (Parse.length_lt htest) hts
    refine (prompt_block h middle (Nat.le_of_lt hmiddle)).andThen_of_le ?_ (fun _ _ => trivial)
      (hcompletes test)
    intro consequent rest hblock
    have hrest : rest.length < middle.length := Parse.length_lt hblock
    exact prompt_alternative h test consequent rest (Nat.le_of_lt (Nat.lt_trans hrest hmiddle))
  · intro test
    exact (completes_block fun _ => stops_cons_iff.mpr (by decide)).andThen (hcompletes test)

theorem prompt_primary_function (h : PromptBelow n) (hts : ts.length < n) :
    Prompt Ends primary (.keyword .function :: ts) := by
  have hbody : ∀ params, Completes Anything Anything
      (block.map fun body => Expr.function none params body) :=
    fun params => (completes_block fun _ => trivial).map _
  refine .cons nofun primary_function (Prompt.mono ?_ fun _ _ => trivial)
  refine (prompt_mark (by decide) ts).andThen_of_le ?_ (fun _ => id) ?_
  · intro _ middle hmark
    have hmiddle : middle.length < n := Nat.lt_trans (Parse.length_lt hmark) hts
    refine (prompt_parameters middle).andThen_of_le ?_ (fun _ => id) hbody
    intro params rest hparams
    have hrest : rest.length < middle.length := Parse.length_lt hparams
    exact (prompt_block h rest (Nat.le_of_lt (Nat.lt_trans hrest hmiddle))).map (fun _ => id) _
  · exact fun _ => completes_parameters.andThen hbody

theorem prompt_primary (h : PromptBelow n) (ts : List Lexeme) (hts : ts.length ≤ n) :
    Prompt Stops primary ts := by
  cases ts with
  | nil => exact prompt_primary_of_not_starts nofun
  | cons t ts =>
    have hlt : ts.length < n := hts
    cases t with
    | integer digits => exact prompt_primary_integer digits ts
    | text value => exact .cons nofun (Parse.reads_primary_text value) (.done _ fun _ _ => rfl)
    | name id => exact .cons nofun (Parse.reads_primary_name id) (.done _ fun _ _ => rfl)
    | keyword word =>
      cases word with
      | truth => exact .cons nofun (Parse.reads_primary_boolean true) (.done _ fun _ _ => rfl)
      | falsity => exact .cons nofun (Parse.reads_primary_boolean false) (.done _ fun _ _ => rfl)
      | condition => exact prompt_primary_condition h hlt
      | function => exact prompt_primary_function h hlt
      | _ => exact prompt_primary_of_not_starts (by rintro t ⟨⟩; rfl)
    | mark m =>
      cases m with
      | openParen => exact prompt_primary_openParen h hlt
      | openBracket =>
          have hitems : Prompt Anything (items .closeBracket) ts :=
            prompt_items h (by decide) (by decide) ts hlt
          exact .cons nofun primary_openBracket (hitems.map (fun _ _ => trivial) _)
      | openBrace =>
          have hpairs := prompt_pairsOnto h [] ts hlt
          exact .cons nofun primary_openBrace (hpairs.map (fun _ _ => trivial) _)
      | _ => exact prompt_primary_of_not_starts (by rintro t ⟨⟩; rfl)
    | unclosedText | illegal => exact prompt_primary_of_not_starts (by rintro t ⟨⟩; rfl)

/-- A loop that reads nothing in front of an end. -/
theorem completes_appliedOnto (head : Expr) : Completes Stops Stops (appliedOnto head) := by
  refine .nothing head (fun _ => id) fun others ho => appliedOnto_of_ne head ?_
  exact fun t ht => ⟨ho.head_ne (by decide) t ht, ho.head_ne (by decide) t ht⟩

theorem prompt_appliedOnto (h : PromptBelow n) (head : Expr) (ts : List Lexeme) (hts : ts.length ≤ n) :
    Prompt Stops (appliedOnto head) ts := by
  have hcompletes : ∀ head, Completes Anything Stops (appliedOnto head) := fun head =>
    (completes_appliedOnto head).mono fun _ => id
  obtain ⟨others, rfl⟩ | hparen := eq_cons_or_head_ne (.mark .openParen) ts
  · refine .cons nofun (appliedOnto_openParen head) ?_
    refine (prompt_items h (by decide) (by decide) others hts).andThen_of_le ?_ (fun _ _ => trivial)
      fun _ => hcompletes _
    intro arguments rest hitems
    have hlt : rest.length < others.length := Parse.length_lt hitems
    have hrest : rest.length < n := Nat.lt_trans hlt hts
    exact prompt_appliedOnto h (.call head arguments) rest (Nat.le_of_lt hrest)
  obtain ⟨others, rfl⟩ | hbracket := eq_cons_or_head_ne (.mark .openBracket) ts
  · have hposition : Prompt Anything (expression.before .closeBracket) others :=
      (h.expression others hts).before (by decide) fun _ => stops_cons_iff.mpr (by decide)
    have hconsumes : (expression.before .closeBracket).Consumes :=
      consumes_expression.andThen fun _ => (consumes_mark .closeBracket).map _
    refine .cons nofun (appliedOnto_openBracket head) ?_
    refine hposition.andThen_of_le ?_ (fun _ _ => trivial) fun _ => hcompletes _
    intro position rest hread
    have hlt : rest.length < others.length := hconsumes others position rest hread
    have hrest : rest.length < n := Nat.lt_trans hlt hts
    exact prompt_appliedOnto h (.index head position) rest (Nat.le_of_lt hrest)
  · refine .done head fun others ho => appliedOnto_of_ne head fun t ht => ?_
    obtain ho | ho := ho
    · rw [ho] at ht
      exact ⟨hparen t ht, hbracket t ht⟩
    · exact ⟨ho.head_ne (by decide) t ht, ho.head_ne (by decide) t ht⟩
termination_by ts.length
decreasing_by
  all_goals
    subst_vars
    exact Nat.lt_succ_of_lt hlt

theorem prompt_applied (h : PromptBelow n) (ts : List Lexeme) (hts : ts.length ≤ n) :
    Prompt Stops applied ts := by
  rw [applied_eq]
  apply (prompt_primary h ts hts).andThen_of_le _ (fun _ => id) completes_appliedOnto
  intro head rest hprimary
  have hrest : rest.length < ts.length := Parse.length_lt hprimary
  exact prompt_appliedOnto h head rest (Nat.le_of_lt (Nat.lt_of_lt_of_le hrest hts))

theorem prompt_unary (h : PromptBelow n) (ts : List Lexeme) (hts : ts.length ≤ n) :
    Prompt Stops unary ts := by
  have hcompletes : Completes Anything Stops unary := by
    rw [← chain_nil]
    exact completes_chain (List.nil_subset _)
  have happlied : (∀ t ∈ ts.head?, UnaryOp.ofLexeme? t = none) → Prompt Stops unary ts := by
    intro hnone
    apply (prompt_applied h ts hts).congr_of_consumes _ (fun _ _ _ => Parse.length_lt) hcompletes
    exact fun others ho => unary_of_none (ho ▸ hnone)
  cases ts with
  | nil => exact happlied nofun
  | cons t ts =>
      cases hop : UnaryOp.ofLexeme? t with
      | none =>
          apply happlied
          rintro t' ⟨⟩
          exact hop
      | some op =>
          have hargument := prompt_unary h ts (Nat.le_of_succ_le hts)
          refine .cons ?_ (unary_of_some hop) (hargument.map (fun _ => id) _)
          rintro rfl
          cases hop

/-! ## Chains of operators -/

theorem completes_chainOnto {tier : Tier} (ht : tier ∈ tiers) (tighter : List Tier) (left : Expr) :
    Completes Stops Stops (chainOnto tier tighter left) := by
  refine .nothing left (fun _ => id) fun others ho => chainOnto_of_none tighter left fun t hm => ?_
  exact operator?_of_not_mem (ho t hm) tier ht

theorem prompt_chainOnto {tier : Tier} {tighter : List Tier} (ht : tier ∈ tiers)
    (h : ∀ ts, ts.length ≤ n → Prompt Stops (chain tighter) ts) (left : Expr) (ts : List Lexeme)
    (hts : ts.length ≤ n) : Prompt Stops (chainOnto tier tighter left) ts := by
  have hend : (∀ t ∈ ts.head?, tier.operator? t = none) →
      Prompt Stops (chainOnto tier tighter left) ts := by
    refine fun hnone => .done left fun others ho => chainOnto_of_none tighter left fun t hm => ?_
    obtain ho | ho := ho
    · exact hnone t (ho ▸ hm)
    · exact operator?_of_not_mem (ho t hm) tier ht
  cases ts with
  | nil => exact hend nofun
  | cons t ts =>
      cases hop : tier.operator? t with
      | none =>
          apply hend
          rintro t' ⟨⟩
          exact hop
      | some op =>
          have hrest : ts.length ≤ n := Nat.le_of_succ_le hts
          refine .cons ?_ (chainOnto_of_some tighter left hop) ((h ts hrest).andThen_of_le ?_ (fun _ => id)
            fun right => completes_chainOnto ht tighter (.binary op left right))
          · rintro rfl
            cases hop
          · intro right rest hright
            have hlt : rest.length < ts.length := Parse.length_lt hright
            exact prompt_chainOnto ht h (.binary op left right) rest
              (Nat.le_of_lt (Nat.lt_of_lt_of_le hlt hrest))
termination_by ts.length
decreasing_by
  subst_vars
  exact Nat.lt_succ_of_lt hlt

theorem prompt_chain (h : PromptBelow n) (remaining : List Tier) (hr : remaining ⊆ tiers)
    (ts : List Lexeme) (hts : ts.length ≤ n) : Prompt Stops (chain remaining) ts := by
  induction remaining generalizing ts with
  | nil =>
      rw [chain_nil]
      exact prompt_unary h ts hts
  | cons tier tighter ih =>
      obtain ⟨ht, htighter⟩ := List.cons_subset.mp hr
      rw [chain_cons]
      apply (ih htighter ts hts).andThen_of_le _ (fun _ => id) (completes_chainOnto ht tighter)
      intro left rest hleft
      have hrest : rest.length < ts.length := Parse.length_lt hleft
      exact prompt_chainOnto ht (ih htighter) left rest (Nat.le_of_lt (Nat.lt_of_lt_of_le hrest hts))

theorem prompt_expression (h : PromptBelow n) (ts : List Lexeme) (hts : ts.length ≤ n) :
    Prompt Stops expression ts := by
  rw [expression_eq]
  exact prompt_chain h tiers (fun _ => id) ts hts

/-! ## Statements -/

theorem prompt_value (h : PromptBelow n) (ts : List Lexeme) (hts : ts.length ≤ n) (f : Expr → α) :
    Prompt EndsOpen (expression.map f) ts :=
  (prompt_expression h ts hts).map (fun _ => EndsOpen.stops) f

theorem completes_value (f : Expr → α) : Completes Anything EndsOpen (expression.map f) :=
  (completes_expression.mono fun _ => EndsOpen.stops).map f

theorem prompt_openStatement_binding (h : PromptBelow n) (hts : ts.length ≤ n) :
    Prompt EndsOpen openStatement (.keyword .binding :: ts) := by
  have hname : Prompt Anything (name.before .assign) ts :=
    (prompt_name ts).before (by decide) fun _ => trivial
  have hconsumes : (name.before .assign).Consumes :=
    Consumes.andThen (fun _ _ _ => Parse.length_lt) fun _ => (consumes_mark .assign).map _
  refine .cons nofun openStatement_binding (hname.andThen_of_le ?_ (fun _ _ => trivial) fun _ =>
    completes_value _)
  intro id rest hread
  have hlt : rest.length < ts.length := hconsumes ts id rest hread
  exact prompt_value h rest (Nat.le_of_lt (Nat.lt_of_lt_of_le hlt hts)) _

theorem openStatement_result_of_endsOpen (h : EndsOpen ts) :
    openStatement (.keyword .result :: ts) = .ok (.result none) ts := by
  cases ts with
  | nil =>
      rw [openStatement, Parse.openStatement]
      rfl
  | cons t ts =>
      obtain rfl | rfl := h t rfl
      all_goals
        rw [openStatement, Parse.openStatement]
        rfl

theorem openStatement_result_of_not_endsOpen (h : ¬ EndsOpen ts) :
    openStatement (.keyword .result :: ts) = expression.map (fun value => .result (some value)) ts := by
  simp only [EndsOpen, Classical.not_forall, not_or] at h
  obtain ⟨t, ht, hne⟩ := h
  obtain ⟨others, rfl⟩ := List.head?_eq_some_iff.mp ht
  apply openStatement_result_of_ne (List.cons_ne_nil t others)
  rintro _ ⟨⟩
  exact hne

theorem prompt_openStatement_result (h : PromptBelow n) (hts : ts.length ≤ n) :
    Prompt EndsOpen openStatement (.keyword .result :: ts) := by
  suffices h : Prompt EndsOpen (fun ts => openStatement (.keyword .result :: ts)) ts from
    .cons nofun (fun _ => rfl) h
  by_cases hends : EndsOpen ts
  · refine .done (.result none) fun others ho => openStatement_result_of_endsOpen ?_
    obtain ho | ho := ho
    · rwa [EndsOpen, ho]
    · exact ho
  · have hvalue : ∀ others, others.head? = ts.head? → openStatement (.keyword .result :: others) =
        expression.map (fun value => .result (some value)) others := by
      intro others ho
      apply openStatement_result_of_not_endsOpen
      rwa [EndsOpen, ho]
    apply (prompt_value h ts hts fun value => .result (some value)).congr hvalue
    · intro value hok
      rw [hvalue ts rfl] at hok
      exact absurd (consumes_expression.map _ _ _ _ hok) (Nat.lt_irrefl _)
    · exact .nothing (.result none) (fun _ _ => trivial) fun _ => openStatement_result_of_endsOpen

/-- No assignment begins in front of something else than the mark of one. -/
theorem openStatement_name {id : String} (h : ∀ t ∈ ts.head?, t ≠ .mark .assign) :
    openStatement (.name id :: ts) = expression.map .expr (.name id :: ts) := by
  apply openStatement_of_ne
  · rintro t ⟨⟩
    exact ⟨nofun, nofun⟩
  · rintro id' others heq
    obtain ⟨-, rfl⟩ := List.cons.inj heq
    exact h _ rfl rfl

theorem prompt_openStatement_name (h : PromptBelow n) (id : String) (ts : List Lexeme)
    (hts : ts.length < n) : Prompt EndsOpen openStatement (.name id :: ts) := by
  suffices h : Prompt EndsOpen (fun ts => openStatement (.name id :: ts)) ts from
    .cons nofun (fun _ => rfl) h
  obtain ⟨others, rfl⟩ | ht := eq_cons_or_head_ne (.mark .assign) ts
  · have hothers : others.length ≤ n := Nat.le_of_lt (Nat.lt_of_succ_lt hts)
    exact .cons nofun (openStatement_assign id) (prompt_value h others hothers _)
  · have hends : ∀ others, EndsOpen others → ∀ t ∈ others.head?, t ≠ .mark .assign :=
      fun others ho => ho.stops.head_ne (by decide)
    have hname : ∀ others, EndsOpen others →
        expression.map Stmt.expr (.name id :: others) = .ok (.expr (.name id)) others := by
      intro others ho
      rw [map, andThen, expression_atom (.name id) ho.stops]
      rfl
    have hvalue : Prompt EndsOpen (fun ts => expression.map Stmt.expr (.name id :: ts)) ts :=
      (prompt_value h (.name id :: ts) hts Stmt.expr).tail (consumes_expression.map _)
        ⟨[], _, _, hname [] endsStmt_nil.endsOpen⟩
    apply hvalue.congr
    · exact fun others ho => openStatement_name (ho ▸ ht)
    · exact fun _ _ others ho => openStatement_name (hends others ho)
    · refine .nothing (.expr (.name id)) (fun _ _ => trivial) fun others ho => ?_
      exact (openStatement_name (hends others ho)).trans (hname others ho)

/-- A statement that begins in no other way is an expression. -/
theorem prompt_openStatement_expr (h : PromptBelow n) (hts : ts.length ≤ n) (ht : ∀ t ∈ ts.head?,
    t ≠ .keyword .binding ∧ t ≠ .keyword .result ∧ ∀ id, t ≠ .name id) :
    Prompt EndsOpen openStatement ts := by
  have hvalue : ∀ others, others.head? = ts.head? →
      openStatement others = expression.map .expr others := by
    intro others ho
    rw [← ho] at ht
    apply openStatement_of_ne
    · exact fun t hm => ⟨(ht t hm).1, (ht t hm).2.1⟩
    · rintro id others rfl
      exact (ht _ rfl).2.2 id rfl
  apply (prompt_value h ts hts .expr).congr_of_consumes hvalue (fun _ _ _ => Parse.length_lt)
  apply Completes.single (.integer "0") (.expr (.integer 0)) (by decide) fun _ => trivial
  intro others ho
  have hzero : openStatement (.integer "0" :: others) =
      expression.map .expr (.integer "0" :: others) := by
    apply openStatement_of_ne
    · rintro t ⟨⟩
      exact ⟨nofun, nofun⟩
    · intro id rest heq
      cases (List.cons.inj heq).1
  refine hzero.trans ?_
  rw [map, andThen, expression_atom isAtom_zero ho.stops]
  rfl

theorem prompt_openStatement (h : PromptBelow n) (ts : List Lexeme) (hts : ts.length ≤ n) :
    Prompt EndsOpen openStatement ts := by
  cases ts with
  | nil => exact prompt_openStatement_expr h hts nofun
  | cons t ts =>
    cases t with
    | name id => exact prompt_openStatement_name h id ts hts
    | keyword word =>
      cases word with
      | binding => exact prompt_openStatement_binding h (Nat.le_of_succ_le hts)
      | result => exact prompt_openStatement_result h (Nat.le_of_succ_le hts)
      | _ =>
          apply prompt_openStatement_expr h hts
          rintro t ⟨⟩
          exact ⟨nofun, nofun, nofun⟩
    | _ =>
        apply prompt_openStatement_expr h hts
        rintro t ⟨⟩
        exact ⟨nofun, nofun, nofun⟩

theorem prompt_withSemicolon (stmt : Stmt) (ts : List Lexeme) :
    Prompt EndsStmt (withSemicolon stmt) ts := by
  obtain ⟨others, rfl⟩ | ht := eq_cons_or_head_ne (.mark .semicolon) ts
  · exact .cons nofun (fun _ => rfl) (.done stmt fun _ _ => rfl)
  · refine .done stmt fun others ho => withSemicolon_of_ne stmt fun t hm => ?_
    obtain ho | ho := ho
    · exact ht t (ho ▸ hm)
    · rw [ho t hm]
      decide

theorem prompt_statement (h : PromptBelow n) (ts : List Lexeme) (hts : ts.length ≤ n) :
    Prompt EndsStmt statement ts := by
  rw [statement_eq]
  apply (prompt_openStatement h ts hts).andThen_of_le
  · exact fun stmt rest _ => prompt_withSemicolon stmt rest
  · exact fun _ => EndsStmt.endsOpen
  · refine fun stmt => .nothing stmt (fun _ => EndsStmt.endsOpen) fun others ho => ?_
    apply withSemicolon_of_ne
    intro t hm
    rw [ho t hm]
    decide

end Form

/-- Expressions and statements are prompt. -/
theorem promptBelow (n : Nat) : PromptBelow n := by
  induction n with
  | zero => exact ⟨nofun, nofun⟩
  | succ n ih =>
      constructor
      · exact fun ts hts => Form.prompt_expression ih ts (Nat.le_of_lt_succ hts)
      · exact fun ts hts => Form.prompt_statement ih ts (Nat.le_of_lt_succ hts)

/-! ## Programs -/

namespace Form

theorem programOnto_eq (read : List Stmt) (t : Lexeme) (ts : List Lexeme) :
    Parse.programOnto read (t :: ts) =
      (statement.andThen fun stmt => Parse.programOnto (stmt :: read)) (t :: ts) := by
  rw [Parse.programOnto, andThen, statement]
  cases Parse.statement (t :: ts) with
  | mk outcome hfits => cases outcome <;> rfl

/-- A program reads everything. -/
theorem programOnto_eq_ok {read : List Stmt} {program : Program} {ts : List Lexeme}
    (h : Parse.programOnto read ts = .ok program rest) : rest = [] := by
  match ts with
  | [] =>
      rw [Parse.programOnto] at h
      cases h
      rfl
  | t :: ts =>
      rw [programOnto_eq] at h
      obtain ⟨stmt, middle, hstmt, hmiddle⟩ := andThen_eq_ok h
      have hlt : middle.length < (t :: ts).length := Parse.length_lt hstmt
      exact programOnto_eq_ok hmiddle
termination_by ts.length
decreasing_by exact hlt

theorem completes_programOnto (read : List Stmt) :
    Completes EndsStmt (· = []) (Parse.programOnto read) := by
  refine .nothing read.reverse ?_ ?_
  · rintro _ rfl
    exact endsStmt_nil
  · rintro _ rfl
    rw [Parse.programOnto]

theorem prompt_programOnto (read : List Stmt) (ts : List Lexeme) :
    Prompt (· = []) (Parse.programOnto read) ts := by
  cases ts with
  | nil =>
      refine .done read.reverse fun others ho => ?_
      obtain rfl : others = [] := ho.elim List.head?_eq_none_iff.mp id
      rw [Parse.programOnto]
  | cons t ts =>
      have hprompt : Prompt (· = []) (statement.andThen fun stmt => Parse.programOnto (stmt :: read))
          (t :: ts) := by
        apply ((promptBelow _).statement _ (Nat.lt_succ_self _)).andThen_of_le
        · intro stmt rest hstmt
          have hlt : rest.length < (t :: ts).length := Parse.length_lt hstmt
          exact prompt_programOnto (stmt :: read) rest
        · rintro _ rfl
          exact endsStmt_nil
        · exact fun stmt => completes_programOnto (stmt :: read)
      apply hprompt.congr
      · intro others ho
        obtain ⟨others, rfl⟩ := List.head?_eq_some_iff.mp ho
        exact programOnto_eq read t others
      · intro program hok
        cases programOnto_eq_ok hok
      · exact (completes_programOnto read).mono fun _ => id
termination_by ts.length
decreasing_by exact hlt

end Form

/-- A complaint about a program is one about the first lexeme that no program goes on with. The
lexemes in front of it are the beginning of a program, with a few others behind them, and whatever
follows, the complaint stays the same. -/
theorem Parse.program_eq_error {complaint : Complaint}
    (h : program ts = .error complaint rest) :
    complaint.Concerns rest ∧ ∃ front, Splits ts front rest ∧
      (∃ more value, more ⊆ fillers ∧ program (front ++ more) = .ok value []) ∧
      ∀ others, others.head? = rest.head? → program (front ++ others) = .error complaint others := by
  have hprompt := Form.prompt_programOnto [] ts
  obtain ⟨front, hsplits, ⟨more, value, hmore, hok⟩, hfront⟩ := hprompt.error complaint rest h
  have hvalue := (hok [] rfl).2
  rw [List.append_nil] at hvalue
  exact ⟨hprompt.concerns complaint rest h, front, hsplits, ⟨more, value, hmore, hvalue⟩, hfront⟩

end StackScript
