import StackScript.Proofs.Console.Brackets
import StackScript.Proofs.Program.Completion

/-!
# Programs close their brackets

Reading a form of the grammar leaves the brackets open that were open before, and what it reads last
can be the end of a program. So the tokens of a program close every bracket that they open, and the
last one of them is no operator.

## Implementation notes

The brackets that are open and the last lexeme make up one state, which the lexemes change one by
one. Each form is then described by the states in front of it and behind it, and a form behind another
one goes on where that one ended.
-/

namespace StackScript

open Lexeme

/-- A lexeme that can be the last one of a program. -/
def Lexeme.finishes : Lexeme → Bool
  | .integer _ | .text _ | .name _ => true
  | .keyword word => word ∈ [Keyword.truth, .falsity, .result]
  | .mark m => m ∈ [Mark.closeParen, .closeBracket, .closeBrace, .semicolon]
  | .unclosedText | .illegal _ => false

/-- The brackets that are open at some place, the most recently opened one first, and whether a
program can end there. -/
structure Nesting where
  opened : List Bracket
  finished : Bool

namespace Nesting

/-- The nesting behind a lexeme, if the lexeme is no closing bracket that fails to match. -/
def behind? (nesting : Nesting) (t : Lexeme) : Option Nesting :=
  (openBehind? nesting.opened t).map fun opened => ⟨opened, t.finishes⟩

theorem behind?_openingMark (bracket : Bracket) (opened : List Bracket) (finished : Bool) :
    behind? ⟨opened, finished⟩ (.mark bracket.openingMark) = some ⟨bracket :: opened, false⟩ := by
  cases bracket <;> rfl

theorem behind?_closingMark (bracket : Bracket) (opened : List Bracket) (finished : Bool) :
    behind? ⟨bracket :: opened, finished⟩ (.mark bracket.closingMark) = some ⟨opened, true⟩ := by
  cases bracket <;> rfl

/-- Lexemes behind which a program can end close the brackets that they open, and the last one of
them is the end of a program. -/
theorem openBehind?_of_behind? {ts : List Lexeme} {first last : Nesting}
    (h : ts.foldlM behind? first = some last) :
    ts.foldlM openBehind? first.opened = some last.opened ∧
      ∀ t ∈ ts.getLast?, t.finishes = last.finished := by
  induction ts generalizing first with
  | nil =>
      cases h
      exact ⟨rfl, nofun⟩
  | cons t ts ih =>
      rw [List.foldlM_cons] at h
      obtain ⟨next, hnext, hlast⟩ := Option.bind_eq_some_iff.mp h
      obtain ⟨opened, hopened, rfl⟩ := Option.map_eq_some_iff.mp hnext
      obtain ⟨hfold, hend⟩ := ih hlast
      refine ⟨?_, ?_⟩
      · rw [List.foldlM_cons, hopened]
        exact hfold
      · cases ts with
        | nil =>
            cases hlast
            rintro t ⟨⟩
            rfl
        | cons other ts =>
            rw [List.getLast?_cons_cons]
            exact hend

end Nesting

variable {α β : Type} {n : Nat} {t : Lexeme} {ts rest : List Lexeme} {first middle last : Nesting}
  {opened : List Bracket} {finished : Bool}

namespace Form

/-- A form that succeeds on some lexemes goes from one nesting to another one. -/
def Passes (form : Form α) (ts : List Lexeme) (first last : Nesting) : Prop :=
  ∀ value rest, form ts = .ok value rest →
    ∃ front, ts = front ++ rest ∧ front.foldlM Nesting.behind? first = some last

namespace Passes

variable {form form' : Form α} {next : α → Form β}

/-- A form that reads nothing here. -/
theorem done {value : α} (h : form ts = .ok value ts) : form.Passes ts first first := by
  intro value' rest hok
  cases h.symm.trans hok
  exact ⟨[], rfl, rfl⟩

/-- A form that fails here. -/
theorem fail {complaint : Complaint} (h : form ts = .error complaint rest) :
    form.Passes ts first last := by
  intro value rest hok
  cases h.symm.trans hok

theorem congr (h : form.Passes ts first last) (heq : form' ts = form ts) :
    form'.Passes ts first last :=
  fun value rest hok => h value rest (heq.symm.trans hok)

/-- A form that reads the first lexeme and goes on like another. -/
theorem cons (h : form'.Passes ts middle last) (ht : first.behind? t = some middle)
    (heq : form (t :: ts) = form' ts) : form.Passes (t :: ts) first last := by
  intro value rest hok
  obtain ⟨front, rfl, hfront⟩ := h value rest (heq.symm.trans hok)
  refine ⟨t :: front, rfl, ?_⟩
  rw [List.foldlM_cons, ht]
  exact hfront

/-- A form that reads the first lexeme and nothing else. -/
theorem single {value : α} (ht : first.behind? t = some last) (h : form (t :: ts) = .ok value ts) :
    form.Passes (t :: ts) first last := by
  have hnone : Passes (Outcome.ok value) ts last last := done rfl
  exact hnone.cons ht h

theorem andThen (h : form.Passes ts first middle)
    (hn : ∀ value rest, form ts = .ok value rest → (next value).Passes rest middle last) :
    (form.andThen next).Passes ts first last := by
  intro result rest hok
  obtain ⟨value, others, hform, hnext⟩ := andThen_eq_ok hok
  obtain ⟨front, rfl, hfront⟩ := h value others hform
  obtain ⟨front', rfl, hfront'⟩ := hn value others hform result rest hnext
  refine ⟨front ++ front', (List.append_assoc _ _ _).symm, ?_⟩
  rw [List.foldlM_append, hfront]
  exact hfront'

theorem map (h : form.Passes ts first last) (f : α → β) : (form.map f).Passes ts first last :=
  h.andThen fun _ _ _ => done rfl

end Passes

/-! ## Marks, names and lists -/

theorem passes_mark {wanted : Mark} (h : first.behind? (.mark wanted) = some last)
    (ts : List Lexeme) : (mark wanted).Passes ts first last := by
  obtain ⟨others, rfl⟩ | ht := eq_cons_or_head_ne (.mark wanted) ts
  · exact .single h (mark_self wanted others)
  · exact .fail (mark_of_ne ht)

theorem Passes.before {form : Form α} (h : form.Passes ts first middle) {wanted : Mark}
    (hm : middle.behind? (.mark wanted) = some last) : (form.before wanted).Passes ts first last :=
  h.andThen fun _ rest _ => (passes_mark hm rest).map _

theorem passes_name (ts : List Lexeme) :
    name.Passes ts ⟨opened, finished⟩ ⟨opened, true⟩ := by
  match ts with
  | .name id :: ts => exact .single rfl rfl
  | [] | .integer _ :: _ | .text _ :: _ | .keyword _ :: _ | .mark _ :: _ | .unclosedText :: _
  | .illegal _ :: _ =>
      refine .fail (name_of_ne fun id t ht => ?_)
      cases ht <;> exact nofun

theorem passes_orComma (bracket : Bracket) {more : Form α} (value : α)
    (h : ∀ others, ts = .mark .comma :: others →
      more.Passes others ⟨bracket :: opened, false⟩ ⟨opened, true⟩) :
    (orComma bracket.closingMark more value).Passes ts ⟨bracket :: opened, finished⟩
      ⟨opened, true⟩ := by
  obtain ⟨others, rfl⟩ | ht := eq_cons_or_head_ne (.mark .comma) ts
  · exact (h others rfl).cons rfl rfl
  · have hmark : (mark bracket.closingMark).Passes ts ⟨bracket :: opened, finished⟩ ⟨opened, true⟩ :=
      passes_mark (Nesting.behind?_closingMark bracket opened finished) ts
    exact (hmark.map fun _ => value).congr (orComma_of_ne ht)

theorem passes_parametersOnto (read : List String) (ts : List Lexeme) (finished : Bool) :
    (parametersOnto read).Passes ts ⟨.round :: opened, finished⟩ ⟨opened, true⟩ := by
  rw [parametersOnto_eq]
  refine (passes_name ts).andThen fun id rest hid => passes_orComma .round _ ?_
  rintro others rfl
  have hlt : (Lexeme.mark .comma :: others).length < ts.length := Parse.length_lt hid
  exact passes_parametersOnto (id :: read) others false
termination_by ts.length
decreasing_by exact Nat.lt_of_succ_lt hlt

theorem passes_parameters (ts : List Lexeme) :
    parameters.Passes ts ⟨.round :: opened, finished⟩ ⟨opened, true⟩ := by
  obtain ⟨others, rfl⟩ | ht := eq_cons_or_head_ne (.mark .closeParen) ts
  · exact .single rfl (parameters_closeParen others)
  · exact (passes_parametersOnto [] ts finished).congr (parameters_of_ne ht)

end Form

/-! ## Expressions and statements of fewer lexemes -/

/-- Expressions and statements of fewer than `n` lexemes close their brackets and are finished. -/
structure NestedBelow (n : Nat) : Prop where
  expression : ∀ ts, ts.length < n → ∀ opened finished,
    Form.expression.Passes ts ⟨opened, finished⟩ ⟨opened, true⟩
  statement : ∀ ts, ts.length < n → ∀ opened finished,
    Form.statement.Passes ts ⟨opened, finished⟩ ⟨opened, true⟩

namespace Form

/-! ## Blocks -/

theorem passes_statementsOnto (h : NestedBelow n) (read : List Stmt) (ts : List Lexeme)
    (hts : ts.length < n) (finished : Bool) :
    (statementsOnto read).Passes ts ⟨.curly :: opened, finished⟩ ⟨opened, true⟩ := by
  obtain ⟨others, rfl⟩ | ht := eq_cons_or_head_ne (.mark .closeBrace) ts
  · exact .single rfl (statementsOnto_closeBrace read others)
  match ts with
  | [] => exact .fail (statementsOnto_nil read)
  | t :: ts =>
      apply Passes.congr _ (statementsOnto_of_ne read (List.cons_ne_nil t ts) ht)
      apply (h.statement _ hts (.curly :: opened) finished).andThen
      intro stmt rest hstmt
      have hlt : rest.length < (t :: ts).length := Parse.length_lt hstmt
      exact passes_statementsOnto h (stmt :: read) rest (Nat.lt_trans hlt hts) true
termination_by ts.length
decreasing_by exact hlt

theorem passes_block (h : NestedBelow n) (ts : List Lexeme) (hts : ts.length ≤ n) :
    block.Passes ts ⟨opened, finished⟩ ⟨opened, true⟩ := by
  rw [block_eq]
  apply (passes_mark (Nesting.behind?_openingMark .curly opened finished) ts).andThen
  intro _ rest hmark
  have hlt : rest.length < ts.length := Parse.length_lt hmark
  exact passes_statementsOnto h [] rest (Nat.lt_of_lt_of_le hlt hts) false

/-! ## Lists of expressions -/

theorem passes_itemsOnto (h : NestedBelow n) (bracket : Bracket) (read : List Expr)
    (ts : List Lexeme) (hts : ts.length < n) (finished : Bool) :
    (itemsOnto bracket.closingMark read).Passes ts ⟨bracket :: opened, finished⟩
      ⟨opened, true⟩ := by
  rw [itemsOnto_eq]
  apply (h.expression ts hts (bracket :: opened) finished).andThen
  intro item rest hitem
  apply passes_orComma bracket
  rintro others rfl
  have hlt : (Lexeme.mark .comma :: others).length < ts.length := Parse.length_lt hitem
  have hlt' : others.length < ts.length := Nat.lt_of_succ_lt hlt
  exact passes_itemsOnto h bracket (item :: read) others (Nat.lt_trans hlt' hts) false
termination_by ts.length
decreasing_by exact hlt'

theorem passes_items (h : NestedBelow n) (bracket : Bracket) (ts : List Lexeme)
    (hts : ts.length < n) :
    (items bracket.closingMark).Passes ts ⟨bracket :: opened, finished⟩ ⟨opened, true⟩ := by
  obtain ⟨others, rfl⟩ | ht := eq_cons_or_head_ne (.mark bracket.closingMark) ts
  · exact .single (Nesting.behind?_closingMark bracket opened finished) (items_closing _ others)
  · exact (passes_itemsOnto h bracket [] ts hts finished).congr (items_of_ne ht)

theorem passes_pairsOnto (h : NestedBelow n) (read : List (Expr × Expr)) (ts : List Lexeme)
    (hts : ts.length < n) (finished : Bool) :
    (pairsOnto read).Passes ts ⟨.curly :: opened, finished⟩ ⟨opened, true⟩ := by
  obtain ⟨others, rfl⟩ | ht := eq_cons_or_head_ne (.mark .closeBrace) ts
  · exact .single rfl (pairsOnto_closeBrace read others)
  have hkey : (expression.before .colon).Passes ts ⟨.curly :: opened, finished⟩
      ⟨.curly :: opened, false⟩ :=
    (h.expression ts hts _ _).before rfl
  have hconsumes : (expression.before .colon).Consumes :=
    consumes_expression.andThen fun _ => (consumes_mark .colon).map _
  refine (hkey.andThen ?_).congr (pairsOnto_of_ne read ht)
  intro key middle hmiddle
  have hlt : middle.length < ts.length := hconsumes ts key middle hmiddle
  apply (h.expression middle (Nat.lt_trans hlt hts) _ _).andThen
  intro value rest hvalue
  apply passes_orComma .curly
  rintro others rfl
  have hlt' : others.length < middle.length := Nat.lt_of_succ_lt (Parse.length_lt hvalue)
  have hothers : others.length < ts.length := Nat.lt_trans hlt' hlt
  exact passes_pairsOnto h ((key, value) :: read) others (Nat.lt_trans hothers hts) false
termination_by ts.length
decreasing_by exact hothers

/-! ## Operands -/

theorem passes_alternative (h : NestedBelow n) (test : Expr) (consequent : Block)
    (ts : List Lexeme) (hts : ts.length ≤ n) :
    (alternative test consequent).Passes ts ⟨opened, true⟩ ⟨opened, true⟩ := by
  obtain ⟨others, rfl⟩ | ht := eq_cons_or_head_ne (.keyword .alternative) ts
  · exact ((passes_block h others (Nat.le_of_succ_le hts)).map _).cons rfl rfl
  · exact .done (alternative_of_ne ht)

theorem passes_primary_condition (h : NestedBelow n) (hts : ts.length < n) :
    primary.Passes (.keyword .condition :: ts) ⟨opened, finished⟩ ⟨opened, true⟩ := by
  refine Passes.cons ((h.expression ts hts opened false).andThen ?_) rfl (primary_condition ts)
  intro test middle htest
  have hmiddle : middle.length < n := Nat.lt_trans (Parse.length_lt htest) hts
  apply (passes_block h middle (Nat.le_of_lt hmiddle)).andThen
  intro consequent rest hblock
  have hrest : rest.length < middle.length := Parse.length_lt hblock
  exact passes_alternative h test consequent rest (Nat.le_of_lt (Nat.lt_trans hrest hmiddle))

theorem passes_primary_function (h : NestedBelow n) (hts : ts.length < n) :
    primary.Passes (.keyword .function :: ts) ⟨opened, finished⟩ ⟨opened, true⟩ := by
  have hmark : (mark .openParen).Passes ts ⟨opened, false⟩ ⟨.round :: opened, false⟩ :=
    passes_mark rfl ts
  refine Passes.cons (hmark.andThen ?_) rfl (primary_function ts)
  intro _ middle hopen
  have hmiddle : middle.length < n := Nat.lt_trans (Parse.length_lt hopen) hts
  apply (passes_parameters middle).andThen
  intro params rest hparams
  have hrest : rest.length < middle.length := Parse.length_lt hparams
  exact (passes_block h rest (Nat.le_of_lt (Nat.lt_trans hrest hmiddle))).map _

theorem passes_primary (h : NestedBelow n) (ts : List Lexeme) (hts : ts.length ≤ n) :
    primary.Passes ts ⟨opened, finished⟩ ⟨opened, true⟩ := by
  have hfail : (∀ t ∈ ts.head?, t.startsExpr = false) →
      primary.Passes ts ⟨opened, finished⟩ ⟨opened, true⟩ :=
    fun ht => .fail (primary_of_not_starts ht)
  cases ts with
  | nil => exact hfail nofun
  | cons t ts =>
    have hlt : ts.length < n := hts
    cases t with
    | integer digits =>
        cases hvalue : integerLiteral? digits with
        | some value => exact .single rfl (primary_integer hvalue ts)
        | none => exact .fail (primary_tooLarge hvalue ts)
    | text value => exact .single rfl (Parse.reads_primary_text value ts)
    | name id => exact .single rfl (Parse.reads_primary_name id ts)
    | keyword word =>
      cases word with
      | truth => exact .single rfl (Parse.reads_primary_boolean true ts)
      | falsity => exact .single rfl (Parse.reads_primary_boolean false ts)
      | condition => exact passes_primary_condition h hlt
      | function => exact passes_primary_function h hlt
      | _ => exact hfail (by rintro t ⟨⟩; rfl)
    | mark m =>
      cases m with
      | openParen =>
          have hvalue : (expression.before .closeParen).Passes ts ⟨.round :: opened, false⟩
              ⟨opened, true⟩ :=
            (h.expression ts hlt _ _).before rfl
          exact hvalue.cons rfl (primary_openParen ts)
      | openBracket =>
          exact ((passes_items h .square ts hlt).map _).cons rfl (primary_openBracket ts)
      | openBrace =>
          exact ((passes_pairsOnto h [] ts hlt false).map _).cons rfl (primary_openBrace ts)
      | _ => exact hfail (by rintro t ⟨⟩; rfl)
    | unclosedText | illegal => exact hfail (by rintro t ⟨⟩; rfl)

theorem passes_appliedOnto (h : NestedBelow n) (head : Expr) (ts : List Lexeme)
    (hts : ts.length ≤ n) : (appliedOnto head).Passes ts ⟨opened, true⟩ ⟨opened, true⟩ := by
  obtain ⟨others, rfl⟩ | hparen := eq_cons_or_head_ne (.mark .openParen) ts
  · refine Passes.cons ((passes_items h .round others hts).andThen ?_) rfl
      (appliedOnto_openParen head others)
    intro arguments rest hitems
    have hlt : rest.length < others.length := Parse.length_lt hitems
    exact passes_appliedOnto h (.call head arguments) rest (Nat.le_of_lt (Nat.lt_trans hlt hts))
  obtain ⟨others, rfl⟩ | hbracket := eq_cons_or_head_ne (.mark .openBracket) ts
  · have hposition : (expression.before .closeBracket).Passes others ⟨.square :: opened, false⟩
        ⟨opened, true⟩ :=
      (h.expression others hts _ _).before rfl
    have hconsumes : (expression.before .closeBracket).Consumes :=
      consumes_expression.andThen fun _ => (consumes_mark .closeBracket).map _
    refine Passes.cons (hposition.andThen ?_) rfl (appliedOnto_openBracket head others)
    intro position rest hread
    have hlt : rest.length < others.length := hconsumes others position rest hread
    exact passes_appliedOnto h (.index head position) rest (Nat.le_of_lt (Nat.lt_trans hlt hts))
  · exact .done (appliedOnto_of_ne head fun t ht => ⟨hparen t ht, hbracket t ht⟩)
termination_by ts.length
decreasing_by
  all_goals
    subst_vars
    exact Nat.lt_succ_of_lt hlt

theorem passes_applied (h : NestedBelow n) (ts : List Lexeme) (hts : ts.length ≤ n) :
    applied.Passes ts ⟨opened, finished⟩ ⟨opened, true⟩ := by
  rw [applied_eq]
  apply (passes_primary h ts hts).andThen
  intro head rest hprimary
  have hrest : rest.length < ts.length := Parse.length_lt hprimary
  exact passes_appliedOnto h head rest (Nat.le_of_lt (Nat.lt_of_lt_of_le hrest hts))

theorem behind?_of_ofLexeme? {op : UnaryOp} (h : UnaryOp.ofLexeme? t = some op) :
    Nesting.behind? ⟨opened, finished⟩ t = some ⟨opened, false⟩ := by
  cases t with
  | mark m => cases m <;> first | rfl | cases h
  | _ => cases h

theorem passes_unary (h : NestedBelow n) (ts : List Lexeme) (hts : ts.length ≤ n)
    (finished : Bool) : unary.Passes ts ⟨opened, finished⟩ ⟨opened, true⟩ := by
  have happlied : applied.Passes ts ⟨opened, finished⟩ ⟨opened, true⟩ := passes_applied h ts hts
  cases ts with
  | nil => exact happlied.congr (unary_of_none nofun)
  | cons t ts =>
      cases hop : UnaryOp.ofLexeme? t with
      | none =>
          apply happlied.congr (unary_of_none _)
          rintro t' ⟨⟩
          exact hop
      | some op =>
          have hargument : unary.Passes ts ⟨opened, false⟩ ⟨opened, true⟩ :=
            passes_unary h ts (Nat.le_of_succ_le hts) false
          exact (hargument.map (.unary op)).cons (behind?_of_ofLexeme? hop) (unary_of_some hop ts)

/-! ## Chains of operators -/

theorem behind?_of_operator? {tier : Tier} (htier : tier ∈ tiers) {op : BinaryOp}
    (h : tier.operator? t = some op) :
    Nesting.behind? ⟨opened, finished⟩ t = some ⟨opened, false⟩ := by
  simp only [tiers, List.mem_cons, List.not_mem_nil, or_false] at htier
  cases t with
  | mark m => obtain rfl | rfl | rfl | rfl := htier <;> cases m <;> first | rfl | cases h
  | _ => cases h

theorem passes_chainOnto {tier : Tier} {tighter : List Tier} (htier : tier ∈ tiers)
    (h : ∀ ts, ts.length ≤ n → ∀ opened finished,
      (chain tighter).Passes ts ⟨opened, finished⟩ ⟨opened, true⟩)
    (left : Expr) (ts : List Lexeme) (hts : ts.length ≤ n) :
    (chainOnto tier tighter left).Passes ts ⟨opened, true⟩ ⟨opened, true⟩ := by
  cases ts with
  | nil => exact .done (chainOnto_of_none tighter left nofun)
  | cons t ts =>
      cases hop : tier.operator? t with
      | none =>
          refine .done (chainOnto_of_none tighter left ?_)
          rintro t' ⟨⟩
          exact hop
      | some op =>
          have hrest : ts.length ≤ n := Nat.le_of_succ_le hts
          refine Passes.cons ((h ts hrest opened false).andThen ?_) (behind?_of_operator? htier hop)
            (chainOnto_of_some tighter left hop ts)
          intro right rest hright
          have hlt : rest.length < ts.length := Parse.length_lt hright
          exact passes_chainOnto htier h (.binary op left right) rest
            (Nat.le_of_lt (Nat.lt_of_lt_of_le hlt hrest))
termination_by ts.length
decreasing_by
  subst_vars
  exact Nat.lt_succ_of_lt hlt

theorem passes_chain (h : NestedBelow n) (remaining : List Tier) (hr : remaining ⊆ tiers)
    (ts : List Lexeme) (hts : ts.length ≤ n) (opened : List Bracket) (finished : Bool) :
    (chain remaining).Passes ts ⟨opened, finished⟩ ⟨opened, true⟩ := by
  induction remaining generalizing ts opened finished with
  | nil =>
      rw [chain_nil]
      exact passes_unary h ts hts finished
  | cons tier tighter ih =>
      obtain ⟨htier, htighter⟩ := List.cons_subset.mp hr
      rw [chain_cons]
      apply (ih htighter ts hts opened finished).andThen
      intro left rest hleft
      have hrest : rest.length < ts.length := Parse.length_lt hleft
      exact passes_chainOnto htier (ih htighter) left rest
        (Nat.le_of_lt (Nat.lt_of_lt_of_le hrest hts))

theorem passes_expression (h : NestedBelow n) (ts : List Lexeme) (hts : ts.length ≤ n) :
    expression.Passes ts ⟨opened, finished⟩ ⟨opened, true⟩ := by
  rw [expression_eq]
  exact passes_chain h tiers (fun _ => id) ts hts opened finished

/-! ## Statements -/

theorem passes_openStatement_binding (h : NestedBelow n) (hts : ts.length ≤ n) :
    openStatement.Passes (.keyword .binding :: ts) ⟨opened, finished⟩ ⟨opened, true⟩ := by
  have hname : (name.before .assign).Passes ts ⟨opened, false⟩ ⟨opened, false⟩ :=
    (passes_name ts).before rfl
  have hconsumes : (name.before .assign).Consumes :=
    Consumes.andThen (fun _ _ _ => Parse.length_lt) fun _ => (consumes_mark .assign).map _
  refine Passes.cons (hname.andThen ?_) rfl (openStatement_binding ts)
  intro id rest hread
  have hlt : rest.length < ts.length := hconsumes ts id rest hread
  exact (passes_expression h rest (Nat.le_of_lt (Nat.lt_of_lt_of_le hlt hts))).map _

theorem passes_openStatement_result (h : NestedBelow n) (hts : ts.length ≤ n) :
    openStatement.Passes (.keyword .result :: ts) ⟨opened, finished⟩ ⟨opened, true⟩ := by
  by_cases hends : EndsOpen ts
  case pos =>
      exact .single rfl (openStatement_result_of_endsOpen hends)
  case neg =>
      exact ((passes_expression h ts hts).map _).cons rfl
        (openStatement_result_of_not_endsOpen hends)

theorem passes_openStatement_name (h : NestedBelow n) (id : String) (hts : ts.length < n) :
    openStatement.Passes (.name id :: ts) ⟨opened, finished⟩ ⟨opened, true⟩ := by
  obtain ⟨others, rfl⟩ | ht := eq_cons_or_head_ne (.mark .assign) ts
  case inl =>
      have hothers : others.length ≤ n := Nat.le_of_lt (Nat.lt_of_succ_lt hts)
      have hassign : Passes (fun ts => openStatement (.name id :: ts)) (.mark .assign :: others)
          ⟨opened, true⟩ ⟨opened, true⟩ :=
        ((passes_expression h others hothers).map _).cons rfl (openStatement_assign id others)
      exact hassign.cons rfl rfl
  case inr => exact ((passes_expression h (.name id :: ts) hts).map _).congr (openStatement_name ht)

theorem passes_openStatement (h : NestedBelow n) (ts : List Lexeme) (hts : ts.length ≤ n) :
    openStatement.Passes ts ⟨opened, finished⟩ ⟨opened, true⟩ := by
  have hexpr : (∀ t ∈ ts.head?, t ≠ .keyword .binding ∧ t ≠ .keyword .result ∧ ∀ id, t ≠ .name id) →
      openStatement.Passes ts ⟨opened, finished⟩ ⟨opened, true⟩ := by
    intro ht
    apply ((passes_expression h ts hts).map .expr).congr
    apply openStatement_of_ne
    · exact fun t hm => ⟨(ht t hm).1, (ht t hm).2.1⟩
    · rintro id others rfl
      exact (ht _ rfl).2.2 id rfl
  cases ts with
  | nil => exact hexpr nofun
  | cons t ts =>
    cases t with
    | name id => exact passes_openStatement_name h id hts
    | keyword word =>
      cases word with
      | binding => exact passes_openStatement_binding h (Nat.le_of_succ_le hts)
      | result => exact passes_openStatement_result h (Nat.le_of_succ_le hts)
      | _ =>
          apply hexpr
          rintro t ⟨⟩
          exact ⟨nofun, nofun, nofun⟩
    | _ =>
        apply hexpr
        rintro t ⟨⟩
        exact ⟨nofun, nofun, nofun⟩

theorem passes_withSemicolon (stmt : Stmt) (ts : List Lexeme) :
    (withSemicolon stmt).Passes ts ⟨opened, true⟩ ⟨opened, true⟩ := by
  obtain ⟨others, rfl⟩ | ht := eq_cons_or_head_ne (.mark .semicolon) ts
  · exact .single rfl rfl
  · exact .done (withSemicolon_of_ne stmt ht)

theorem passes_statement (h : NestedBelow n) (ts : List Lexeme) (hts : ts.length ≤ n) :
    statement.Passes ts ⟨opened, finished⟩ ⟨opened, true⟩ := by
  rw [statement_eq]
  exact (passes_openStatement h ts hts).andThen fun stmt rest _ => passes_withSemicolon stmt rest

end Form

/-- Expressions and statements close their brackets and are finished. -/
theorem nestedBelow (n : Nat) : NestedBelow n := by
  induction n with
  | zero => exact ⟨nofun, nofun⟩
  | succ n ih =>
      constructor
      · exact fun ts hts _ _ => Form.passes_expression ih ts (Nat.le_of_lt_succ hts)
      · exact fun ts hts _ _ => Form.passes_statement ih ts (Nat.le_of_lt_succ hts)

/-! ## Programs -/

theorem Form.passes_programOnto (read : List Stmt) (ts : List Lexeme) :
    Passes (Parse.programOnto read) ts ⟨opened, true⟩ ⟨opened, true⟩ := by
  match ts with
  | [] =>
      apply Passes.done
      rw [Parse.programOnto]
  | t :: ts =>
      apply Passes.congr _ (programOnto_eq read t ts)
      apply ((nestedBelow _).statement (t :: ts) (Nat.lt_succ_self _) opened true).andThen
      intro stmt rest hstmt
      have hlt : rest.length < (t :: ts).length := Parse.length_lt hstmt
      exact passes_programOnto (stmt :: read) rest
termination_by ts.length
decreasing_by exact hlt

/-- The lexemes of a program close every bracket that they open, and the last one can be the end of a
program. -/
theorem Parse.closes_of_program {result : Program} (h : program ts = .ok result []) :
    ts.foldlM openBehind? [] = some [] ∧ ∀ t ∈ ts.getLast?, t.finishes = true := by
  have hpasses : Form.Passes program ts ⟨[], true⟩ ⟨[], true⟩ := Form.passes_programOnto [] ts
  obtain ⟨front, rfl, hfront⟩ := hpasses result [] h
  rw [List.append_nil]
  exact Nesting.openBehind?_of_behind? hfront

end StackScript
