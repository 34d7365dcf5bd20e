import StackScript.Proofs.Program.Boundary

/-!
# Forms without bounds

A form takes lexemes to an outcome. The functions of the grammar are forms as soon as the bounds on
what they leave are forgotten, and then every form is made from its parts by reading one after the
other, up to a mark or as a list with commas.
-/

namespace StackScript

/-- A part of the grammar, as it is read from the front of some lexemes. -/
abbrev Form (α : Type) := List Lexeme → Outcome α

variable {α β γ : Type} {m n : Nat} {ts : List Lexeme}

/-- Go on behind a success. -/
def Outcome.andThen (outcome : Outcome α) (next : α → Form β) : Outcome β :=
  match outcome with
  | .ok value rest => next value rest
  | .error complaint rest => .error complaint rest

namespace Parse

theorem val_andThen {parse : Parse α m}
    {next : (value : α) → (rest : List Lexeme) → rest.length < m → Parse β n} {h : m ≤ n}
    {form : α → Form β} (hn : ∀ value rest hlt, (next value rest hlt).val = form value rest) :
    (parse.andThen next h).val = parse.val.andThen form := by
  obtain ⟨outcome, hfits⟩ := parse
  cases outcome with
  | ok value rest => exact hn value rest hfits
  | error complaint rest => rfl

theorem val_map (f : α → β) (parse : Parse α m) (h : m ≤ n) :
    (parse.map f h).val = parse.val.andThen fun value => .ok (f value) :=
  val_andThen fun _ _ _ => rfl

end Parse

namespace Form

/-- One form behind another. -/
def andThen (form : Form α) (next : α → Form β) : Form β := fun ts =>
  (form ts).andThen next

/-- A form whose value is changed. -/
def map (f : α → β) (form : Form α) : Form β :=
  form.andThen fun value => .ok (f value)

/-- A mark. -/
def mark (wanted : Mark) : Form Unit := fun ts =>
  (Parse.mark wanted ts).val

/-- A form with a mark behind it. -/
def before (form : Form α) (wanted : Mark) : Form α :=
  form.andThen fun value => (mark wanted).map fun _ => value

/-- A comma and more of a list, or the end of the list. -/
def orComma (closing : Mark) (more : Form α) (value : α) : Form α
  | .mark .comma :: ts => more ts
  | ts => (mark closing).map (fun _ => value) ts

theorem andThen_assoc (form : Form α) (next : α → Form β) (last : β → Form γ) :
    (form.andThen next).andThen last = form.andThen fun value => (next value).andThen last := by
  funext ts
  unfold andThen
  cases form ts <;> rfl

theorem before_andThen (form : Form α) (wanted : Mark) (next : α → Form β) :
    (form.before wanted).andThen next =
      form.andThen fun value => (mark wanted).andThen fun _ => next value := by
  rw [before, andThen_assoc]
  exact congrArg form.andThen (funext fun value => andThen_assoc _ _ _)

/-! ## The forms of the grammar -/

/-- A bound under which loops read some lexemes. -/
theorem length_le (ts : List Lexeme) : ts.length ≤ ts.length :=
  Nat.le_refl _

/-- A bound under which loops go on with some lexemes. -/
theorem length_lt (ts : List Lexeme) : ts.length < ts.length + 1 :=
  Nat.lt_succ_self _

def name : Form String := fun ts =>
  (Parse.name ts).val

def parametersOnto (read : List String) : Form (List String) := fun ts =>
  (Parse.parametersOnto read ts (length_le ts)).val

def parameters : Form (List String) := fun ts =>
  (Parse.parameters ts).val

def withSemicolon (statement : Stmt) : Form Stmt := fun ts =>
  (Parse.withSemicolon statement ts (length_lt ts)).val

def statement : Form Stmt := fun ts =>
  (Parse.statement ts).val

def openStatement : Form Stmt := fun ts =>
  (Parse.openStatement ts).val

def statementsOnto (read : List Stmt) : Form Block := fun ts =>
  (Parse.statementsOnto read ts (length_le ts)).val

def block : Form Block := fun ts =>
  (Parse.block ts).val

def expression : Form Expr := fun ts =>
  (Parse.expression ts).val

def chain (remaining : List Tier) : Form Expr := fun ts =>
  (Parse.chain remaining ts).val

def chainOnto (tier : Tier) (tighter : List Tier) (left : Expr) : Form Expr := fun ts =>
  (Parse.chainOnto tier tighter left ts (length_lt ts)).val

def unary : Form Expr := fun ts =>
  (Parse.unary ts).val

def applied : Form Expr := fun ts =>
  (Parse.applied ts).val

def appliedOnto (head : Expr) : Form Expr := fun ts =>
  (Parse.appliedOnto head ts (length_lt ts)).val

def primary : Form Expr := fun ts =>
  (Parse.primary ts).val

def items (closing : Mark) : Form (List Expr) := fun ts =>
  (Parse.items closing ts).val

def itemsOnto (closing : Mark) (read : List Expr) : Form (List Expr) := fun ts =>
  (Parse.itemsOnto closing read ts (length_le ts)).val

def pairsOnto (read : List (Expr × Expr)) : Form (List (Expr × Expr)) := fun ts =>
  (Parse.pairsOnto read ts (length_le ts)).val

/-- The alternative of a condition, if there is one. -/
def alternative (test : Expr) (consequent : Block) : Form Expr
  | .keyword .alternative :: ts =>
    block.map (fun alternative => .condition test consequent (some alternative)) ts
  | ts => .ok (.condition test consequent none) ts

end Form

/-! ## Bounds do not matter -/

namespace Parse

theorem val_andThen_congr {parse : Parse α m} {n' : Nat}
    {next : (value : α) → (rest : List Lexeme) → rest.length < m → Parse β n}
    {next' : (value : α) → (rest : List Lexeme) → rest.length < m → Parse β n'} {h : m ≤ n}
    {h' : m ≤ n'} (hn : ∀ value rest hlt, (next value rest hlt).val = (next' value rest hlt).val) :
    (parse.andThen next h).val = (parse.andThen next' h').val := by
  obtain ⟨outcome, hfits⟩ := parse
  cases outcome with
  | ok value rest => exact hn value rest hfits
  | error complaint rest => rfl

theorem val_parametersOnto (read : List String) (ts : List Lexeme) (h : ts.length ≤ m)
    (h' : ts.length ≤ n) : (parametersOnto read ts h).val = (parametersOnto read ts h').val := by
  fun_cases parametersOnto read ts h with
  | case1 id ts =>
      rw [parametersOnto]
      exact val_parametersOnto (id :: read) ts _ _
  | case2 id ts _ hcomma =>
      rw [parametersOnto, val_map, val_map]
      rintro others _ rfl -
      exact hcomma _ _ rfl .rfl
  | case3 _ _ hcomma hname =>
      rw [parametersOnto]
      · rfl
      · rintro _ _ _ rfl -
        exact hcomma _ _ _ rfl .rfl
      · rintro _ _ _ rfl -
        exact hname _ _ _ rfl .rfl

theorem val_withSemicolon (statement : Stmt) (ts : List Lexeme) (h : ts.length < m)
    (h' : ts.length < n) : (withSemicolon statement ts h).val = (withSemicolon statement ts h').val := by
  fun_cases withSemicolon statement ts h with
  | case1 => rfl
  | case2 _ _ hsemicolon =>
      rw [withSemicolon]
      · rfl
      · rintro _ _ rfl -
        exact hsemicolon _ _ rfl .rfl

theorem val_statementsOnto (read : List Stmt) (ts : List Lexeme) (h : ts.length ≤ m)
    (h' : ts.length ≤ n) : (statementsOnto read ts h).val = (statementsOnto read ts h').val := by
  fun_cases statementsOnto read ts h with
  | case1 ts | case2 =>
      rw [statementsOnto]
      rfl
  | case3 _ _ hclose hend =>
      rw [statementsOnto]
      · exact val_andThen_congr fun _ rest hlt => val_statementsOnto _ rest _ _
      · rintro _ _ rfl -
        exact hclose _ _ rfl .rfl
      · rintro _ rfl -
        exact hend _ rfl .rfl
termination_by ts.length

theorem val_chainOnto (tier : Tier) (tighter : List Tier) (left : Expr) (ts : List Lexeme)
    (h : ts.length < m) (h' : ts.length < n) :
    (chainOnto tier tighter left ts h).val = (chainOnto tier tighter left ts h').val := by
  cases ts with
  | nil =>
      rw [chainOnto, chainOnto]
      rfl
  | cons t ts =>
      rw [chainOnto, chainOnto]
      cases tier.operator? t with
      | none => rfl
      | some op => exact val_andThen_congr fun _ rest hlt => val_chainOnto _ _ _ rest _ _
termination_by ts.length
decreasing_by
  subst_vars
  simp only [List.length_cons] at *
  omega

theorem val_appliedOnto (head : Expr) (ts : List Lexeme) (h : ts.length < m) (h' : ts.length < n) :
    (appliedOnto head ts h).val = (appliedOnto head ts h').val := by
  fun_cases appliedOnto head ts h with
  | case1 ts =>
      rw [appliedOnto]
      exact val_andThen_congr fun _ rest hlt => val_appliedOnto _ rest _ _
  | case2 ts =>
      rw [appliedOnto]
      exact val_andThen_congr fun _ _ _ => val_andThen_congr fun _ rest hlt =>
        val_appliedOnto _ rest _ _
  | case3 _ _ hparen hbracket =>
      rw [appliedOnto]
      · rfl
      · rintro _ _ rfl -
        exact hparen _ _ rfl .rfl
      · rintro _ _ rfl -
        exact hbracket _ _ rfl .rfl
termination_by ts.length
decreasing_by
  all_goals
    subst_vars
    simp only [List.length_cons] at *
    omega

theorem val_itemsOnto (closing : Mark) (read : List Expr) (ts : List Lexeme) (h : ts.length ≤ m)
    (h' : ts.length ≤ n) :
    (itemsOnto closing read ts h).val = (itemsOnto closing read ts h').val := by
  rw [itemsOnto, itemsOnto]
  refine val_andThen_congr fun item rest hlt => ?_
  split
  case h_1 => exact val_itemsOnto _ _ _ _ _
  case h_2 => rw [val_map, val_map]
termination_by ts.length
decreasing_by
  subst_vars
  simp only [List.length_cons] at *
  omega

theorem val_pairsOnto (read : List (Expr × Expr)) (ts : List Lexeme) (h : ts.length ≤ m)
    (h' : ts.length ≤ n) : (pairsOnto read ts h).val = (pairsOnto read ts h').val := by
  fun_cases pairsOnto read ts h with
  | case1 ts =>
      rw [pairsOnto]
      rfl
  | case2 _ _ hclose =>
      rw [pairsOnto]
      · refine val_andThen_congr fun _ _ _ => val_andThen_congr fun _ _ _ =>
          val_andThen_congr fun _ rest hlt => ?_
        split
        case h_1 => exact val_pairsOnto _ _ _ _
        case h_2 => rw [val_map, val_map]
      · rintro _ _ rfl -
        exact hclose _ _ rfl .rfl
termination_by ts.length
decreasing_by
  subst_vars
  simp only [List.length_cons] at *
  omega

end Parse

/-! ## Forms and their parts -/

namespace Form

open Parse (val_andThen val_map)

theorem head_ne {t : Lexeme} (h : ∀ others, ts ≠ t :: others) : ∀ first ∈ ts.head?, first ≠ t := by
  rintro first hfirst rfl
  obtain ⟨others, hts⟩ := List.head?_eq_some_iff.mp hfirst
  exact h others hts

theorem eq_cons_or_head_ne (t : Lexeme) (ts : List Lexeme) :
    (∃ others, ts = t :: others) ∨ ∀ first ∈ ts.head?, first ≠ t := by
  by_cases h : ∃ others, ts = t :: others
  · exact .inl h
  · exact .inr (head_ne (not_exists.mp h))

theorem mark_self (wanted : Mark) (ts : List Lexeme) :
    mark wanted (.mark wanted :: ts) = .ok () ts := by
  rw [mark, Parse.mark, if_pos rfl]
  rfl

theorem mark_of_ne {wanted : Mark} (h : ∀ t ∈ ts.head?, t ≠ .mark wanted) :
    mark wanted ts = .error (.missing (.mark wanted)) ts := by
  unfold mark
  fun_cases Parse.mark wanted ts with
  | case1 ts => exact absurd rfl (h _ rfl)
  | case2 found ts hne =>
      rw [Parse.mark, if_neg hne]
      rfl
  | case3 =>
      rw [Parse.mark]
      · rfl
      · assumption

theorem name_of_ne (h : ∀ id, ∀ t ∈ ts.head?, t ≠ .name id) : name ts = .error (.missing .name) ts := by
  rw [name, Parse.name]
  · rfl
  · rintro id others rfl
    exact h id _ rfl rfl

theorem orComma_of_ne {closing : Mark} {more : Form α} {value : α}
    (h : ∀ t ∈ ts.head?, t ≠ .mark .comma) :
    orComma closing more value ts = (mark closing).map (fun _ => value) ts := by
  rw [orComma]
  rintro others rfl
  exact h _ rfl rfl

theorem alternative_of_ne {test : Expr} {consequent : Block}
    (h : ∀ t ∈ ts.head?, t ≠ .keyword .alternative) :
    alternative test consequent ts = .ok (.condition test consequent none) ts := by
  rw [alternative]
  rintro others rfl
  exact h _ rfl rfl

theorem parametersOnto_eq (read : List String) :
    parametersOnto read = name.andThen fun id =>
      orComma .closeParen (parametersOnto (id :: read)) (id :: read).reverse := by
  funext ts
  unfold parametersOnto
  fun_cases Parse.parametersOnto read ts (Nat.le_refl _) with
  | case1 id ts => exact Parse.val_parametersOnto _ _ _ _
  | case2 id ts _ hcomma =>
      refine (val_map _ _ _).trans (Eq.symm (orComma_of_ne (head_ne ?_)))
      rintro others rfl
      exact hcomma _ _ rfl .rfl
  | case3 _ _ _ hname =>
      have hmissing : name ts = .error (.missing .name) ts := by
        refine name_of_ne fun id => head_ne ?_
        rintro others rfl
        exact hname _ _ _ rfl .rfl
      rw [andThen, hmissing]
      rfl

theorem parameters_closeParen (ts : List Lexeme) :
    parameters (.mark .closeParen :: ts) = .ok [] ts := rfl

theorem parameters_of_ne (h : ∀ t ∈ ts.head?, t ≠ .mark .closeParen) :
    parameters ts = parametersOnto [] ts := by
  rw [parameters, Parse.parameters]
  · rfl
  · rintro others rfl
    exact h _ rfl rfl

theorem withSemicolon_of_ne (stmt : Stmt) (h : ∀ t ∈ ts.head?, t ≠ .mark .semicolon) :
    withSemicolon stmt ts = .ok stmt ts := by
  rw [withSemicolon, Parse.withSemicolon]
  · rfl
  · rintro others _ rfl -
    exact h _ rfl rfl

theorem statement_eq : statement = openStatement.andThen withSemicolon := by
  funext ts
  rw [statement, Parse.statement]
  exact val_andThen fun _ _ _ => Parse.val_withSemicolon _ _ _ _

theorem openStatement_binding (ts : List Lexeme) : openStatement (.keyword .binding :: ts) =
    ((name.before .assign).andThen fun id => expression.map fun value =>
      .binding id (value.named id)) ts := by
  rw [before_andThen, openStatement, Parse.openStatement]
  exact val_andThen fun _ _ _ => val_andThen fun _ _ _ => val_map _ _ _

theorem openStatement_result_of_ne (hne : ts ≠ [])
    (h : ∀ t ∈ ts.head?, t ≠ .mark .semicolon ∧ t ≠ .mark .closeBrace) :
    openStatement (.keyword .result :: ts) = expression.map (fun value => .result (some value)) ts := by
  rw [openStatement, Parse.openStatement]
  · exact val_map _ _ _
  · exact hne
  · rintro _ rfl
    exact (h _ rfl).1 rfl
  · rintro _ rfl
    exact (h _ rfl).2 rfl

theorem openStatement_assign (id : String) (ts : List Lexeme) :
    openStatement (.name id :: .mark .assign :: ts) =
      expression.map (fun value => .assign id value) ts := by
  rw [openStatement, Parse.openStatement]
  exact val_map _ _ _

theorem openStatement_of_ne (ht : ∀ t ∈ ts.head?, t ≠ .keyword .binding ∧ t ≠ .keyword .result)
    (ha : ∀ id others, ts ≠ .name id :: .mark .assign :: others) :
    openStatement ts = expression.map .expr ts := by
  have hbinding : ∀ others, ts ≠ .keyword .binding :: others := by
    rintro others rfl
    exact (ht _ rfl).1 rfl
  have hresult : ∀ others, ts ≠ .keyword .result :: others := by
    rintro others rfl
    exact (ht _ rfl).2 rfl
  rw [openStatement, Parse.openStatement]
  · exact val_map _ _ _
  · exact hbinding
  · exact hresult _
  · exact fun _ => hresult _
  · exact fun _ => hresult _
  · exact hresult
  · exact ha

theorem statementsOnto_closeBrace (read : List Stmt) (ts : List Lexeme) :
    statementsOnto read (.mark .closeBrace :: ts) = .ok read.reverse ts := by
  rw [statementsOnto, Parse.statementsOnto]
  rfl

theorem statementsOnto_nil (read : List Stmt) :
    statementsOnto read [] = .error (.missing (.mark .closeBrace)) [] := by
  rw [statementsOnto, Parse.statementsOnto]
  rfl

theorem statementsOnto_of_ne (read : List Stmt) (hne : ts ≠ [])
    (h : ∀ t ∈ ts.head?, t ≠ .mark .closeBrace) :
    statementsOnto read ts = (statement.andThen fun stmt => statementsOnto (stmt :: read)) ts := by
  rw [statementsOnto, Parse.statementsOnto]
  · exact val_andThen fun _ _ _ => Parse.val_statementsOnto _ _ _ _
  · rintro _ _ rfl -
    exact h _ rfl rfl
  · rintro _ rfl -
    exact hne rfl

theorem block_eq : block = (mark .openBrace).andThen fun _ => statementsOnto [] := by
  funext ts
  rw [block, Parse.block]
  exact val_andThen fun _ _ _ => Parse.val_statementsOnto _ _ _ _

theorem expression_eq : expression = chain tiers := by
  funext ts
  rw [expression, Parse.expression]
  rfl

theorem chain_nil : chain [] = unary := by
  funext ts
  rw [chain, Parse.chain]
  rfl

theorem chain_cons (tier : Tier) (tighter : List Tier) :
    chain (tier :: tighter) = (chain tighter).andThen (chainOnto tier tighter) := by
  funext ts
  rw [chain, Parse.chain]
  exact val_andThen fun _ _ _ => Parse.val_chainOnto _ _ _ _ _ _

theorem chainOnto_of_none {tier : Tier} (tighter : List Tier) (left : Expr)
    (h : ∀ t ∈ ts.head?, tier.operator? t = none) :
    chainOnto tier tighter left ts = .ok left ts := by
  cases ts with
  | nil =>
      rw [chainOnto, Parse.chainOnto]
      rfl
  | cons t ts =>
      rw [chainOnto, Parse.chainOnto, h t rfl]
      rfl

theorem chainOnto_of_some {tier : Tier} {t : Lexeme} {op : BinaryOp} (tighter : List Tier)
    (left : Expr) (h : tier.operator? t = some op) (ts : List Lexeme) :
    chainOnto tier tighter left (t :: ts) =
      ((chain tighter).andThen fun right => chainOnto tier tighter (.binary op left right)) ts := by
  rw [chainOnto, Parse.chainOnto, h]
  exact val_andThen fun _ _ _ => Parse.val_chainOnto _ _ _ _ _ _

theorem unary_of_none (h : ∀ t ∈ ts.head?, UnaryOp.ofLexeme? t = none) : unary ts = applied ts := by
  cases ts with
  | nil =>
      rw [unary, Parse.unary]
      rfl
  | cons t ts =>
      rw [unary, Parse.unary, h t rfl]
      rfl

theorem unary_of_some {t : Lexeme} {op : UnaryOp} (h : UnaryOp.ofLexeme? t = some op)
    (ts : List Lexeme) : unary (t :: ts) = unary.map (.unary op) ts := by
  rw [unary, Parse.unary, h]
  exact val_map _ _ _

theorem applied_eq : applied = primary.andThen appliedOnto := by
  funext ts
  rw [applied, Parse.applied]
  exact val_andThen fun _ _ _ => Parse.val_appliedOnto _ _ _ _

theorem appliedOnto_openParen (head : Expr) (ts : List Lexeme) :
    appliedOnto head (.mark .openParen :: ts) =
      ((items .closeParen).andThen fun arguments => appliedOnto (.call head arguments)) ts := by
  rw [appliedOnto, Parse.appliedOnto]
  exact val_andThen fun _ _ _ => Parse.val_appliedOnto _ _ _ _

theorem appliedOnto_openBracket (head : Expr) (ts : List Lexeme) :
    appliedOnto head (.mark .openBracket :: ts) =
      ((expression.before .closeBracket).andThen fun position =>
        appliedOnto (.index head position)) ts := by
  rw [before_andThen, appliedOnto, Parse.appliedOnto]
  exact val_andThen fun _ _ _ => val_andThen fun _ _ _ => Parse.val_appliedOnto _ _ _ _

theorem appliedOnto_of_ne (head : Expr)
    (h : ∀ t ∈ ts.head?, t ≠ .mark .openParen ∧ t ≠ .mark .openBracket) :
    appliedOnto head ts = .ok head ts := by
  rw [appliedOnto, Parse.appliedOnto]
  · rfl
  · rintro _ _ rfl -
    exact (h _ rfl).1 rfl
  · rintro _ _ rfl -
    exact (h _ rfl).2 rfl

theorem primary_integer {digits : String} {value : Int64} (h : integerLiteral? digits = some value)
    (ts : List Lexeme) : primary (.integer digits :: ts) = .ok (.integer value) ts := by
  rw [primary, Parse.primary, h]
  rfl

theorem primary_tooLarge {digits : String} (h : integerLiteral? digits = none) (ts : List Lexeme) :
    primary (.integer digits :: ts) = .error (.tooLarge digits) (.integer digits :: ts) := by
  rw [primary, Parse.primary, h]
  rfl

theorem primary_of_not_starts (h : ∀ t ∈ ts.head?, t.startsExpr = false) :
    primary ts = .error (.missing .expression) ts := by
  unfold primary
  fun_cases Parse.primary ts with
  | case12 =>
      rw [Parse.primary]
      · rfl
      all_goals assumption
  | _ => exact absurd (h _ rfl) nofun

theorem primary_openParen (ts : List Lexeme) :
    primary (.mark .openParen :: ts) = expression.before .closeParen ts := by
  rw [primary, Parse.primary]
  exact val_andThen fun _ _ _ => val_map _ _ _

theorem primary_openBracket (ts : List Lexeme) :
    primary (.mark .openBracket :: ts) = (items .closeBracket).map .array ts := by
  rw [primary, Parse.primary]
  exact val_map _ _ _

theorem primary_openBrace (ts : List Lexeme) :
    primary (.mark .openBrace :: ts) = (pairsOnto []).map .hash ts := by
  rw [primary, Parse.primary]
  exact val_map _ _ _

theorem primary_condition (ts : List Lexeme) : primary (.keyword .condition :: ts) =
    (expression.andThen fun test => block.andThen fun consequent => alternative test consequent) ts := by
  rw [primary, Parse.primary]
  refine val_andThen fun test _ _ => val_andThen fun consequent rest _ => ?_
  split
  case h_1 => exact val_map _ _ _
  case h_2 hne =>
      refine Eq.symm (alternative_of_ne (head_ne ?_))
      rintro others rfl
      exact hne _ _ rfl .rfl

theorem primary_function (ts : List Lexeme) : primary (.keyword .function :: ts) =
    ((mark .openParen).andThen fun _ => parameters.andThen fun params => block.map fun body =>
      .function none params body) ts := by
  rw [primary, Parse.primary]
  exact val_andThen fun _ _ _ => val_andThen fun _ _ _ => val_map _ _ _

theorem items_closing (closing : Mark) (ts : List Lexeme) :
    items closing (.mark closing :: ts) = .ok [] ts := by
  rw [items, Parse.items, if_pos rfl]
  rfl

theorem items_of_ne {closing : Mark} (h : ∀ t ∈ ts.head?, t ≠ .mark closing) :
    items closing ts = itemsOnto closing [] ts := by
  unfold items
  fun_cases Parse.items closing ts with
  | case1 => exact absurd rfl (h _ rfl)
  | case2 found ts hne =>
      rw [Parse.items, if_neg hne]
      rfl
  | case3 =>
      rw [Parse.items]
      · rfl
      · assumption

theorem itemsOnto_eq (closing : Mark) (read : List Expr) : itemsOnto closing read =
    expression.andThen fun item =>
      orComma closing (itemsOnto closing (item :: read)) (item :: read).reverse := by
  funext ts
  rw [itemsOnto, Parse.itemsOnto]
  refine val_andThen fun item rest _ => ?_
  split
  case h_1 => exact Parse.val_itemsOnto _ _ _ _ _
  case h_2 hne =>
      refine (val_map _ _ _).trans (Eq.symm (orComma_of_ne (head_ne ?_)))
      rintro others rfl
      exact hne _ _ rfl .rfl

theorem pairsOnto_closeBrace (read : List (Expr × Expr)) (ts : List Lexeme) :
    pairsOnto read (.mark .closeBrace :: ts) = .ok read.reverse ts := by
  rw [pairsOnto, Parse.pairsOnto]
  rfl

theorem pairsOnto_of_ne (read : List (Expr × Expr)) (h : ∀ t ∈ ts.head?, t ≠ .mark .closeBrace) :
    pairsOnto read ts = ((expression.before .colon).andThen fun key => expression.andThen fun value =>
      orComma .closeBrace (pairsOnto ((key, value) :: read)) ((key, value) :: read).reverse) ts := by
  rw [before_andThen, pairsOnto, Parse.pairsOnto]
  · refine val_andThen fun key _ _ => val_andThen fun _ _ _ => val_andThen fun value rest _ => ?_
    split
    case h_1 => exact Parse.val_pairsOnto _ _ _ _
    case h_2 hne =>
        refine (val_map _ _ _).trans (Eq.symm (orComma_of_ne (head_ne ?_)))
        rintro others rfl
        exact hne _ _ rfl .rfl
  · rintro _ _ rfl -
    exact h _ rfl rfl

end Form

end StackScript
