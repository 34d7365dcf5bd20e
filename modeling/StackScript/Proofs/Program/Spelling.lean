import StackScript.Program.Printer
import StackScript.Proofs.Program.Compositional
import StackScript.Proofs.Token.Scanning

/-!
# The lexemes of a printed program

The text of an expression is scanned to lexemes that mirror it. This holds of expressions that can be
written at all: a negative integer is read as an operator and an integer, a name has to be one, and a
character that is not printable would be quoted by its code point, which the scanner does not read.
-/

namespace StackScript

/-- The mark of a unary operator. -/
def UnaryOp.mark : UnaryOp → Mark
  | minus => .minus
  | plus => .plus
  | not => .bang

theorem UnaryOp.symbol_eq (op : UnaryOp) : op.symbol = op.mark.spelling := by
  cases op <;> rfl

/-- The mark of a binary operator. -/
def BinaryOp.mark : BinaryOp → Mark
  | add => .plus
  | subtract => .minus
  | multiply => .star
  | divide => .slash
  | less => .less
  | greater => .greater
  | equal => .equal
  | notEqual => .notEqual

theorem BinaryOp.symbol_eq (op : BinaryOp) : op.symbol = op.mark.spelling := by
  cases op <;> rfl

namespace Lexeme

/-- Lexemes with commas between them. -/
def separated (items : List (List Lexeme)) : List Lexeme :=
  List.intercalate [.mark .comma] items

@[simp] theorem separated_singleton (item : List Lexeme) : separated [item] = item :=
  List.append_nil item

@[simp] theorem separated_cons_cons (item next : List Lexeme) (items : List (List Lexeme)) :
    separated (item :: next :: items) = item ++ .mark .comma :: separated (next :: items) := by
  simp [separated, List.intercalate_cons_cons]

/-- Lexemes between braces. -/
def enclosed (inner : List Lexeme) : List Lexeme :=
  .mark .openBrace :: (inner ++ [.mark .closeBrace])

end Lexeme

mutual

/-- The lexemes of the text of an expression. -/
def Expr.lexemes : Expr → List Lexeme
  | .name id => [.name id]
  | .integer value => [.integer (toString value.toInt)]
  | .text value => [.text value]
  | .boolean value => [.keyword (if value then .truth else .falsity)]
  | .unary op argument =>
    .mark .openParen :: .mark op.mark :: (argument.lexemes ++ [.mark .closeParen])
  | .binary op left right =>
    .mark .openParen ::
      (left.lexemes ++ .mark op.mark :: (right.lexemes ++ [.mark .closeParen]))
  | .condition test consequent alternative =>
    .keyword .condition ::
      (test.lexemes ++ (Lexeme.enclosed (Stmt.allLexemes consequent) ++
        Stmt.alternativeLexemes alternative))
  | .function _ params body =>
    .keyword .function :: .mark .openParen ::
      (Lexeme.separated (params.map fun param => [.name param]) ++
        .mark .closeParen :: Lexeme.enclosed (Stmt.allLexemes body))
  | .call callee arguments =>
    callee.lexemes ++ .mark .openParen ::
      (Lexeme.separated (Expr.eachLexemes arguments) ++ [.mark .closeParen])
  | .array elements =>
    .mark .openBracket :: (Lexeme.separated (Expr.eachLexemes elements) ++ [.mark .closeBracket])
  | .hash pairs =>
    .mark .openBrace :: (Lexeme.separated (Expr.pairLexemes pairs) ++ [.mark .closeBrace])
  | .index object position =>
    .mark .openParen :: (object.lexemes ++ .mark .openBracket ::
      (position.lexemes ++ [.mark .closeBracket, .mark .closeParen]))
termination_by structural expr => expr

/-- The lexemes of the texts of several expressions. -/
def Expr.eachLexemes : List Expr → List (List Lexeme)
  | [] => []
  | expr :: exprs => expr.lexemes :: Expr.eachLexemes exprs

/-- The lexemes of the texts of the pairs of a hash literal. -/
def Expr.pairLexemes : List (Expr × Expr) → List (List Lexeme)
  | [] => []
  | (key, value) :: pairs =>
    (key.lexemes ++ .mark .colon :: value.lexemes) :: Expr.pairLexemes pairs

/-- The lexemes of the text of a statement. -/
def Stmt.lexemes : Stmt → List Lexeme
  | .binding name value =>
    .keyword .binding :: .name name :: .mark .assign :: (value.lexemes ++ [.mark .semicolon])
  | .assign name value => .name name :: .mark .assign :: (value.lexemes ++ [.mark .semicolon])
  | .result none => [.keyword .result, .mark .semicolon]
  | .result (some value) => .keyword .result :: (value.lexemes ++ [.mark .semicolon])
  | .expr value => value.lexemes

/-- The lexemes of the texts of several statements. -/
def Stmt.allLexemes : List Stmt → List Lexeme
  | [] => []
  | stmt :: stmts => stmt.lexemes ++ Stmt.allLexemes stmts

/-- The lexemes of the text of the second branch of a condition, if it is there. -/
def Stmt.alternativeLexemes : Option (List Stmt) → List Lexeme
  | none => []
  | some block => .keyword .alternative :: Lexeme.enclosed (Stmt.allLexemes block)

end

/-- An expression statement can stand in front of a statement whose text does not begin like a call
or an element access. -/
def Stmt.Separates (stmt next : Stmt) : Prop :=
  ∀ value, stmt = .expr value → ∀ c ∈ next.render.toList.head?, c ≠ '(' ∧ c ≠ '['

mutual

/-- The text of an expression shows what it is. A function has no name, as its text would show one
that is not read back. -/
def Expr.Legible : Expr → Prop
  | .name id => Lexeme.IsIdentifier id
  | .integer value => 0 ≤ value.toInt
  | .text value => ∀ c ∈ value.toList, Lexeme.IsPlain c
  | .boolean _ => True
  | .unary _ argument => argument.Legible
  | .binary _ left right => left.Legible ∧ right.Legible
  | .condition test consequent alternative =>
    test.Legible ∧ Stmt.LegibleBlock consequent ∧ Stmt.LegibleOption alternative
  | .function name params body =>
    name = none ∧ (∀ param ∈ params, Lexeme.IsIdentifier param) ∧ Stmt.LegibleBlock body
  | .call callee arguments => callee.Legible ∧ Expr.AllLegible arguments
  | .array elements => Expr.AllLegible elements
  | .hash pairs => Expr.PairsLegible pairs
  | .index object position => object.Legible ∧ position.Legible
termination_by structural expr => expr

/-- Several expressions are legible. -/
def Expr.AllLegible : List Expr → Prop
  | [] => True
  | expr :: exprs => expr.Legible ∧ Expr.AllLegible exprs

/-- The keys and the values of a hash literal are legible. -/
def Expr.PairsLegible : List (Expr × Expr) → Prop
  | [] => True
  | (key, value) :: pairs => (key.Legible ∧ value.Legible) ∧ Expr.PairsLegible pairs

/-- The text of a statement shows what it is. A function that is bound would take a name. -/
def Stmt.Legible : Stmt → Prop
  | .binding name value => Lexeme.IsIdentifier name ∧ value.Legible ∧
    ∀ self params body, value ≠ .function self params body
  | .assign name value => Lexeme.IsIdentifier name ∧ value.Legible
  | .result none => True
  | .result (some value) => value.Legible
  | .expr value => value.Legible

/-- The statements of a block are legible one after the other. -/
def Stmt.LegibleBlock : List Stmt → Prop
  | [] => True
  | stmt :: stmts =>
    stmt.Legible ∧ (∀ next ∈ stmts.head?, stmt.Separates next) ∧ Stmt.LegibleBlock stmts

/-- The second branch of a condition is legible, if it is there. -/
def Stmt.LegibleOption : Option (List Stmt) → Prop
  | none => True
  | some block => Stmt.LegibleBlock block

end

theorem Expr.eachLexemes_eq_map (exprs : List Expr) :
    Expr.eachLexemes exprs = exprs.map Expr.lexemes := by
  induction exprs with
  | nil => rfl
  | cons expr exprs ih => rw [Expr.eachLexemes, ih, List.map_cons]

theorem Expr.pairLexemes_eq_map (pairs : List (Expr × Expr)) :
    Expr.pairLexemes pairs =
      pairs.map fun pair => pair.1.lexemes ++ .mark .colon :: pair.2.lexemes := by
  induction pairs with
  | nil => rfl
  | cons pair pairs ih => rw [Expr.pairLexemes, ih, List.map_cons]

theorem Expr.allLegible_iff {exprs : List Expr} :
    Expr.AllLegible exprs ↔ ∀ expr ∈ exprs, expr.Legible := by
  induction exprs with
  | nil => simp [Expr.AllLegible]
  | cons expr exprs ih => rw [Expr.AllLegible, ih, List.forall_mem_cons]

theorem Expr.pairsLegible_iff {pairs : List (Expr × Expr)} :
    Expr.PairsLegible pairs ↔ ∀ pair ∈ pairs, pair.1.Legible ∧ pair.2.Legible := by
  induction pairs with
  | nil => simp [Expr.PairsLegible]
  | cons pair pairs ih => rw [Expr.PairsLegible, ih, List.forall_mem_cons]

/-! ## Texts and lexemes -/

namespace Lexeme

/-- A text begins with a parenthesis or a bracket if its lexemes do, and with no equals sign. -/
def Begins (text : String) (lexemes : List Lexeme) : Prop :=
  ∃ c lexeme, text.toList.head? = some c ∧ lexemes.head? = some lexeme ∧ c ≠ '=' ∧
    (lexeme = .mark .openParen → c = '(') ∧ (lexeme = .mark .openBracket → c = '[')

theorem Begins.other {text : String} {lexemes : List Lexeme} {t : Lexeme} (c : Char)
    (hc : text.toList.head? = some c) (ht : lexemes.head? = some t) (he : c ≠ '=')
    (hp : t ≠ .mark .openParen) (hb : t ≠ .mark .openBracket) : Begins text lexemes :=
  ⟨c, t, hc, ht, he, fun h => absurd h hp, fun h => absurd h hb⟩

theorem Begins.openParen {text : String} {lexemes : List Lexeme}
    (hc : text.toList.head? = some '(') (ht : lexemes.head? = some (.mark .openParen)) :
    Begins text lexemes :=
  ⟨'(', _, hc, ht, by decide, fun _ => rfl, fun h => absurd h (by decide)⟩

theorem Begins.openBracket {text : String} {lexemes : List Lexeme}
    (hc : text.toList.head? = some '[') (ht : lexemes.head? = some (.mark .openBracket)) :
    Begins text lexemes :=
  ⟨'[', _, hc, ht, by decide, fun h => absurd h (by decide), fun _ => rfl⟩

theorem Begins.append {text : String} {lexemes : List Lexeme} (h : Begins text lexemes)
    (more : String) (others : List Lexeme) : Begins (text ++ more) (lexemes ++ others) := by
  obtain ⟨c, lexeme, hc, hl, hbegins⟩ := h
  refine ⟨c, lexeme, ?_, ?_, hbegins⟩
  · rw [String.toList_append, List.head?_append, hc, Option.some_or]
  · rw [List.head?_append, hl, Option.some_or]

/-- A text gives some lexemes and begins as they do. -/
structure Mirrors (text : String) (lexemes : List Lexeme) : Prop where
  spells : Spells text lexemes
  begins : Begins text lexemes

/-- Texts with commas and spaces between them give their lexemes with commas between. -/
theorem spells_separated {items : List α} {text : α → String} {lexemes : α → List Lexeme}
    (h : ∀ item ∈ items, Spells (text item) (lexemes item)) :
    Spells (String.intercalate ", " (items.map text)) (separated (items.map lexemes)) := by
  induction items with
  | nil => exact fun cs _ => rfl
  | cons item items ih =>
      rw [List.forall_mem_cons] at h
      intro cs hd
      cases items with
      | nil => simpa using h.1 cs hd
      | cons next items =>
          have htext : String.intercalate ", " ((item :: next :: items).map text) =
              text item ++ ", " ++ String.intercalate ", " ((next :: items).map text) := by
            apply String.toList_injective
            simp [String.toList_intercalate]
          have hlexemes : separated ((item :: next :: items).map lexemes) =
              lexemes item ++ .mark .comma :: separated ((next :: items).map lexemes) :=
            separated_cons_cons _ _ _
          have hrest := ih h.2 cs hd
          rw [htext, hlexemes]
          generalize String.intercalate ", " ((next :: items).map text) = rest at hrest ⊢
          generalize separated ((next :: items).map lexemes) = others at hrest ⊢
          have hitem := h.1 (',' :: ' ' :: (rest.toList ++ cs)) (by simp [delimiters])
          simp [scan_delimiters, hitem, hrest]

theorem spells_brackets {text : String} {lexemes : List Lexeme} (h : Spells text lexemes) :
    Spells ("[" ++ text ++ "]") (.mark .openBracket :: (lexemes ++ [.mark .closeBracket])) := by
  intro cs _
  have hinner := h (']' :: cs) (by simp [delimiters])
  simp [scan_delimiters, hinner]

theorem spells_braces {text : String} {lexemes : List Lexeme} (h : Spells text lexemes) :
    Spells ("\x7b" ++ text ++ "\x7d") (.mark .openBrace :: (lexemes ++ [.mark .closeBrace])) := by
  intro cs _
  have hinner := h ('\x7d' :: cs) (by simp [delimiters])
  simp [scan_delimiters, hinner]

/-- Two texts with a colon between them. -/
theorem spells_pair {key value : String} {front back : List Lexeme} (hk : Spells key front)
    (hv : Spells value back) : Spells (key ++ ": " ++ value) (front ++ .mark .colon :: back) := by
  intro cs hd
  have hkey := hk (':' :: ' ' :: (value.toList ++ cs)) (by simp [delimiters])
  have hvalue := hv cs hd
  simp [scan_delimiters, hkey, hvalue]

end Lexeme

/-- The text of a legible expression mirrors its lexemes. -/
def Expr.Mirrored (expr : Expr) : Prop :=
  expr.Legible → Lexeme.Mirrors expr.render expr.lexemes

/-- The text of a legible statement mirrors its lexemes. -/
def Stmt.Mirrored (stmt : Stmt) : Prop :=
  stmt.Legible → Lexeme.Mirrors stmt.render stmt.lexemes

open Lexeme

theorem Stmt.scan_enclose {stmts : List Stmt} (hs : ∀ stmt ∈ stmts, stmt.Mirrored)
    (h : Stmt.LegibleBlock stmts) (cs : List Char) :
    scan ((Block.enclose (stmts.map Stmt.render)).toList ++ cs) =
      enclosed (Stmt.allLexemes stmts) ++ scan cs := by
  have hinner : ∀ others, scan (stmts.flatMap (fun stmt => stmt.render.toList ++ [' ']) ++ others) =
      Stmt.allLexemes stmts ++ scan others := by
    intro others
    induction stmts with
    | nil => rfl
    | cons stmt stmts ih =>
        rw [List.forall_mem_cons] at hs
        have hstmt := (hs.1 h.1).spells
          (' ' :: (stmts.flatMap (fun stmt => stmt.render.toList ++ [' ']) ++ others))
          (by simp [delimiters])
        simp [Stmt.allLexemes, hstmt, ih hs.2 h.2.2]
  have htext : (Block.enclose (stmts.map Stmt.render)).toList ++ cs = '\x7b' :: ' ' ::
      (stmts.flatMap (fun stmt => stmt.render.toList ++ [' ']) ++ '\x7d' :: cs) := by
    simp [Block.enclose, List.flatMap_map]
  simp [htext, hinner, enclosed, scan_delimiters]

theorem Expr.spells_each {exprs : List Expr} (he : ∀ expr ∈ exprs, expr.Mirrored)
    (h : Expr.AllLegible exprs) :
    Spells (String.intercalate ", " (exprs.map Expr.render))
      (separated (Expr.eachLexemes exprs)) := by
  rw [Expr.eachLexemes_eq_map]
  exact spells_separated fun expr hm => (he expr hm (Expr.allLegible_iff.mp h expr hm)).spells

theorem Expr.spells_pairs {pairs : List (Expr × Expr)}
    (hp : ∀ pair ∈ pairs, pair.1.Mirrored ∧ pair.2.Mirrored) (h : Expr.PairsLegible pairs) :
    Spells (String.intercalate ", " (pairs.map fun pair => pair.1.render ++ ": " ++ pair.2.render))
      (separated (Expr.pairLexemes pairs)) := by
  rw [Expr.pairLexemes_eq_map]
  apply spells_separated
  intro pair hm
  obtain ⟨hkey, hvalue⟩ := Expr.pairsLegible_iff.mp h pair hm
  exact spells_pair ((hp pair hm).1 hkey).spells ((hp pair hm).2 hvalue).spells

attribute [local simp] Expr.render Expr.lexemes Stmt.render Stmt.lexemes

namespace Expr.Mirrored

theorem name (id : String) : (Expr.name id).Mirrored := by
  intro h
  constructor
  · exact spells_identifier h
  · obtain ⟨c, run, rfl, hc, -⟩ := h.exists_run
    refine .other c (by simp) rfl ?_ (by simp) (by simp)
    rintro rfl
    exact hc (by decide)

theorem integer (value : Int64) : (Expr.integer value).Mirrored := by
  intro h
  obtain ⟨n, hn⟩ := Int.eq_ofNat_of_zero_le h
  have htext : toString value.toInt = n.repr := by
    rw [hn]
    rfl
  constructor
  · rw [Expr.render, Expr.lexemes, htext]
    exact spells_repr n
  · rw [Expr.render, Expr.lexemes, htext]
    cases hdigits : Nat.toDigits 10 n with
    | nil => exact absurd hdigits Nat.toDigits_ne_nil
    | cons c run =>
        have hdigit : c.isDigit = true := by
          have hmem : c ∈ Nat.toDigits 10 n := hdigits ▸ List.mem_cons_self
          exact Nat.isDigit_of_mem_toDigits (by decide) (by decide) hmem
        refine .other c ?_ rfl ?_ (by simp) (by simp)
        · rw [Nat.toList_repr, hdigits, List.head?_cons]
        · rintro rfl
          cases hdigit

theorem text (value : String) : (Expr.text value).Mirrored := by
  intro h
  constructor
  · exact spells_quote h
  · exact .other '"' (by simp [Text.toList_quote]) rfl (by decide) (by simp) (by simp)

theorem boolean (value : Bool) : (Expr.boolean value).Mirrored := by
  intro _
  cases value with
  | false => exact ⟨spells_keyword .falsity, .other 'f' rfl rfl (by decide) (by decide) (by decide)⟩
  | true => exact ⟨spells_keyword .truth, .other 't' rfl rfl (by decide) (by decide) (by decide)⟩

theorem unary (op : UnaryOp) {argument : Expr} (ha : argument.Mirrored) :
    (Expr.unary op argument).Mirrored := by
  intro h
  obtain ⟨hspells, hbegins⟩ := ha h
  constructor
  · intro cs hd
    have hargument := hspells (')' :: cs) (by simp [delimiters])
    -- An equals sign would make another mark of an exclamation mark.
    have hmark : scan (op.mark.spelling.toList ++ (argument.render.toList ++ ')' :: cs)) =
        .mark op.mark :: scan (argument.render.toList ++ ')' :: cs) := by
      cases op with
      | minus => exact scan_mark (m := .minus) (by decide) _
      | plus => exact scan_mark (m := .plus) (by decide) _
      | not =>
          obtain ⟨c, -, hc, -, hne, -⟩ := hbegins
          have hhead : (argument.render.toList ++ ')' :: cs).head? ≠ some '=' := by
            rw [List.head?_append, hc]
            simpa using hne
          exact scan_bang hhead
    simp [UnaryOp.symbol_eq, scan_delimiters, hmark, hargument]
  · exact .openParen (by simp) rfl

theorem binary (op : BinaryOp) {left right : Expr} (hl : left.Mirrored) (hr : right.Mirrored) :
    (Expr.binary op left right).Mirrored := by
  rintro ⟨hleft, hright⟩
  constructor
  · intro cs hd
    have hright := (hr hright).spells (')' :: cs) (by simp [delimiters])
    have hleft := (hl hleft).spells
      (' ' :: (op.mark.spelling.toList ++ ' ' :: (right.render.toList ++ ')' :: cs)))
      (by simp [delimiters])
    simp [BinaryOp.symbol_eq, scan_delimiters, scan_mark_space, hleft, hright]
  · exact .openParen (by simp) rfl

theorem condition {test : Expr} {consequent : List Stmt} {alternative : Option (List Stmt)}
    (ht : test.Mirrored) (hc : ∀ stmt ∈ consequent, stmt.Mirrored)
    (ha : ∀ block ∈ alternative, ∀ stmt ∈ block, stmt.Mirrored) :
    (Expr.condition test consequent alternative).Mirrored := by
  rintro ⟨htest, hconsequent, halternative⟩
  constructor
  · intro cs hd
    have hblock := Stmt.scan_enclose hc hconsequent
    have hif : ∀ others, scan ('i' :: 'f' :: ' ' :: others) = .keyword .condition :: scan others :=
      scan_keyword_space .condition
    have hrest : scan ((Stmt.renderAlternative alternative).toList ++ cs) =
        Stmt.alternativeLexemes alternative ++ scan cs := by
      cases alternative with
      | none => simp [Stmt.renderAlternative, Stmt.alternativeLexemes]
      | some block =>
          have hother := Stmt.scan_enclose (ha block rfl) halternative cs
          have helse : ∀ others, scan ('e' :: 'l' :: 's' :: 'e' :: ' ' :: others) =
              .keyword .alternative :: scan others :=
            scan_keyword_space .alternative
          simp [Stmt.renderAlternative, Stmt.alternativeLexemes, helse, hother]
    have htest := (ht htest).spells (' ' :: ((Block.enclose (consequent.map Stmt.render)).toList ++
      ((Stmt.renderAlternative alternative).toList ++ cs))) (by simp [delimiters])
    simp [hif, htest, hblock, hrest]
  · exact .other 'i' (by simp) rfl (by decide) (by decide) (by decide)

theorem function (self : Option String) (params : List String) {body : List Stmt}
    (hb : ∀ stmt ∈ body, stmt.Mirrored) : (Expr.function self params body).Mirrored := by
  rintro ⟨rfl, hparams, hbody⟩
  constructor
  · intro cs hd
    have hblock := Stmt.scan_enclose hb hbody cs
    have hnames : Spells (String.intercalate ", " (params.map id))
        (separated (params.map fun param => [.name param])) :=
      spells_separated fun param hm => spells_identifier (hparams param hm)
    rw [List.map_id] at hnames
    have hnames := hnames (')' :: ' ' :: ((Block.enclose (body.map Stmt.render)).toList ++ cs))
      (by simp [delimiters])
    have hfn : ∀ others, scan ('f' :: 'n' :: '(' :: others) =
        .keyword .function :: scan ('(' :: others) := by
      intro others
      exact spells_keyword .function ('(' :: others) (by simp [delimiters])
    simp [-String.toList_intercalate, hfn, hnames, scan_delimiters, hblock]
  · exact .other 'f' (by simp) rfl (by decide) (by decide) (by decide)

theorem call {callee : Expr} {arguments : List Expr} (hc : callee.Mirrored)
    (ha : ∀ expr ∈ arguments, expr.Mirrored) : (Expr.call callee arguments).Mirrored := by
  rintro ⟨hcallee, harguments⟩
  obtain ⟨hspells, hbegins⟩ := hc hcallee
  constructor
  · intro cs hd
    have harguments := Expr.spells_each ha harguments (')' :: cs) (by simp [delimiters])
    have hcallee := hspells ('(' :: ((String.intercalate ", " (arguments.map Expr.render)).toList ++
      ')' :: cs)) (by simp [delimiters])
    simp [-String.toList_intercalate, scan_delimiters, hcallee, harguments]
  · rw [Expr.render, Expr.lexemes, String.append_assoc, String.append_assoc]
    exact hbegins.append _ _

theorem array {elements : List Expr} (he : ∀ expr ∈ elements, expr.Mirrored) :
    (Expr.array elements).Mirrored := by
  intro h
  constructor
  · have helements := spells_brackets (Expr.spells_each he h)
    rwa [← Expr.renderAll_eq_map] at helements
  · exact .openBracket (by simp) rfl

theorem hash {pairs : List (Expr × Expr)}
    (hp : ∀ pair ∈ pairs, pair.1.Mirrored ∧ pair.2.Mirrored) : (Expr.hash pairs).Mirrored := by
  intro h
  constructor
  · have hpairs := spells_braces (Expr.spells_pairs hp h)
    rwa [← Expr.renderPairs_eq_map] at hpairs
  · exact .other '\x7b' (by simp) rfl (by decide) (by decide) (by decide)

theorem index {object position : Expr} (ho : object.Mirrored) (hp : position.Mirrored) :
    (Expr.index object position).Mirrored := by
  rintro ⟨hobject, hposition⟩
  constructor
  · intro cs hd
    have hposition := (hp hposition).spells (']' :: ')' :: cs) (by simp [delimiters])
    have hobject := (ho hobject).spells ('[' :: (position.render.toList ++ ']' :: ')' :: cs))
      (by simp [delimiters])
    simp [scan_delimiters, hobject, hposition]
  · exact .openParen (by simp) rfl

end Expr.Mirrored

namespace Stmt.Mirrored

theorem binding (name : String) {value : Expr} (hv : value.Mirrored) :
    (Stmt.binding name value).Mirrored := by
  rintro ⟨hname, hvalue, -⟩
  constructor
  · intro cs hd
    have hvalue := (hv hvalue).spells (';' :: cs) (by simp [delimiters])
    have hname := spells_identifier hname (' ' :: '=' :: ' ' :: (value.render.toList ++ ';' :: cs))
      (by simp [delimiters])
    have hlet : ∀ others,
        scan ('l' :: 'e' :: 't' :: ' ' :: others) = .keyword .binding :: scan others :=
      scan_keyword_space .binding
    have hassign : ∀ others, scan ('=' :: ' ' :: others) = .mark .assign :: scan others :=
      scan_mark_space .assign
    simp [hlet, hname, hassign, hvalue, scan_delimiters]
  · exact .other 'l' (by simp) rfl (by decide) (by decide) (by decide)

theorem assign (name : String) {value : Expr} (hv : value.Mirrored) :
    (Stmt.assign name value).Mirrored := by
  rintro ⟨hname, hvalue⟩
  constructor
  · intro cs hd
    have hvalue := (hv hvalue).spells (';' :: cs) (by simp [delimiters])
    have hname := spells_identifier hname (' ' :: '=' :: ' ' :: (value.render.toList ++ ';' :: cs))
      (by simp [delimiters])
    have hassign : ∀ others, scan ('=' :: ' ' :: others) = .mark .assign :: scan others :=
      scan_mark_space .assign
    simp [hname, hassign, hvalue, scan_delimiters]
  · rw [Stmt.render, String.append_assoc, String.append_assoc]
    exact (Expr.Mirrored.name name hname).begins.append _ _

theorem returnValue {value : Expr} (hv : value.Mirrored) : (Stmt.result (some value)).Mirrored := by
  intro h
  constructor
  · intro cs hd
    have hvalue := (hv h).spells (';' :: cs) (by simp [delimiters])
    have hreturn : ∀ others, scan ('r' :: 'e' :: 't' :: 'u' :: 'r' :: 'n' :: ' ' :: others) =
        .keyword .result :: scan others :=
      scan_keyword_space .result
    simp [hreturn, hvalue, scan_delimiters]
  · exact .other 'r' (by simp) rfl (by decide) (by decide) (by decide)

theorem returnNull : (Stmt.result none).Mirrored := by
  intro _
  constructor
  · intro cs hd
    have hreturn : scan ('r' :: 'e' :: 't' :: 'u' :: 'r' :: 'n' :: ';' :: cs) =
        .keyword .result :: scan (';' :: cs) :=
      spells_keyword .result (';' :: cs) (by simp [delimiters])
    simp [hreturn, scan_delimiters]
  · exact .other 'r' (by simp) rfl (by decide) (by decide) (by decide)

theorem expr {value : Expr} (hv : value.Mirrored) : (Stmt.expr value).Mirrored :=
  hv

end Stmt.Mirrored

/-- The texts of wholes mirror their lexemes as those of their parts do. -/
theorem compositional_mirrored : Compositional Expr.Mirrored Stmt.Mirrored where
  name := .name
  integer := .integer
  text := .text
  boolean := .boolean
  unary op _ := .unary op
  binary op _ _ := .binary op
  condition _ _ _ := .condition
  function self params _ := .function self params
  call _ _ := .call
  array _ := .array
  hash _ := .hash
  index _ _ := .index
  binding name _ := .binding name
  assign name _ := .assign name
  returnValue _ := .returnValue
  returnNull := .returnNull
  expr _ := .expr

end StackScript
