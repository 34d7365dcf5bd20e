import Mathlib.Data.Set.List
import StackScript.Proofs.Core.Constant
import StackScript.Proofs.Program.RoundTrip
import StackScript.Proofs.Value.Printing

/-!
# Literals

The text of a value inside another is read as an expression that comes to that value again. This
holds of values that can be written at all: the digits of the smallest integer are too large by
themselves, the scanner does not read a character that is quoted by its code point, and functions and
null have no literal.

## Implementation notes

A literal is a value together with the lexemes of its text, the expression as which they are read and
what that resolves to. Literals of arrays and hashes are made of those of their parts, so that what
holds of a literal is stated where it is made.
-/

namespace StackScript

open Lexeme Parse

/-- A value is made of booleans, integers and texts that have literals. The entries of a hash are
enumerated in any order, one for each key. -/
inductive ValueOver.IsPlain : ValueOver C → Prop
  | integer {value : Int64} (h : Int64.minValue < value) : IsPlain (.integer value)
  | boolean (value : Bool) : IsPlain (.boolean value)
  | text {value : String} (h : ∀ c ∈ value.toList, Lexeme.IsPlain c) : IsPlain (.text value)
  | array {elements : List (ValueOver C)} (h : ∀ element ∈ elements, IsPlain element) :
    IsPlain (.array elements)
  | hash {entries : List (Key × ValueOver C)} (hn : (entries.map Prod.fst).Nodup)
    (hk : ∀ entry ∈ entries, IsPlain (.ofKey entry.1 : ValueOver C))
    (hv : ∀ entry ∈ entries, IsPlain entry.2) : IsPlain (.hash entries)

/-- What a plain value is made of makes it again, but for the orders of the entries. -/
theorem ValueOver.IsPlain.rearranged_ordered {value : ValueOver C} (h : value.IsPlain) :
    value.Rearranged value.ordered := by
  induction h with
  | integer | boolean | text => exact .refl _
  | array _ ih => exact .array_ordered ih
  | hash hn _ _ _ ih => exact .hash_ordered hn ih

/-- The lexemes that the text of a value begins with. -/
def Lexeme.startsLiteral : Lexeme → Bool
  | .integer _ | .text _ => true
  | .keyword word => word ∈ [Keyword.truth, .falsity]
  | .mark m => m ∈ [Mark.minus, .openBracket, .openBrace]
  | .name _ | .unclosedText | .illegal _ => false

/-- A value and what becomes of its text. What it computes to has the entries of its hashes in order,
in whatever order the value enumerates them. -/
structure Literal where
  value : Value
  lexemes : List Lexeme
  expr : Expr
  core : Core.Expr
  spells : Spells value.renderNested lexemes
  first : First startsLiteral lexemes
  reads : ReadsAs lexemes expr
  resolves : expr.ResolvesTo core
  computes : core.Computes value.ordered

/-- Negation only leaves the smallest integer as it is. -/
theorem toInt_neg_of_minValue_lt {value : Int64} (h : Int64.minValue < value) :
    (-value).toInt = -value.toInt := by
  have hlow : -9223372036854775808 < value.toInt := Int64.lt_iff_toInt_lt.mp h
  have hhigh := value.toInt_lt
  rw [Int64.toInt_neg, Int.bmod_eq_of_le (by omega) (by omega)]

namespace ValueOver

theorem renderNested_neg {value : Int64} (h : 0 < value.toInt) :
    (integer (-value) : ValueOver C).renderNested = "-" ++ toString value.toInt := by
  have hmin : Int64.minValue < value := Int64.lt_iff_toInt_lt.mpr (Int.lt_trans (by decide) h)
  obtain ⟨n, hn⟩ := Int.eq_succ_of_zero_lt h
  rw [renderNested, renderWith_integer, toInt_neg_of_minValue_lt hmin, hn]
  rfl

theorem ordered_ofKey (key : Key) : (ofKey key : ValueOver C).ordered = ofKey key := by
  cases key <;> rfl

theorem renderNested_ofKey (key : Key) :
    (ofKey key : ValueOver C).renderNested = key.renderQuoted := by
  cases key with
  | integer value => exact renderWith_integer true value
  | boolean value => rfl
  | text value => exact renderWith_text true value

theorem renderNested_array (elements : List (ValueOver C)) :
    (array elements).renderNested =
      "[" ++ String.intercalate ", " (elements.map renderNested) ++ "]" := by
  rw [renderNested, renderWith_array, renderElements_eq_map]

/-- The text of an entry. -/
def entryText (entry : Key × ValueOver C) : String :=
  entry.1.renderQuoted ++ ": " ++ entry.2.renderNested

/-- The entries of a hash are shown in the order of the texts of their keys. -/
theorem renderNested_hash (entries : List (Key × ValueOver C)) :
    (hash entries).renderNested = "\x7b" ++ String.intercalate ", "
      ((entries.mergeSort fun first second => textLe first.1.render second.1.render).map
        entryText) ++ "\x7d" := by
  let keyed := fun entry : Key × ValueOver C => (entry.1.render, entryText entry)
  have hsorted : sortedTexts (entries.map keyed) =
      (entries.mergeSort fun first second => textLe first.1.render second.1.render).map
        entryText := by
    rw [sortedTexts, ← List.map_mergeSort (f := keyed) fun _ _ _ _ => rfl, List.map_map]
    rfl
  have hentries : renderEntries entries = entries.map keyed := renderEntries_eq_map entries
  rw [renderNested, renderWith_hash, hentries, hsorted]

end ValueOver

/-- What is read as a primary expression is read as an expression. -/
theorem Lexeme.ReadsAs.of_primary {t : Lexeme} {ts : List Lexeme} {expr : Expr}
    (ht : UnaryOp.ofLexeme? t = none)
    (h : ∀ rest, (primary (t :: ts ++ rest)).Reads expr rest) : ReadsAs (t :: ts) expr := by
  intro rest hs
  apply reads_expression_of_unary hs
  apply reads_unary_applied
  · rintro _ ⟨⟩
    exact ht
  · refine reads_applied (h rest) fun _ => reads_appliedOnto_end fun t ht => ?_
    exact ⟨hs.head_ne (by decide) t ht, hs.head_ne (by decide) t ht⟩

namespace Literal

def natural (value : Int64) (h : 0 ≤ value.toInt) : Literal where
  value := .integer value
  lexemes := (Expr.integer value).lexemes
  expr := .integer value
  core := .integer value
  spells := (Expr.Mirrored.integer value h).spells
  first := ⟨_, _, rfl, rfl⟩
  reads := (Expr.Readable.integer value).readsBack h
  resolves _ := rfl
  computes := .integer value

/-- A negative integer is written as an operator and an integer. -/
def negative (value : Int64) (h : 0 < value.toInt) : Literal where
  value := .integer (-value)
  lexemes := .mark .minus :: (Expr.integer value).lexemes
  expr := .unary .minus (.integer value)
  core := .unary .negate (.integer value)
  spells := by
    intro cs hd
    have hdigits := (Expr.Mirrored.integer value (Int.le_of_lt h)).spells cs hd
    rw [ValueOver.renderNested_neg h, String.toList_append, List.append_assoc, List.cons_append,
      ← hdigits]
    exact scan_mark (m := .minus) (by decide) _
  first := ⟨_, _, rfl, rfl⟩
  reads rest hs := by
    have hinteger := (Expr.Readable.integer value).operand (Int.le_of_lt h) hs.not_mem_applications
    exact reads_expression_of_unary hs (reads_unary_operator rfl hinteger)
  resolves := .negate fun _ => rfl
  computes := .unary (.integer value) rfl

def boolean (value : Bool) : Literal where
  value := .boolean value
  lexemes := (Expr.boolean value).lexemes
  expr := .boolean value
  core := .boolean value
  spells := (Expr.Mirrored.boolean value trivial).spells
  first := by cases value <;> exact ⟨_, _, rfl, rfl⟩
  reads := (Expr.Readable.boolean value).readsBack trivial
  resolves _ := rfl
  computes := .boolean value

def text (value : String) (h : ∀ c ∈ value.toList, Lexeme.IsPlain c) : Literal where
  value := .text value
  lexemes := (Expr.text value).lexemes
  expr := .text value
  core := .text value
  spells := (Expr.Mirrored.text value h).spells
  first := ⟨_, _, rfl, rfl⟩
  reads := (Expr.Readable.text value).readsBack h
  resolves _ := rfl
  computes := .text value

def array (literals : List Literal) : Literal where
  value := .array (literals.map value)
  lexemes := .mark .openBracket :: (separated (literals.map lexemes) ++ [.mark .closeBracket])
  expr := .array (literals.map expr)
  core := .collect .array (literals.map core)
  spells := by
    have helements := spells_separated fun literal (_ : literal ∈ literals) => literal.spells
    rw [ValueOver.renderNested_array, List.map_map]
    exact spells_brackets helements
  first := ⟨_, _, rfl, rfl⟩
  reads := by
    refine .of_primary rfl fun rest => ?_
    rw [List.cons_append, List.append_assoc]
    have hfirst : ∀ literal ∈ literals, First startsLiteral literal.lexemes :=
      fun literal _ => literal.first
    exact reads_primary_array (reads_items_each lexemes expr (by decide) rfl hfirst
      (fun literal _ => literal.reads) rest)
  resolves := .array fun literal _ => literal.resolves
  computes := by
    rw [ValueOver.ordered_array, List.map_map]
    exact .array fun literal _ => literal.computes

end Literal

/-- A literal of a value that is a key. -/
structure KeyLiteral extends Literal where
  key : Key
  value_eq : value = .ofKey key
  hashable : expr.isUnhashable = false

namespace Literal

/-- An entry of a hash as two literals. -/
abbrev Entry := KeyLiteral × Literal

namespace Entry

def held (entry : Entry) : Key × Value :=
  (entry.1.key, entry.2.value)

def lexemes (entry : Entry) : List Lexeme × List Lexeme :=
  (entry.1.lexemes, entry.2.lexemes)

def exprs (entry : Entry) : Expr × Expr :=
  (entry.1.expr, entry.2.expr)

def cores (entry : Entry) : Core.Expr × Core.Expr :=
  (entry.1.core, entry.2.core)

theorem entryText_held (entry : Entry) : ValueOver.entryText entry.held =
    entry.1.value.renderNested ++ ": " ++ entry.2.value.renderNested := by
  rw [entry.1.value_eq, ValueOver.renderNested_ofKey]
  rfl

theorem spells (entry : Entry) : Spells (ValueOver.entryText entry.held) (paired entry.lexemes) := by
  rw [entryText_held]
  exact spells_pair entry.1.spells entry.2.spells

/-- The entry that becomes of its text. -/
def made (entry : Entry) : Key × Value :=
  (entry.1.key, entry.2.value.ordered)

theorem computes (entry : Entry) : entry.cores.1.Computes (.ofKey entry.made.1) ∧
    entry.cores.2.Computes entry.made.2 := by
  have hkey := entry.1.computes
  rw [entry.1.value_eq, ValueOver.ordered_ofKey] at hkey
  exact ⟨hkey, entry.2.computes⟩

/-- Entries in the order in which a hash shows them. -/
def shown (entries : List Entry) : List Entry :=
  entries.mergeSort fun first second => textLe first.1.key.render second.1.key.render

/-- Entries in the order in which a hash literal resolves them. -/
def resolved (entries : List Entry) : List Entry :=
  entries.mergeSort fun first second => textLe first.exprs.1.render second.exprs.1.render

theorem held_shown (entries : List Entry) : (shown entries).map held =
    (entries.map held).mergeSort fun first second => textLe first.1.render second.1.render :=
  List.map_mergeSort fun _ _ _ _ => rfl

end Entry

open Entry

def hash (entries : List Entry) (hn : ((entries.map held).map Prod.fst).Nodup) : Literal where
  value := .hash (entries.map held)
  lexemes := .mark .openBrace :: (separated ((shown entries).map fun entry => paired entry.lexemes) ++
    [.mark .closeBrace])
  expr := .hash ((shown entries).map exprs)
  core := .collect .hash ((resolved (shown entries)).flatMap fun entry =>
    [entry.cores.1, entry.cores.2])
  spells := by
    have hentries := spells_separated fun entry (_ : entry ∈ shown entries) => entry.spells
    rw [ValueOver.renderNested_hash, ← held_shown, List.map_map]
    exact spells_braces hentries
  first := ⟨_, _, rfl, rfl⟩
  reads := by
    refine .of_primary rfl fun rest => ?_
    rw [List.cons_append, List.append_assoc]
    have hfirst : ∀ entry ∈ shown entries, First startsLiteral entry.lexemes.1 :=
      fun entry _ => entry.1.first
    exact reads_primary_hash (reads_pairsOnto_each Entry.lexemes exprs rfl hfirst
      (fun entry _ => ⟨entry.1.reads, entry.2.reads⟩) rest [] _)
  resolves := .hash (fun entry _ => entry.1.hashable) fun entry _ =>
    ⟨entry.1.resolves, entry.2.resolves⟩
  computes := by
    have hkeys : ((entries.map made).map Prod.fst).Nodup := by
      rw [List.map_map] at hn ⊢
      exact hn
    obtain ⟨inOrder, ho, hperm, heq⟩ := ValueOver.exists_ofEntries hkeys
    have hresolved : (resolved (shown entries)).Perm entries :=
      (List.mergeSort_perm _ _).trans (List.mergeSort_perm _ _)
    rw [ValueOver.ordered_hash, List.map_map]
    have hmade : (fun entry => (entry.1, entry.2.ordered)) ∘ held = made := rfl
    rw [hmade, heq]
    exact .hash (fun entry _ => entry.computes) ho ((hresolved.map made).trans hperm)

theorem exists_integer {value : Int64} (h : Int64.minValue < value) :
    ∃ literal : Literal, literal.value = .integer value ∧ literal.expr.isUnhashable = false := by
  by_cases hsign : 0 ≤ value.toInt
  case pos => exact ⟨natural value hsign, rfl, rfl⟩
  case neg =>
      have hneg : 0 < (-value).toInt := by
        rw [toInt_neg_of_minValue_lt h]
        omega
      exact ⟨negative (-value) hneg, congrArg ValueOver.integer Int64.neg_neg, rfl⟩

theorem exists_key {key : Key} (h : (ValueOver.ofKey key : Value).IsPlain) :
    ∃ literal : KeyLiteral, literal.key = key := by
  cases key with
  | integer value =>
      cases h with
      | integer h =>
          obtain ⟨literal, hvalue, hhashable⟩ := exists_integer h
          exact ⟨⟨literal, .integer value, hvalue, hhashable⟩, rfl⟩
  | boolean value => exact ⟨⟨boolean value, .boolean value, rfl, rfl⟩, rfl⟩
  | text value =>
      cases h with
      | text h => exact ⟨⟨text value h, .text value, rfl, rfl⟩, rfl⟩

/-- Plain values have literals. -/
theorem exists_of_isPlain {value : Value} (h : value.IsPlain) :
    ∃ literal : Literal, literal.value = value := by
  induction h with
  | integer h =>
      obtain ⟨literal, hvalue, -⟩ := exists_integer h
      exact ⟨literal, hvalue⟩
  | boolean value => exact ⟨boolean value, rfl⟩
  | text h => exact ⟨text _ h, rfl⟩
  | @array elements _ ih =>
      obtain ⟨literals, rfl⟩ : elements ∈ Set.range (List.map Literal.value) := by
        rw [Set.range_list_map]
        exact ih
      exact ⟨array literals, rfl⟩
  | @hash entries hn hk _ _ ih =>
      obtain ⟨literals, rfl⟩ : entries ∈ Set.range (List.map held) := by
        rw [Set.range_list_map]
        rintro ⟨key, value⟩ hm
        obtain ⟨front, rfl⟩ := exists_key (hk _ hm)
        obtain ⟨back, rfl⟩ := ih _ hm
        exact ⟨(front, back), rfl⟩
      exact ⟨hash literals hn, rfl⟩

/-- The text of a literal is a program of one expression statement. -/
theorem parse (literal : Literal) :
    Program.parse literal.value.renderNested = .ok [.expr literal.expr] := by
  have hfirst := literal.first
  have hexpr : (expression literal.lexemes).Reads literal.expr [] := by
    have hreads := literal.reads [] stops_nil
    rwa [List.append_nil] at hreads
  have hname : ∀ id others, literal.lexemes ≠ .name id :: .mark .assign :: others := by
    intro id others heq
    rw [heq] at hfirst
    exact hfirst.head_ne (rfl : startsLiteral (.name id) = false) _ rfl rfl
  have hopen := reads_openStatement_expr
    (fun t ht => ⟨hfirst.head_ne rfl t ht, hfirst.head_ne rfl t ht⟩) hname hexpr
  have hstatement : (statement literal.lexemes).Reads (.expr literal.expr) [] :=
    reads_statement hopen (Or.inr ⟨rfl, nofun⟩)
  have hprogram : Parse.program literal.lexemes = .ok [.expr literal.expr] [] :=
    program_single hfirst.ne_nil hstatement
  rw [Program.parse, Reader.program, Reader.read, literal.spells.lexemes_ofSource, hprogram]

end Literal

end StackScript
