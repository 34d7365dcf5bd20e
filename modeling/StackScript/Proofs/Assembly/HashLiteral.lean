import StackScript.Proofs.Assembly.Generation
import StackScript.Proofs.Text.Quoted
import StackScript.Proofs.Value.Sorting

/-!
# Hash literals with literal keys

The pairs of a hash literal are compiled in the order of the texts of their keys. Different keys have
different texts if they are literals, also if one is a text and the other one is not. Pairs with
different keys are therefore compiled in the same order, however they are written.
-/

namespace StackScript

namespace Key

/-- The literal of a key. -/
def literal : Key → Expr
  | integer value => .integer value
  | boolean value => .boolean value
  | text value => .text value

theorem render_literal (key : Key) : key.literal.render = key.renderQuoted := by
  cases key <;> rfl

theorem isUnhashable_literal (key : Key) : key.literal.isUnhashable = false := by
  cases key <;> rfl

/-! ## The texts of keys -/

theorem repr_inj {m n : Nat} (h : m.repr = n.repr) : m = n := by
  have hdigits : Nat.toDigits 10 m = Nat.toDigits 10 n := by
    rw [← Nat.toList_repr, ← Nat.toList_repr, h]
  rw [← @Nat.ofDigitChars_ten_toDigits m, hdigits, Nat.ofDigitChars_ten_toDigits]

theorem isDigit_of_mem_repr {n : Nat} {c : Char} (h : c ∈ n.repr.toList) : c.isDigit = true := by
  rw [Nat.toList_repr] at h
  exact Nat.isDigit_of_mem_toDigits (by decide) (by decide) h

/-- The text of an integer is that of a natural number, with or without a sign. -/
theorem renderQuoted_integer (value : Int64) :
    (0 ≤ value.toInt ∧ renderQuoted (.integer value) = value.toInt.toNat.repr) ∨
      (value.toInt < 0 ∧ renderQuoted (.integer value) = "-" ++ (-value.toInt).toNat.repr) := by
  have htext : renderQuoted (.integer value) = value.toInt.repr := rfl
  rw [Int.repr_eq_if] at htext
  split at htext
  case isTrue h => exact .inl ⟨h, htext⟩
  case isFalse h => exact .inr ⟨Int.not_le.mp h, htext⟩

/-- The text of an integer has no letters and no quotes. -/
theorem mem_renderQuoted_integer {value : Int64} {c : Char}
    (h : c ∈ (renderQuoted (.integer value)).toList) : c.isDigit = true ∨ c = '-' := by
  obtain ⟨-, htext⟩ | ⟨-, htext⟩ := renderQuoted_integer value
  · rw [htext] at h
    exact .inl (isDigit_of_mem_repr h)
  · rw [htext, String.toList_append, List.mem_append] at h
    rcases h with h | h
    · exact .inr (List.mem_singleton.mp h)
    · exact .inl (isDigit_of_mem_repr h)

theorem renderQuoted_integer_inj {value other : Int64}
    (h : renderQuoted (.integer value) = renderQuoted (.integer other)) : value = other := by
  have hminus : ∀ m n : Nat, m.repr ≠ "-" ++ n.repr := by
    intro m n heq
    have hmem : '-' ∈ m.repr.toList := by
      rw [heq, String.toList_append]
      exact List.mem_cons_self
    exact absurd (isDigit_of_mem_repr hmem) (by decide)
  refine Int64.toInt_inj.mp ?_
  obtain ⟨hsign, htext⟩ | ⟨hsign, htext⟩ := renderQuoted_integer value <;>
    obtain ⟨hsign', htext'⟩ | ⟨hsign', htext'⟩ := renderQuoted_integer other <;>
    rw [htext, htext'] at h
  · have hsame := repr_inj h
    omega
  · exact absurd h (hminus _ _)
  · exact absurd h.symm (hminus _ _)
  · have hlists := congrArg String.toList h
    rw [String.toList_append, String.toList_append] at hlists
    have hsame := repr_inj (String.toList_inj.mp (List.append_cancel_left hlists))
    omega

/-- Different keys have different texts. -/
theorem renderQuoted_inj {key other : Key} (h : key.renderQuoted = other.renderQuoted) :
    key = other := by
  have hboolean : ∀ (value : Bool) (number : Int64),
      renderQuoted (.boolean value) ≠ renderQuoted (.integer number) := by
    intro value number heq
    have hmem : 'e' ∈ (renderQuoted (.integer number)).toList := by
      rw [← heq]
      cases value <;> decide
    exact absurd (mem_renderQuoted_integer hmem) (by decide)
  have htext : ∀ (value : String) (number : Int64),
      Text.quote value ≠ renderQuoted (.integer number) := by
    intro value number heq
    have hmem : '"' ∈ (renderQuoted (.integer number)).toList := by
      rw [← heq, Text.toList_quote]
      exact List.mem_cons_self
    exact absurd (mem_renderQuoted_integer hmem) (by decide)
  have hquote : ∀ (value : String) (truth : Bool),
      Text.quote value ≠ renderQuoted (.boolean truth) := by
    intro value truth heq
    have hhead : (renderQuoted (.boolean truth)).toList.head? = some '"' := by
      rw [← heq, Text.toList_quote]
      rfl
    cases truth <;> exact absurd hhead (by decide)
  cases key <;> cases other
  case integer.integer => rw [renderQuoted_integer_inj h]
  case integer.boolean => exact absurd h.symm (hboolean _ _)
  case integer.text => exact absurd h.symm (htext _ _)
  case boolean.integer => exact absurd h (hboolean _ _)
  case boolean.boolean value other => cases value <;> cases other <;> simp_all [renderQuoted, render]
  case boolean.text => exact absurd h.symm (hquote _ _)
  case text.integer => exact absurd h (htext _ _)
  case text.boolean => exact absurd h (hquote _ _)
  case text.text => rw [Text.quote_inj h]

end Key

/-! ## Compiling hash literals -/

/-- A hash literal with keys that are literals. -/
def Expr.keyed (items : List (Key × Expr)) : Expr :=
  .hash (items.map fun item => (item.1.literal, item.2))

/-- Items in the order in which their pairs are compiled. -/
abbrev Key.sorted (key : α → Key) (items : List α) : List α :=
  sortedBy (fun item => (key item).renderQuoted) items

/-- Compiling pairs one after the other is compiling their keys and values in turn. -/
theorem Expr.foldlM_compilePair (pair : α → Expr × Expr) (items : List α) (assembly : Assembly) :
    items.foldlM (fun assembly item => compilePair (pair item) assembly) assembly =
      Expr.compileAll (items.flatMap fun item => [(pair item).1, (pair item).2]) assembly := by
  induction items generalizing assembly with
  | nil => rfl
  | cons item items ih =>
      rw [List.foldlM_cons]
      simp only [ih, List.flatMap_cons, List.cons_append, List.nil_append, compileAll]
      rw [compilePair, bind_assoc]

/-- The pairs are compiled in the order of the texts of their keys, and an instruction takes all of
them together. -/
theorem Expr.compile_keyed (items : List (Key × Expr)) (assembly : Assembly) :
    (Expr.keyed items).compile assembly =
      Expr.compileAll ((Key.sorted Prod.fst items).flatMap fun item => [item.1.literal, item.2])
        assembly >>= fun assembly => assembly.emit .hash [items.length * 2] := by
  have hfind : (items.map fun item => (item.1.literal, item.2)).find?
      (fun pair => pair.1.isUnhashable) = none := by
    rw [List.find?_eq_none]
    intro pair hm
    obtain ⟨item, -, rfl⟩ := List.mem_map.mp hm
    rw [Key.isUnhashable_literal]
    exact Bool.false_ne_true
  have hsorted : (Expr.compilePairs (items.map fun item => (item.1.literal, item.2))).mergeSort
      (fun first second => textLe first.1 second.1) =
        (Key.sorted Prod.fst items).map fun item =>
          (item.1.literal.render, compilePair (item.1.literal, item.2)) := by
    rw [compilePairs_eq_map, List.map_map, List.map_mergeSort]
    · rfl
    · intro first _ second _
      rw [Key.render_literal, Key.render_literal]
  rw [keyed, compile, hfind]
  simp only [Assembly.inOrder, hsorted, List.foldlM_map, List.length_map]
  rw [foldlM_compilePair fun item : Key × Expr => (item.1.literal, item.2)]

/-- Pairs with different keys are compiled in the same way, however they are given. -/
theorem Expr.compile_keyed_of_perm {items others : List (Key × Expr)} (h : items.Perm others)
    (hk : (items.map Prod.fst).Nodup) :
    (Expr.keyed others).compile = (Expr.keyed items).compile := by
  have htexts : (items.map fun item => item.1.renderQuoted).Nodup := by
    have hnodup := hk.map fun _ _ => Key.renderQuoted_inj
    rwa [List.map_map] at hnodup
  funext assembly
  rw [compile_keyed, compile_keyed, Key.sorted, Key.sorted, sortedBy_of_perm _ h htexts,
    h.length_eq]

end StackScript
