import StackScript.Proofs.Core.Resolve
import StackScript.Proofs.Value.Entries

/-!
# Constant expressions

An expression without names comes to its value by operations on constants alone: resolving it leaves
the scope as it was, and what it computes depends on nothing around it.
-/

namespace StackScript

namespace Core

/-- The value that an expression comes to by operations on constants. -/
inductive Expr.Computes : Expr → Value → Prop
  | integer (value : Int64) : Computes (.integer value) (.integer value)
  | text (value : String) : Computes (.text value) (.text value)
  | boolean (value : Bool) : Computes (.boolean value) (.boolean value)
  | unary {op : Unary} {argument : Expr} {value result : Value} (h : Computes argument value)
    (hr : op.apply value = .ok result) : Computes (.unary op argument) result
  | binary {op : Binary} {left right : Expr} {first second result : Value}
    (hl : Computes left first) (hs : Computes right second)
    (hr : op.apply first second = .ok result) : Computes (.binary op left right) result
  | collect {kind : Collection} {parts : List (Expr × Value)} {result : Value}
    (h : ∀ part ∈ parts, Computes part.1 part.2)
    (hr : kind.apply (parts.map Prod.snd) = .ok result) :
    Computes (.collect kind (parts.map Prod.fst)) result

end Core

namespace ValueOver

/-- Keys and values in turn are taken together as the entries that they come from. -/
theorem pairUp_flatMap (entries : List (Key × ValueOver C)) :
    pairUp (entries.flatMap fun entry => [ofKey entry.1, entry.2]) = .ok entries := by
  induction entries with
  | nil => rfl
  | cons entry entries ih =>
      simp [pairUp, ih, bind, Except.bind, pure, Except.pure]

/-- A hash is made of keys and values in turn, in whatever order its entries come. -/
theorem hashOf_flatMap {given entries : List (Key × ValueOver C)} (h : InOrder entries)
    (hp : given.Perm entries) :
    hashOf (given.flatMap fun entry => [ofKey entry.1, entry.2]) = .ok (.hash entries) := by
  rw [hashOf, pairUp_flatMap, ← ofEntries_of_perm h hp]
  rfl

end ValueOver

namespace Core.Expr.Computes

theorem array {items : List α} {core : α → Expr} {value : α → Value}
    (h : ∀ item ∈ items, Computes (core item) (value item)) :
    Computes (.collect .array (items.map core)) (.array (items.map value)) := by
  have hparts : ∀ part ∈ items.map fun item => (core item, value item),
      Computes part.1 part.2 := by
    simpa using h
  have hresult : Collection.array.apply
      ((items.map fun item => (core item, value item)).map Prod.snd) =
        .ok (.array (items.map value)) := by
    simp [Collection.apply]
  have hcomputes := collect hparts hresult
  rw [List.map_map] at hcomputes
  exact hcomputes

/-- Keys and values in turn come to the hash of their entries, in whatever order these are. -/
theorem hash {items : List α} {cores : α → Expr × Expr} {held : α → Key × Value}
    (h : ∀ item ∈ items, Computes (cores item).1 (.ofKey (held item).1) ∧
      Computes (cores item).2 (held item).2)
    {entries : List (Key × Value)} (ho : InOrder entries) (hp : (items.map held).Perm entries) :
    Computes (.collect .hash (items.flatMap fun item => [(cores item).1, (cores item).2]))
      (.hash entries) := by
  let parts := items.flatMap fun item =>
    [((cores item).1, ValueOver.ofKey (held item).1), ((cores item).2, (held item).2)]
  have hparts : ∀ part ∈ parts, Computes part.1 part.2 := by
    intro part hm
    obtain ⟨item, hitem, hpart⟩ := List.mem_flatMap.mp hm
    simp only [List.mem_cons, List.not_mem_nil, or_false] at hpart
    obtain ⟨hkey, hvalue⟩ := h item hitem
    rcases hpart with rfl | rfl
    · exact hkey
    · exact hvalue
  have hresult : Collection.hash.apply (parts.map Prod.snd) = .ok (.hash entries) := by
    have hvalues := ValueOver.hashOf_flatMap ho hp
    rw [List.flatMap_map] at hvalues
    rw [List.map_flatMap]
    exact hvalues
  have hcomputes := collect hparts hresult
  rw [List.map_flatMap] at hcomputes
  exact hcomputes

end Core.Expr.Computes

/-- Resolving an expression gives this one in every scope, and leaves the scope as it was. -/
def Expr.ResolvesTo (expr : Expr) (core : Core.Expr) : Prop :=
  ∀ scope, expr.resolve scope = .ok (core, scope)

namespace Expr.ResolvesTo

variable {items : List α}

theorem negate {argument : Expr} {core : Core.Expr} (h : argument.ResolvesTo core) :
    (Expr.unary .minus argument).ResolvesTo (.unary .negate core) := by
  intro scope
  rw [Expr.resolve, h scope]
  rfl

/-- The operands of every operator but the one with its operands exchanged keep their places. -/
theorem binary {op : BinaryOp} (hop : op ≠ .less) {left right : Expr} {first second : Core.Expr}
    (hl : left.ResolvesTo first) (hr : right.ResolvesTo second) :
    (Expr.binary op left right).ResolvesTo (.binary op.operation first second) := by
  intro scope
  rw [Expr.resolve, hl scope]
  · simp only [bind, Except.bind, hr scope]
    rfl
  · exact hop

theorem all {expr : α → Expr} {core : α → Core.Expr}
    (h : ∀ item ∈ items, (expr item).ResolvesTo (core item)) (scope : Scope) :
    Expr.resolveAll (items.map expr) scope = .ok (items.map core, scope) := by
  induction items with
  | nil => rfl
  | cons item items ih =>
      rw [List.forall_mem_cons] at h
      simp [Expr.resolveAll, h.1 scope, ih h.2, bind, Except.bind, pure, Except.pure]

theorem array {expr : α → Expr} {core : α → Core.Expr}
    (h : ∀ item ∈ items, (expr item).ResolvesTo (core item)) :
    (Expr.array (items.map expr)).ResolvesTo (.collect .array (items.map core)) := by
  intro scope
  rw [Expr.resolve, all h scope]
  rfl

variable {exprs : α → Expr × Expr} {cores : α → Core.Expr × Core.Expr}

/-- Pairs resolve to keys and values in turn. -/
theorem inTurn (h : ∀ item ∈ items, (exprs item).1.ResolvesTo (cores item).1 ∧
      (exprs item).2.ResolvesTo (cores item).2) (scope : Scope) :
    Scope.inTurn (items.map fun item => Expr.resolvePair (exprs item)) scope =
      .ok (items.flatMap fun item => [(cores item).1, (cores item).2], scope) := by
  induction items with
  | nil => rfl
  | cons item items ih =>
      rw [List.forall_mem_cons] at h
      obtain ⟨⟨hkey, hvalue⟩, hrest⟩ := h
      simp [Scope.inTurn, Expr.resolvePair, hkey scope, hvalue scope, ih hrest, bind, Except.bind,
        pure, Except.pure]

/-- The operands of a hash literal are in the order of the text of its keys. -/
theorem hash (hk : ∀ item ∈ items, (exprs item).1.isUnhashable = false)
    (h : ∀ item ∈ items, (exprs item).1.ResolvesTo (cores item).1 ∧
      (exprs item).2.ResolvesTo (cores item).2) :
    (Expr.hash (items.map exprs)).ResolvesTo (.collect .hash
      ((items.mergeSort fun first second =>
        textLe (exprs first).1.render (exprs second).1.render).flatMap
          fun item => [(cores item).1, (cores item).2])) := by
  intro scope
  let keyed := fun item => ((exprs item).1.render, Expr.resolvePair (exprs item))
  let sorted := items.mergeSort fun first second =>
    textLe (exprs first).1.render (exprs second).1.render
  have hfind : (items.map exprs).find? (fun pair => pair.1.isUnhashable) = none := by
    rw [List.find?_eq_none]
    simpa using hk
  have hsorted : (Expr.resolvePairs (items.map exprs)).mergeSort (fun a b => textLe a.1 b.1) =
      sorted.map keyed := by
    rw [Expr.resolvePairs_eq_map, List.map_map]
    exact (List.map_mergeSort (f := keyed) fun _ _ _ _ => rfl).symm
  have hmem : ∀ item ∈ sorted, (exprs item).1.ResolvesTo (cores item).1 ∧
      (exprs item).2.ResolvesTo (cores item).2 :=
    fun item hm => h item (List.mem_mergeSort.mp hm)
  rw [Expr.resolve, hfind]
  simp only [hsorted, List.map_map]
  exact congrArg (· >>= _) (inTurn hmem scope)

end Expr.ResolvesTo

end StackScript
