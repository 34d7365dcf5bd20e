import StackScript.Proofs.Value.Entries
import StackScript.Proofs.Value.Related
import StackScript.Proofs.Value.Sorting

/-!
# The text of a hash and the order of its entries

The entries of a hash are shown in the order of the texts of their keys. That makes the text of a
value independent of the orders in which the hashes in it enumerate their entries, unless two keys of
one hash have the same text: `1` and `"1"` are sorted as equal, but they are not shown as equal.
-/

namespace StackScript

namespace ValueOver

/-- Two values are the same but for the orders in which the hashes in them enumerate their
entries. -/
inductive Rearranged : ValueOver C → ValueOver C → Prop
  | refl (value : ValueOver C) : Rearranged value value
  | array {pairs : List (ValueOver C × ValueOver C)} (h : ∀ pair ∈ pairs, Rearranged pair.1 pair.2) :
    Rearranged (.array (pairs.map Prod.fst)) (.array (pairs.map Prod.snd))
  | hash {pairs : List (Key × ValueOver C × ValueOver C)} {others : List (Key × ValueOver C)}
    (h : ∀ pair ∈ pairs, Rearranged pair.2.1 pair.2.2)
    (hp : (pairs.map fun pair => (pair.1, pair.2.2)).Perm others) :
    Rearranged (.hash (pairs.map fun pair => (pair.1, pair.2.1))) (.hash others)
  | closure (fn : FunctionOver C) {pairs : List (ValueOver C × ValueOver C)}
    (h : ∀ pair ∈ pairs, Rearranged pair.1 pair.2) :
    Rearranged (.closure fn (pairs.map Prod.fst)) (.closure fn (pairs.map Prod.snd))

mutual

/-- The value with the entries of all hashes in it as a hash holds that is made of them. -/
def ordered : ValueOver C → ValueOver C
  | array elements => array (orderedAll elements)
  | hash entries => ofEntries (orderedEntries entries)
  | closure fn free => closure fn (orderedAll free)
  | null => null
  | integer value => integer value
  | boolean value => boolean value
  | text value => text value
  | builtin b => builtin b
  | function fn => function fn

/-- Several values, each with the entries of its hashes in order. -/
def orderedAll : List (ValueOver C) → List (ValueOver C)
  | [] => []
  | value :: values => value.ordered :: orderedAll values

/-- Several entries, each with the entries of the hashes in its value in order. -/
def orderedEntries : List (Key × ValueOver C) → List (Key × ValueOver C)
  | [] => []
  | (key, value) :: entries => (key, value.ordered) :: orderedEntries entries

end

theorem ordered_array (elements : List (ValueOver C)) :
    (array elements).ordered = array (elements.map ordered) := by
  rw [ordered]
  congr 1
  induction elements with
  | nil => rfl
  | cons value values ih => rw [orderedAll, ih, List.map_cons]

theorem ordered_hash (entries : List (Key × ValueOver C)) :
    (hash entries).ordered = ofEntries (entries.map fun entry => (entry.1, entry.2.ordered)) := by
  rw [ordered]
  congr 1
  induction entries with
  | nil => rfl
  | cons entry entries ih => rw [orderedEntries, ih, List.map_cons]

theorem Rearranged.array_ordered {elements : List (ValueOver C)}
    (h : ∀ element ∈ elements, Rearranged element element.ordered) :
    Rearranged (.array elements) (ordered (.array elements)) := by
  have hpairs : ∀ pair ∈ elements.map fun element => (element, element.ordered),
      Rearranged pair.1 pair.2 := List.forall_mem_map.mpr h
  have hrearranged := Rearranged.array hpairs
  rw [List.map_map, List.map_map] at hrearranged
  rw [ordered_array]
  simpa [Function.comp_def] using hrearranged

/-- A hash whose keys are different is rearranged when its entries are put in order. -/
theorem Rearranged.hash_ordered {entries : List (Key × ValueOver C)}
    (hn : (entries.map Prod.fst).Nodup)
    (h : ∀ entry ∈ entries, Rearranged entry.2 entry.2.ordered) :
    Rearranged (.hash entries) (ordered (.hash entries)) := by
  let triples := entries.map fun entry => (entry.1, entry.2, entry.2.ordered)
  have htriples : ∀ triple ∈ triples, Rearranged triple.2.1 triple.2.2 := List.forall_mem_map.mpr h
  have hkeys : ((entries.map fun entry => (entry.1, entry.2.ordered)).map Prod.fst).Nodup := by
    rwa [List.map_map]
  obtain ⟨held, -, hperm, heq⟩ := exists_ofEntries hkeys
  have hheld : (triples.map fun triple => (triple.1, triple.2.2)).Perm held := by
    rwa [List.map_map]
  have hrearranged := Rearranged.hash htriples hheld
  rw [List.map_map] at hrearranged
  rw [ordered_hash, heq]
  simpa [Function.comp_def] using hrearranged

theorem anyHasTwinKeys_eq_any (values : List (ValueOver C)) :
    anyHasTwinKeys values = values.any hasTwinKeys := by
  induction values with
  | nil => rfl
  | cons value values ih => rw [anyHasTwinKeys, ih, List.any_cons]

theorem anyEntryHasTwinKeys_eq_any (entries : List (Key × ValueOver C)) :
    anyEntryHasTwinKeys entries = entries.any fun entry => entry.2.hasTwinKeys := by
  induction entries with
  | nil => rfl
  | cons entry entries ih => rw [anyEntryHasTwinKeys, ih, List.any_cons]

/-- The keys of a hash without twin keys have different texts, and no value in it has twin keys. -/
theorem hasTwinKeys_hash_eq_false {entries : List (Key × ValueOver C)} :
    (hash entries).hasTwinKeys = false ↔
      (entries.map fun entry => entry.1.render).Nodup ∧
        ∀ entry ∈ entries, entry.2.hasTwinKeys = false := by
  rw [hasTwinKeys, anyEntryHasTwinKeys_eq_any]
  simp

theorem hasTwinKeys_array_eq_false {elements : List (ValueOver C)} :
    (array elements).hasTwinKeys = false ↔ ∀ element ∈ elements, element.hasTwinKeys = false := by
  rw [hasTwinKeys, anyHasTwinKeys_eq_any]
  simp

/-- Texts whose keys differ are sorted in the same way, however they are given. -/
theorem sortedTexts_of_perm {keyed others : List (String × String)} (hp : keyed.Perm others)
    (hn : (keyed.map Prod.fst).Nodup) : sortedTexts keyed = sortedTexts others :=
  congrArg (List.map Prod.snd) (sortedBy_of_perm Prod.fst hp hn)

theorem Rearranged.renderWith_eq {value other : ValueOver C} (h : value.Rearranged other)
    (ht : value.hasTwinKeys = false) (quoted : Bool) :
    value.renderWith quoted = other.renderWith quoted := by
  induction h generalizing quoted with
  | refl => rfl
  | closure fn => rw [renderWith_closure, renderWith_closure]
  | @array pairs _ ih =>
      rw [hasTwinKeys_array_eq_false, List.forall_mem_map] at ht
      have hsame : (pairs.map Prod.fst).map renderNested = (pairs.map Prod.snd).map renderNested := by
        rw [List.map_map, List.map_map]
        exact List.map_congr_left fun pair hm => ih pair hm (ht pair hm) true
      rw [renderWith_array, renderWith_array, renderElements_eq_map, renderElements_eq_map, hsame]
  | @hash pairs others _ hp ih =>
      rw [hasTwinKeys_hash_eq_false, List.forall_mem_map] at ht
      obtain ⟨hn, ht⟩ := ht
      have hsame : renderEntries (pairs.map fun pair => (pair.1, pair.2.1)) =
          renderEntries (pairs.map fun pair => (pair.1, pair.2.2)) := by
        rw [renderEntries_eq_map, renderEntries_eq_map, List.map_map, List.map_map]
        refine List.map_congr_left fun pair hm => ?_
        have hvalue := ih pair hm (ht pair hm) true
        simp only [Function.comp_apply, renderNested, hvalue]
      have hperm : (renderEntries (pairs.map fun pair => (pair.1, pair.2.2))).Perm
          (renderEntries others) := by
        rw [renderEntries_eq_map, renderEntries_eq_map]
        exact hp.map _
      have hkeys : ((renderEntries (pairs.map fun pair => (pair.1, pair.2.2))).map
          Prod.fst).Nodup := by
        rw [renderEntries_eq_map, List.map_map, List.map_map]
        rwa [List.map_map] at hn
      rw [renderWith_hash, renderWith_hash, hsame, sortedTexts_of_perm hperm hkeys]

/-- The text of a value does not depend on the orders in which the hashes in it enumerate their
entries, if no two keys of a hash have the same text. -/
theorem render_eq_of_rearranged {value other : ValueOver C} (h : value.Rearranged other)
    (ht : value.hasTwinKeys = false) : value.render = other.render :=
  h.renderWith_eq ht false

/-- Keys of all three types, and a hash in a hash, both with their entries exchanged. -/
theorem render_eq_of_rearranged_mixed :
    let inner : Value := .hash [(.integer 3, .null), (.text "b", .boolean true)]
    let turned : Value := .hash [(.text "b", .boolean true), (.integer 3, .null)]
    let value : Value := .hash [(.integer 1, inner), (.boolean true, .null), (.text "a", .null)]
    let other : Value := .hash [(.text "a", .null), (.integer 1, turned), (.boolean true, .null)]
    value.Rearranged other ∧ value.hasTwinKeys = false ∧ value.render = other.render := by
  intro inner turned value other
  have hinner : inner.Rearranged turned := by
    refine @Rearranged.hash _ [(.integer 3, .null, .null),
      (.text "b", .boolean true, .boolean true)] _ ?_ (.swap _ _ _)
    simp only [List.forall_mem_cons, List.not_mem_nil, false_implies, implies_true, and_true]
    exact ⟨.refl _, .refl _⟩
  have houter : value.Rearranged other := by
    refine @Rearranged.hash _ [(.integer 1, inner, turned), (.boolean true, .null, .null),
      (.text "a", .null, .null)] _ ?_ ?_
    · simp only [List.forall_mem_cons, List.not_mem_nil, false_implies, implies_true, and_true]
      exact ⟨hinner, .refl _, .refl _⟩
    · exact (List.Perm.swap _ _ _).cons _ |>.trans (.swap _ _ _)
  have htwins : value.hasTwinKeys = false := by decide
  exact ⟨houter, htwins, render_eq_of_rearranged houter htwins⟩

/-- Entries whose keys have the same text are shown as they are enumerated. -/
theorem renderWith_hash_of_same_text (quoted : Bool) {entries : List (Key × ValueOver C)}
    (h : (renderEntries entries).Pairwise fun first second => first.1 = second.1) :
    (hash entries).renderWith quoted =
      "\x7b" ++ String.intercalate ", " ((renderEntries entries).map Prod.snd) ++ "\x7d" := by
  have hsorted : (renderEntries entries).Pairwise
      fun first second => textLe first.1 second.1 = true :=
    h.imp fun heq => textLe_iff.mpr (heq ▸ String.le_refl _)
  rw [renderWith_hash, sortedTexts, List.mergeSort_of_pairwise hsorted]

/-- The keys `32` and `"32"` have the same text, so that the text of a hash with both of them depends
on the order in which it enumerates them. -/
theorem render_ne_of_twin_keys :
    let entries : List (Key × Value) := [(.integer 32, .integer 1), (.text "32", .integer 2)]
    let others : List (Key × Value) := [(.text "32", .integer 2), (.integer 32, .integer 1)]
    (hash entries).Rearranged (hash others) ∧ (hash entries).render ≠ (hash others).render := by
  intro entries others
  constructor
  · refine @Rearranged.hash _ [(.integer 32, .integer 1, .integer 1),
      (.text "32", .integer 2, .integer 2)] _ ?_ (.swap _ _ _)
    simp only [List.forall_mem_cons, List.not_mem_nil, false_implies, implies_true, and_true]
    exact ⟨.refl _, .refl _⟩
  · rw [render, renderWith_hash_of_same_text false (by decide +kernel), render,
      renderWith_hash_of_same_text false (by decide +kernel)]
    decide +kernel

end ValueOver

end StackScript
