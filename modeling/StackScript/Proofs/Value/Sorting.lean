import Mathlib.Data.List.Nodup
import Mathlib.Data.List.Perm.Basic
import StackScript.Value.Printer

/-!
# Sorting by text

Items are sorted by a text of theirs. The order is total, so that items with different texts come in
the same order however they are given; the sort is stable, so that items with the same text stay in
the order in which they are given.
-/

namespace StackScript

theorem textLe_iff {s t : String} : textLe s t = true ↔ s ≤ t := by
  rw [textLe, Bool.not_eq_true', decide_eq_false_iff_not, String.not_lt]

theorem textLe_trans (s t u : String) (h : textLe s t = true) (h' : textLe t u = true) :
    textLe s u = true :=
  textLe_iff.mpr (String.le_trans (textLe_iff.mp h) (textLe_iff.mp h'))

theorem textLe_total (s t : String) : (textLe s t || textLe t s) = true := by
  simpa [textLe_iff] using String.le_total s t

theorem textLe_antisymm {s t : String} (h : textLe s t = true) (h' : textLe t s = true) : s = t :=
  String.le_antisymm (textLe_iff.mp h) (textLe_iff.mp h')

/-- The items in the order of their texts. -/
abbrev sortedBy (text : α → String) (items : List α) : List α :=
  items.mergeSort fun first second => textLe (text first) (text second)

section

variable (text : α → String) {items others : List α}

theorem pairwise_sortedBy (items : List α) :
    (sortedBy text items).Pairwise fun first second => textLe (text first) (text second) = true :=
  List.pairwise_mergeSort
    (fun first second third => textLe_trans (text first) (text second) (text third))
    (fun first second => textLe_total (text first) (text second)) items

/-- Items with different texts come in the same order, however they are given. -/
theorem sortedBy_of_perm (hp : items.Perm others) (hn : (items.map text).Nodup) :
    sortedBy text items = sortedBy text others := by
  have hperm : (sortedBy text items).Perm (sortedBy text others) :=
    (List.mergeSort_perm _ _).trans (hp.trans (List.mergeSort_perm _ _).symm)
  refine hperm.eq_of_pairwise (fun first second hfirst hsecond hle hge => ?_)
    (pairwise_sortedBy text items) (pairwise_sortedBy text others)
  have hfirst : first ∈ items := List.mem_mergeSort.mp hfirst
  have hsecond : second ∈ items := hp.mem_iff.mpr (List.mem_mergeSort.mp hsecond)
  exact List.inj_on_of_nodup_map hn hfirst hsecond (textLe_antisymm hle hge)

/-- Items with the same text stay in the order in which they are given. -/
theorem filter_sortedBy (items : List α) (t : String) :
    (sortedBy text items).filter (fun item => text item = t) =
      items.filter fun item => text item = t := by
  have htext : ∀ item ∈ items.filter fun item => text item = t, text item = t := by
    intro item hm
    simpa using (List.mem_filter.mp hm).2
  have hsorted : (items.filter fun item => text item = t).Pairwise
      fun first second => textLe (text first) (text second) = true := by
    refine List.pairwise_of_forall_mem_list fun first hfirst second hsecond => ?_
    rw [htext first hfirst, htext second hsecond]
    exact textLe_iff.mpr (String.le_refl t)
  have hsub : (items.filter fun item => text item = t).Sublist (sortedBy text items) :=
    List.sublist_mergeSort
      (fun first second third => textLe_trans (text first) (text second) (text third))
      (fun first second => textLe_total (text first) (text second)) hsorted List.filter_sublist
  have hkept : (items.filter fun item => text item = t).Sublist
      ((sortedBy text items).filter fun item => text item = t) := by
    simpa using hsub.filter fun item => decide (text item = t)
  have hlength := ((List.mergeSort_perm items
    fun first second => textLe (text first) (text second)).filter fun item =>
      decide (text item = t)).length_eq
  exact (hkept.eq_of_length hlength.symm).symm

/-- Sorting is done before or after the items are turned into others with the same texts. -/
theorem map_sortedBy {other : β → String} (f : β → α) {given : List β}
    (h : ∀ item ∈ given, other item = text (f item)) :
    (sortedBy other given).map f = sortedBy text (given.map f) :=
  List.map_mergeSort fun first hfirst second hsecond => by rw [h first hfirst, h second hsecond]

/-- Items that carry different marks are the same if their marks are. -/
theorem eq_of_map_eq_of_perm (mark : α → β) (h : items.map mark = others.map mark)
    (hp : items.Perm others) (hn : (others.map mark).Nodup) : items = others := by
  have hlength : items.length = others.length := hp.length_eq
  refine List.ext_getElem hlength fun k hk hk' => ?_
  refine List.inj_on_of_nodup_map hn (hp.mem_iff.mp (List.getElem_mem hk)) (List.getElem_mem hk') ?_
  have hmark := congrArg (fun marks => marks[k]?) h
  simpa [List.getElem?_eq_getElem hk, List.getElem?_eq_getElem hk'] using hmark

/-- What is known of sorted items, one by one, is known of the items as they are given. -/
theorem exists_of_map_eq_sortedBy (f : β → α) {sorted : List β}
    (h : sorted.map f = sortedBy text items) :
    ∃ given : List β, given.map f = items ∧ sortedBy (fun item => text (f item)) given = sorted := by
  -- Items with the same text are told apart by their places.
  let placed := sortedBy (fun item : α × Nat => text item.1) items.zipIdx
  have hplaced : placed.map Prod.fst = sortedBy text items := by
    rw [map_sortedBy text Prod.fst fun _ _ => rfl, List.zipIdx_map_fst]
  have hlength : placed.length = sorted.length := by
    have hmaps := congrArg List.length (hplaced.trans h.symm)
    simpa using hmaps
  let known := placed.zip sorted
  have hfst : known.map Prod.fst = placed := List.map_fst_zip (Nat.le_of_eq hlength)
  have hsnd : known.map Prod.snd = sorted := List.map_snd_zip (Nat.le_of_eq hlength.symm)
  have hknown : ∀ item ∈ known, f item.2 = item.1.1 := by
    refine List.map_inj_left.mp ?_
    rw [← Function.comp_def f, ← List.map_map, hsnd, h, ← hplaced, ← hfst, List.map_map]
    rfl
  have hperm : placed.Perm items.zipIdx := List.mergeSort_perm _ _
  have hnodup : (known.map Prod.fst).Nodup := by
    rw [hfst, hperm.nodup_iff]
    exact List.Nodup.of_map Prod.snd (by rw [List.zipIdx_map_snd]; exact List.nodup_range')
  obtain ⟨given, hgiven, hback⟩ : ∃ given : List ((α × Nat) × β),
      given.map Prod.fst = items.zipIdx ∧ given.Perm known := by
    have hforall : List.Forall₂ (fun place item => item.1 = place) placed known := by
      rw [← hfst, List.forall₂_map_left_iff, List.forall₂_same]
      exact fun _ _ => rfl
    obtain ⟨given, hgiven, hback⟩ := List.perm_comp_forall₂ hperm.symm hforall
    refine ⟨given, List.forall₂_eq_eq_eq ▸ ?_, hback⟩
    rw [List.forall₂_map_left_iff]
    exact hgiven.flip
  have hmem : ∀ item ∈ given, f item.2 = item.1.1 := fun item hm => hknown item (hback.mem_iff.mp hm)
  have hsorted : sortedBy (fun item => text (f item.2)) given = known := by
    refine eq_of_map_eq_of_perm Prod.fst ?_ ((List.mergeSort_perm _ _).trans hback) hnodup
    rw [map_sortedBy (fun place : α × Nat => text place.1) Prod.fst fun item hm => by
      rw [hmem item hm], hgiven, hfst]
  refine ⟨given.map Prod.snd, ?_, ?_⟩
  · have hitems : given.map (f ∘ Prod.snd) = given.map (Prod.fst ∘ Prod.fst) :=
      List.map_congr_left hmem
    rw [List.map_map, hitems, ← List.map_map, hgiven, List.zipIdx_map_fst]
  · rw [← hsnd, ← hsorted, map_sortedBy (fun item => text (f item)) Prod.snd fun _ _ => rfl]

end

end StackScript
