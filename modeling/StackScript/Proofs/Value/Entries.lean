import StackScript.Value.Basic

/-!
# Entries in order

Putting entries in one after the other keeps them in the order of their keys. Entries in order are
determined by which entries they are, so that a hash can be made of its own entries in whatever order
they are given.
-/

namespace StackScript

namespace Key

theorem not_before_self (key : Key) : key.before key = false := by
  cases key with
  | integer value => simp [before, Int64.lt_irrefl]
  | boolean value => cases value <;> rfl
  | text value => simp [before]

theorem before_trans {first second third : Key} (h : first.before second = true)
    (h' : second.before third = true) : first.before third = true := by
  cases first <;> cases second <;> cases third
  case integer.integer.integer =>
      simp only [before, decide_eq_true_eq] at h h' ⊢
      exact Int64.lt_trans h h'
  case boolean.boolean.boolean =>
      simp only [before, Bool.and_eq_true, Bool.not_eq_true'] at h h' ⊢
      exact ⟨h.1, h'.2⟩
  case text.text.text =>
      simp only [before, decide_eq_true_eq] at h h' ⊢
      exact String.lt_trans h h'
  all_goals simp_all [before]

theorem before_asymm {first second : Key} (h : first.before second = true) :
    second.before first = false := by
  cases hs : second.before first with
  | false => rfl
  | true => exact absurd (before_trans h hs) (by simp [not_before_self])

/-- Of two keys one comes first. -/
theorem before_of_ne {first second : Key} (hn : second ≠ first)
    (h : first.before second = false) : second.before first = true := by
  cases first <;> cases second
  case integer.integer m n =>
      simp only [before, decide_eq_false_iff_not, decide_eq_true_eq, ne_eq, integer.injEq] at h hn ⊢
      exact (Int64.lt_or_lt_of_ne hn).resolve_right h
  case boolean.boolean b c => cases b <;> cases c <;> simp_all [before]
  case text.text s t =>
      simp only [before, decide_eq_false_iff_not, decide_eq_true_eq, ne_eq, text.injEq] at h hn ⊢
      exact String.not_le.mp fun hle => hn (String.le_antisymm (String.not_lt.mp h) hle)
  all_goals simp_all [before]

end Key

theorem mem_insertEntry {key : Key} {value : V} {entries : List (Key × V)} {entry : Key × V}
    (h : entry ∈ insertEntry key value entries) : entry = (key, value) ∨ entry ∈ entries := by
  induction entries with
  | nil => exact .inl (List.mem_singleton.mp h)
  | cons first entries ih =>
      obtain ⟨other, old⟩ := first
      rw [insertEntry] at h
      split at h
      case isTrue =>
          rcases List.mem_cons.mp h with rfl | hm
          · exact .inl rfl
          · exact .inr (List.mem_cons_of_mem _ hm)
      case isFalse =>
          split at h
          case isTrue => exact List.mem_cons.mp h
          case isFalse =>
              rcases List.mem_cons.mp h with rfl | hm
              · exact .inr List.mem_cons_self
              · exact (ih hm).imp_right (List.mem_cons_of_mem _)

/-- The keys of entries come one before the other. -/
def InOrder (entries : List (Key × V)) : Prop :=
  entries.Pairwise fun first second => first.1.before second.1 = true

instance (entries : List (Key × V)) : Decidable (InOrder entries) :=
  inferInstanceAs (Decidable (entries.Pairwise _))

namespace InOrder

/-- An entry is put in where its key belongs. -/
theorem insertEntry {entries : List (Key × V)} (h : InOrder entries) (key : Key) (value : V) :
    InOrder (insertEntry key value entries) := by
  induction entries with
  | nil => exact List.pairwise_singleton _ _
  | cons first entries ih =>
      obtain ⟨other, old⟩ := first
      obtain ⟨hfirst, hothers⟩ := List.pairwise_cons.mp h
      rw [StackScript.insertEntry]
      split
      case isTrue heq =>
          subst heq
          exact List.pairwise_cons.mpr ⟨hfirst, hothers⟩
      case isFalse hne =>
          split
          case isTrue hbefore =>
              refine List.pairwise_cons.mpr ⟨fun entry hm => ?_, h⟩
              rcases List.mem_cons.mp hm with rfl | hm
              · exact hbefore
              · exact Key.before_trans hbefore (hfirst entry hm)
          case isFalse hafter =>
              refine List.pairwise_cons.mpr ⟨fun entry hm => ?_, ih hothers⟩
              rcases mem_insertEntry hm with rfl | hm
              · exact Key.before_of_ne hne (Bool.eq_false_iff.mpr hafter)
              · exact hfirst entry hm

/-- However entries are put in, they are in order. -/
theorem foldl_insertEntry (given : List (Key × V)) {held : List (Key × V)} (h : InOrder held) :
    InOrder (given.foldl (fun held entry => StackScript.insertEntry entry.1 entry.2 held) held) := by
  induction given generalizing held with
  | nil => exact h
  | cons entry given ih => exact ih (h.insertEntry entry.1 entry.2)

/-- Entries in order have different keys. -/
theorem nodup_keys {entries : List (Key × V)} (h : InOrder entries) :
    (entries.map Prod.fst).Nodup := by
  refine List.pairwise_map.mpr (h.imp fun {first second} hbefore heq => ?_)
  rw [heq, Key.not_before_self] at hbefore
  cases hbefore

/-- Entries in order are determined by which entries they are. -/
theorem eq_of_perm {entries others : List (Key × V)} (h : InOrder entries) (ho : InOrder others)
    (hp : entries.Perm others) : entries = others := by
  refine hp.eq_of_pairwise (fun first second _ _ hbefore hafter => ?_) h ho
  rw [Key.before_asymm hbefore] at hafter
  cases hafter

end InOrder

/-- An entry with a new key comes in addition to the others. -/
theorem perm_insertEntry {key : Key} {entries : List (Key × V)} (value : V)
    (h : key ∉ entries.map Prod.fst) :
    (insertEntry key value entries).Perm ((key, value) :: entries) := by
  induction entries with
  | nil => exact .refl _
  | cons first entries ih =>
      obtain ⟨other, old⟩ := first
      rw [List.map_cons, List.mem_cons, not_or] at h
      rw [insertEntry, if_neg fun heq => h.1 heq.symm]
      split
      case isTrue => exact .refl _
      case isFalse => exact ((ih h.2).cons _).trans (.swap _ _ _)

theorem perm_foldl_insertEntry (given : List (Key × V)) {held : List (Key × V)}
    (h : ((held ++ given).map Prod.fst).Nodup) :
    (given.foldl (fun held entry => insertEntry entry.1 entry.2 held) held).Perm
      (held ++ given) := by
  induction given generalizing held with
  | nil => rw [List.append_nil]; exact .refl _
  | cons entry given ih =>
      have hmiddle : (held ++ entry :: given).Perm (entry :: held ++ given) := List.perm_middle
      have hnodup : ((entry :: held ++ given).map Prod.fst).Nodup :=
        (hmiddle.map Prod.fst).nodup_iff.mp h
      have hnew : entry.1 ∉ held.map Prod.fst := by
        rw [List.cons_append, List.map_cons, List.map_append, List.nodup_cons, List.mem_append,
          not_or] at hnodup
        exact hnodup.1.1
      have hput : (insertEntry entry.1 entry.2 held ++ given).Perm (entry :: held ++ given) :=
        (perm_insertEntry entry.2 hnew).append_right given
      exact (ih ((hput.map Prod.fst).nodup_iff.mpr hnodup)).trans (hput.trans hmiddle.symm)

theorem lookup_insertEntry_of_ne {key other : Key} (h : other ≠ key) (value : V)
    (entries : List (Key × V)) : (insertEntry key value entries).lookup other = entries.lookup other := by
  have hne : (other == key) = false := by simpa using h
  induction entries with
  | nil => simp [insertEntry, List.lookup_cons, hne]
  | cons first entries ih =>
      obtain ⟨held, old⟩ := first
      rw [insertEntry]
      split
      case isTrue heq =>
          subst heq
          simp [List.lookup_cons, hne]
      case isFalse =>
          split
          case isTrue => simp [List.lookup_cons, hne]
          case isFalse => rw [List.lookup_cons, List.lookup_cons, ih]

/-- Of the entries with one key, the last one that was put in is found. -/
theorem lookup_foldl_insertEntry (key : Key) (given held : List (Key × V)) :
    (given.foldl (fun held entry => insertEntry entry.1 entry.2 held) held).lookup key =
      ((given.filter fun entry => entry.1 = key).getLast?.map Prod.snd).or (held.lookup key) := by
  induction given generalizing held with
  | nil => rfl
  | cons entry given ih =>
      rw [List.foldl_cons, ih]
      by_cases hkey : entry.1 = key
      · subst hkey
        rw [lookup_insertEntry, List.filter_cons_of_pos (by simp), List.getLast?_cons]
        cases (given.filter fun other => other.1 = entry.1).getLast? <;> rfl
      · rw [lookup_insertEntry_of_ne (Ne.symm hkey), List.filter_cons_of_neg (by simpa using hkey)]

namespace ValueOver

variable {given entries : List (Key × ValueOver C)}

/-- Entries with different keys are those of the hash that is made of them, which holds them in
order. -/
theorem exists_ofEntries (hn : (given.map Prod.fst).Nodup) :
    ∃ entries, InOrder entries ∧ given.Perm entries ∧ ofEntries given = .hash entries := by
  have hnodup : (([] ++ given).map Prod.fst).Nodup := hn
  exact ⟨_, InOrder.foldl_insertEntry given List.Pairwise.nil,
    (perm_foldl_insertEntry given hnodup).symm, rfl⟩

/-- A hash is made of its entries in whatever order they are given. -/
theorem ofEntries_of_perm (h : InOrder entries) (hp : given.Perm entries) :
    ofEntries given = .hash entries := by
  obtain ⟨held, hheld, hperm, heq⟩ :=
    exists_ofEntries ((hp.map Prod.fst).nodup_iff.mpr h.nodup_keys)
  rw [heq, hheld.eq_of_perm h (hperm.symm.trans hp)]

end ValueOver

end StackScript
