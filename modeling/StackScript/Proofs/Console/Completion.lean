import Mathlib.Data.List.Induction
import StackScript.Console.Completion
import StackScript.Proofs.Text.Slice

/-!
# Where words can be completed

The word under the cursor starts behind the last separator. Its start is taken to lie one byte behind
the start of the separator, so that there are completions and hints exactly where this separator has
one byte. Each completion makes a word of the console out of the word under the cursor.
-/

namespace StackScript.Console

/-- The last separator of a text. -/
def lastSeparator? (front : List Char) : Option Char :=
  front.reverse.find? isSeparator

/-- If there is a separator in a text, the last one has one byte. -/
def Narrow (front : List Char) : Prop :=
  ∀ c ∈ lastSeparator? front, c.utf8Size = 1

/-- The word under a cursor at a byte offset, if the line can be cut there and where the word is
taken to start. -/
def wordAt? (line : String) (cursor : Nat) : Option (List Char) :=
  (Text.cutAt? line.toList cursor).bind fun parts => lastWord? parts.1

/-- The word at the end of a text: the whole text, or what stands behind its last separator. -/
inductive EndsWith : (front word : List Char) → Prop
  | alone {word : List Char} (h : ∀ c ∈ word, isSeparator c = false) : EndsWith word word
  | behind (before : List Char) {c : Char} {word : List Char} (hc : isSeparator c = true)
    (h : ∀ c ∈ word, isSeparator c = false) : EndsWith (before ++ c :: word) word

namespace EndsWith

variable {front word : List Char}

theorem append (h : EndsWith front word) {more : List Char}
    (hm : ∀ c ∈ more, isSeparator c = false) : EndsWith (front ++ more) (word ++ more) := by
  cases h with
  | alone h => exact .alone (List.forall_mem_append.mpr ⟨h, hm⟩)
  | behind before hc h =>
      rw [List.append_assoc, List.cons_append]
      exact .behind before hc (List.forall_mem_append.mpr ⟨h, hm⟩)

/-- Every text ends with a word, which may be empty. -/
theorem exists_word (front : List Char) : ∃ word, EndsWith front word := by
  induction front using List.reverseRecOn with
  | nil => exact ⟨[], .alone nofun⟩
  | append_singleton front c ih =>
      cases hc : isSeparator c with
      | true => exact ⟨[], .behind front hc nofun⟩
      | false =>
          obtain ⟨word, hword⟩ := ih
          exact ⟨word ++ [c], hword.append (List.forall_mem_singleton.mpr hc)⟩

end EndsWith

/-! ## The last separator -/

variable {front word : List Char}

theorem find?_reverse_eq_none (h : ∀ c ∈ word, isSeparator c = false) :
    word.reverse.find? isSeparator = none :=
  List.find?_eq_none.mpr fun c hc => by simp [h c (List.mem_reverse.mp hc)]

theorem lastSeparator?_alone (h : ∀ c ∈ word, isSeparator c = false) : lastSeparator? word = none :=
  find?_reverse_eq_none h

theorem lastSeparator?_behind (before : List Char) {c : Char} (hc : isSeparator c = true)
    (h : ∀ c ∈ word, isSeparator c = false) : lastSeparator? (before ++ c :: word) = some c := by
  rw [lastSeparator?, List.reverse_append, List.reverse_cons, List.append_assoc, List.find?_append,
    find?_reverse_eq_none h, Option.none_or, List.singleton_append, List.find?_cons_of_pos hc]

theorem narrow_alone (h : ∀ c ∈ word, isSeparator c = false) : Narrow word := by
  rw [Narrow, lastSeparator?_alone h]
  exact nofun

theorem narrow_behind_iff (before : List Char) {c : Char} (hc : isSeparator c = true)
    (h : ∀ c ∈ word, isSeparator c = false) : Narrow (before ++ c :: word) ↔ c.utf8Size = 1 := by
  rw [Narrow, lastSeparator?_behind before hc h]
  simp

/-! ## The start of the word -/

theorem takeWhile_reverse_append (h : ∀ c ∈ word, isSeparator c = false) (rest : List Char) :
    (word.reverse ++ rest).takeWhile (!isSeparator ·) =
      word.reverse ++ rest.takeWhile (!isSeparator ·) :=
  List.takeWhile_append_of_pos fun c hc => by simp [h c (List.mem_reverse.mp hc)]

theorem wordStart_alone (h : ∀ c ∈ word, isSeparator c = false) : wordStart word = 0 := by
  have htake := takeWhile_reverse_append h []
  rw [List.takeWhile_nil, List.append_nil] at htake
  simp only [wordStart, htake, List.drop_length]

theorem wordStart_behind (before : List Char) {c : Char} (hc : isSeparator c = true)
    (h : ∀ c ∈ word, isSeparator c = false) :
    wordStart (before ++ c :: word) = Text.byteLength before + 1 := by
  have htake : (word.reverse ++ c :: before.reverse).takeWhile (!isSeparator ·) = word.reverse := by
    rw [takeWhile_reverse_append h, List.takeWhile_cons_of_neg (by simp [hc]), List.append_nil]
  have hreverse : (before ++ c :: word).reverse = word.reverse ++ c :: before.reverse := by
    simp
  simp only [wordStart, hreverse, htake, List.drop_left, Text.byteLength_reverse]

/-- The word is never taken to start behind its end. -/
theorem wordStart_le (front : List Char) : wordStart front ≤ Text.byteLength front := by
  obtain ⟨word, hword⟩ := EndsWith.exists_word front
  cases hword with
  | alone h =>
      rw [wordStart_alone h]
      exact Nat.zero_le _
  | @behind before c word hc h =>
      rw [wordStart_behind before hc h, Text.byteLength_append, Text.byteLength_cons]
      have := c.utf8Size_pos
      omega

/-- A line can be cut where the word starts if the separator in front of it has one byte. -/
theorem EndsWith.cutAt?_wordStart (h : EndsWith front word) (hn : Narrow front)
    (back : List Char) : ∃ stem, front = stem ++ word ∧
    Text.cutAt? (front ++ back) (wordStart front) = some (stem, word ++ back) := by
  cases h with
  | alone h =>
      refine ⟨[], rfl, ?_⟩
      rw [wordStart_alone h]
      exact Text.cutAt?_append [] _
  | @behind before c word hc h =>
      rw [narrow_behind_iff before hc h] at hn
      have hlength : Text.byteLength (before ++ [c]) = Text.byteLength before + 1 := by
        rw [Text.byteLength_append, Text.byteLength_cons, hn, Text.byteLength_nil]
      refine ⟨before ++ [c], by simp, ?_⟩
      rw [wordStart_behind before hc h, ← hlength, ← Text.cutAt?_append]
      simp

/-- Otherwise the start of the word is taken to lie inside the separator. -/
theorem cutAt?_wordStart_of_not_narrow (hn : ¬ Narrow front) (back : List Char) :
    Text.cutAt? (front ++ back) (wordStart front) = none := by
  obtain ⟨word, hword⟩ := EndsWith.exists_word front
  cases hword with
  | alone h => exact absurd (narrow_alone h) hn
  | @behind before c word hc h =>
      rw [narrow_behind_iff before hc h] at hn
      have hpos := c.utf8Size_pos
      rw [wordStart_behind before hc h, List.append_assoc, List.cons_append]
      exact Text.cutAt?_inside before (word ++ back) Nat.one_pos (by omega)

theorem isSome_cutAt?_wordStart (front back : List Char) :
    (Text.cutAt? (front ++ back) (wordStart front)).isSome ↔ Narrow front := by
  constructor
  · intro hcut
    by_contra hn
    rw [cutAt?_wordStart_of_not_narrow hn] at hcut
    cases hcut
  · intro hn
    obtain ⟨word, hword⟩ := EndsWith.exists_word front
    obtain ⟨stem, -, hcut⟩ := hword.cutAt?_wordStart hn back
    rw [hcut]
    rfl

theorem EndsWith.lastWord? (h : EndsWith front word) (hn : Narrow front) :
    lastWord? front = some word := by
  obtain ⟨stem, -, hcut⟩ := h.cutAt?_wordStart hn []
  rw [List.append_nil, List.append_nil] at hcut
  rw [Console.lastWord?, hcut]
  rfl

theorem isSome_lastWord? (front : List Char) : (lastWord? front).isSome ↔ Narrow front := by
  have hcut := isSome_cutAt?_wordStart front []
  rwa [List.append_nil, ← Option.isSome_map] at hcut

/-- What is no separator can be added to the word at the end of a text. -/
theorem lastWord?_append {more : List Char} (h : lastWord? front = some word)
    (hm : ∀ c ∈ more, isSeparator c = false) : lastWord? (front ++ more) = some (word ++ more) := by
  have hn : Narrow front := (isSome_lastWord? front).mp (Option.isSome_of_eq_some h)
  obtain ⟨word', hword⟩ := EndsWith.exists_word front
  obtain rfl : word' = word := Option.some.inj ((hword.lastWord? hn).symm.trans h)
  apply (hword.append hm).lastWord?
  cases hword with
  | alone hword => exact narrow_alone (List.forall_mem_append.mpr ⟨hword, hm⟩)
  | behind before hc hword =>
      rw [narrow_behind_iff before hc hword] at hn
      rw [List.append_assoc, List.cons_append]
      exact (narrow_behind_iff before hc (List.forall_mem_append.mpr ⟨hword, hm⟩)).mpr hn

/-! ## Completions -/

/-- No word of the console has a separator in it. -/
theorem isSeparator_words : ∀ candidate ∈ words, ∀ c ∈ candidate.toList, isSeparator c = false := by
  have hall : (words.all fun candidate => candidate.toList.all (!isSeparator ·)) = true := by
    decide +kernel
  simpa using hall

theorem remainder?_eq_some {candidate addition : String}
    (h : remainder? word candidate = some addition) :
    word ++ addition.toList = candidate.toList := by
  unfold remainder? at h
  split at h
  case isTrue hprefix =>
      obtain ⟨more, hmore⟩ := List.isPrefixOf_iff_prefix.mp hprefix
      cases h
      rw [String.toList_ofList, ← hmore, List.drop_left]
  case isFalse => cases h

/-- A completion of a text is a word of the console, and the word at the end of the text becomes this
word. -/
theorem lastWord?_of_mem_completions? {candidates : List (String × String)}
    {candidate addition : String} (h : completions? front = some candidates)
    (hm : (candidate, addition) ∈ candidates) :
    candidate ∈ words ∧ lastWord? (front ++ addition.toList) = some candidate.toList := by
  obtain ⟨word, hword, rfl⟩ := Option.map_eq_some_iff.mp h
  split at hm
  case isTrue => cases hm
  case isFalse =>
      obtain ⟨other, hother, hadded⟩ := List.mem_filterMap.mp hm
      obtain ⟨more, hmore, ⟨⟩⟩ := Option.map_eq_some_iff.mp hadded
      have hgrown : word ++ addition.toList = candidate.toList := remainder?_eq_some hmore
      refine ⟨hother, ?_⟩
      rw [← hgrown]
      apply lastWord?_append hword
      intro c hc
      apply isSeparator_words candidate hother
      rw [← hgrown]
      exact List.mem_append_right _ hc

/-- What the console offers for a line with a cursor between `front` and `back`. -/
structure Offers (line : String) (cursor : Nat) (front back : List Char) : Prop where
  start_le : wordStart front ≤ cursor
  boundary : (Text.cutAt? line.toList (wordStart front)).isSome ↔ Narrow front
  complete : (complete? line cursor).isSome ↔ Narrow front
  hint : (hintAt? line cursor).isSome ↔ (back = [] → Narrow front)
  completed : ∀ completion, complete? line cursor = some completion → completion.start = cursor ∧
    ∀ candidate addition, (candidate, addition) ∈ completion.candidates → candidate ∈ words ∧
      wordAt? (String.ofList (front ++ addition.toList ++ back)) (cursor + addition.utf8ByteSize) =
        some candidate.toList

theorem complete?_eq {line : String} {cursor : Nat} {back : List Char}
    (h : Text.cutAt? line.toList cursor = some (front, back)) :
    complete? line cursor = (completions? front).map fun candidates => ⟨cursor, candidates⟩ := by
  rw [complete?, h]
  exact Option.map_eq_bind.symm

/-- The line can be cut where the word under the cursor is taken to start exactly if the separator in
front of the word, if there is one, has one byte. Then there are completions and hints, and each
completion, put in at the cursor, makes a word of the console out of the word there. -/
theorem offers_of_cutAt? {line : String} {cursor : Nat} {back : List Char}
    (h : Text.cutAt? line.toList cursor = some (front, back)) : Offers line cursor front back := by
  have hline : front ++ back = line.toList := Text.append_of_cutAt? h
  have hcursor : Text.byteLength front = cursor := Text.byteLength_of_cutAt? h
  constructor
  case start_le =>
      rw [← hcursor]
      exact wordStart_le front
  case boundary =>
      rw [← hline]
      exact isSome_cutAt?_wordStart front back
  case complete =>
      rw [complete?_eq h, Option.isSome_map, completions?, Option.isSome_map]
      exact isSome_lastWord? front
  case hint =>
      have hsize : line.utf8ByteSize = cursor + Text.byteLength back := by
        rw [← Text.byteLength_toList, ← hline, Text.byteLength_append, hcursor]
      cases back with
      | nil =>
          rw [Text.byteLength_nil, Nat.add_zero] at hsize
          rw [List.append_nil] at hline
          rw [hintAt?, hsize, if_neg (Nat.lt_irrefl _), ← hline, hint?, Option.isSome_map,
            isSome_lastWord?]
          exact (true_imp_iff.symm.trans (imp_congr_left (eq_self_iff_true _).symm))
      | cons c back =>
          have hpos := Text.byteLength_pos (List.cons_ne_nil c back)
          rw [hintAt?, if_pos (by omega)]
          simp
  case completed =>
      rw [complete?_eq h]
      intro completion hcompletion
      obtain ⟨candidates, hcandidates, rfl⟩ := Option.map_eq_some_iff.mp hcompletion
      refine ⟨rfl, fun candidate addition hm => ?_⟩
      obtain ⟨hword, hgrown⟩ := lastWord?_of_mem_completions? hcandidates hm
      have hcut := Text.cutAt?_append (front ++ addition.toList) back
      rw [Text.byteLength_append, hcursor, Text.byteLength_toList] at hcut
      refine ⟨hword, ?_⟩
      rw [wordAt?, String.toList_ofList, hcut]
      exact hgrown

/-- Behind a separator of one byte, in front of one of three bytes. -/
theorem offers_before_arrow :
    Text.cutAt? "é = (pr→".toList 8 = some ("é = (pr".toList, "→".toList) ∧
      (complete? "é = (pr→" 8).map Completion.candidates = some [("print", "int")] ∧
      Offers "é = (pr→" 8 "é = (pr".toList "→".toList := by
  have h : Text.cutAt? "é = (pr→".toList 8 = some ("é = (pr".toList, "→".toList) := by
    decide +kernel
  exact ⟨h, by decide +kernel, offers_of_cutAt? h⟩

/-- Behind a separator of three bytes there is no completion and no hint. -/
theorem complete?_behind_arrow :
    Text.cutAt? "→le".toList 5 = some ("→le".toList, []) ∧ wordStart "→le".toList = 1 ∧
      Text.cutAt? "→le".toList 1 = none ∧ (complete? "→le" 5).isNone ∧ (hintAt? "→le" 5).isNone := by
  decide +kernel

end StackScript.Console
