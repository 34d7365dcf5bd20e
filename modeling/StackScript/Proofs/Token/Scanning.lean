import StackScript.Text.Quoted
import StackScript.Token.Scan

/-!
# The lexemes of a text

What the tokens of a source say depends on its characters alone, not on where they stand. A text is
scanned from the front: layout is passed over, and a word, a number, a quoted text or a mark gives
its lexeme. A word or a number is read to its end if what follows is delimited from it.
-/

namespace StackScript

namespace Lexeme

/-! ## Where lexemes start and end -/

/-- The characters that start a mark or a text. -/
def marking : List Char :=
  ['\x7b', '\x7d', '(', ')', '[', ']', ';', ',', ':', '+', '-', '*', '/', '<', '>', '=', '!', '"']

/-- The characters that end a word or a number: the space, the brackets and the separators. -/
def delimiters : List Char :=
  [' ', '(', ')', '[', ']', '\x7b', '\x7d', ',', ';', ':']

/-- A word or a number in front of these characters ends there. -/
def Delimited (cs : List Char) : Prop :=
  ∀ c ∈ cs.head?, c ∈ delimiters

theorem delimited_nil : Delimited [] :=
  nofun

@[simp] theorem delimited_cons_iff {c : Char} {cs : List Char} :
    Delimited (c :: cs) ↔ c ∈ delimiters := by
  simp [Delimited]

theorem takeWhile_append_of_head {inRun : Char → Bool} {run rest : List Char}
    (hrun : ∀ c ∈ run, inRun c = true) (hrest : ∀ c ∈ rest.head?, inRun c = false) :
    (run ++ rest).takeWhile inRun = run := by
  rw [List.takeWhile_append_of_pos hrun]
  cases rest with
  | nil => exact List.append_nil run
  | cons c rest =>
      rw [List.takeWhile_cons_of_neg (Bool.eq_false_iff.mp (hrest c rfl)), List.append_nil]

/-- A run of characters of a class ends where it is delimited by characters of no such class. -/
theorem takeWhile_run {inRun : Char → Bool} (hn : delimiters.any inRun = false)
    {run cs : List Char} (hr : ∀ c ∈ run, inRun c = true) (hd : Delimited cs) :
    (run ++ cs).takeWhile inRun = run :=
  takeWhile_append_of_head hr fun c hc =>
    Bool.eq_false_iff.mpr (List.any_eq_false.mp hn c (hd c hc))

theorem beforeEqual_ne_name (single double : Mark) (cs : List Char) (id : String) :
    (beforeEqual single double cs).1 ≠ name id := by
  unfold beforeEqual
  split <;> nofun

theorem readText_ne_name (value : List Char) (taken : Nat) (cs : List Char) (id : String) :
    (readText value taken cs).1 ≠ name id := by
  fun_induction readText value taken cs <;> first | assumption | nofun

/-! ## Scanning -/

section Scanning

variable [Text.Alphabet]

/-- What the tokens of some characters say. -/
def scan (cs : List Char) : List Lexeme :=
  (Cursor.mk 0 cs).tokens.map Token.lexeme

/-- The next lexeme of some characters and what is left behind it, if there is one. -/
def next? (cs : List Char) : Option (Lexeme × List Char) :=
  match cs.drop (layoutLength false 0 cs) with
  | [] => none
  | c :: rest => some ((read c rest).1, rest.drop (read c rest).2)

theorem next?_eq (cursor : Cursor) :
    cursor.next?.map (fun found => (found.1.lexeme, found.2.rest)) = next? cursor.rest := by
  unfold Cursor.next? next? Cursor.skipLayout
  dsimp only
  rw [Cursor.rest_advance]
  cases hrest : cursor.rest.drop (layoutLength false 0 cursor.rest) with
  | nil => rfl
  | cons c rest => simp [hrest]

/-- Tokens that are read from the same characters say the same, wherever these stand. -/
theorem map_lexeme_congr (cursor other : Cursor) (h : other.rest = cursor.rest) :
    other.tokens.map Token.lexeme = cursor.tokens.map Token.lexeme := by
  have hnext := (next?_eq other).trans ((congrArg next? h).trans (next?_eq cursor).symm)
  match hc : cursor.next? with
  | none =>
      rw [hc, Option.map_none, Option.map_eq_none_iff] at hnext
      rw [Cursor.tokens_of_none hc, Cursor.tokens_of_none hnext]
  | some (token, stop) =>
      rw [hc, Option.map_some, Option.map_eq_some_iff] at hnext
      obtain ⟨⟨token', stop'⟩, ho, hsame⟩ := hnext
      obtain ⟨hlexeme, hstop⟩ := Prod.mk.inj hsame
      rw [Cursor.tokens_of_some hc, Cursor.tokens_of_some ho, List.map_cons, List.map_cons,
        map_lexeme_congr stop stop' hstop]
      exact congrArg (· :: _) hlexeme
termination_by cursor.rest.length
decreasing_by exact Cursor.length_lt_of_next? hc

/-- The lexemes of a source are those of its characters. -/
theorem map_lexeme_tokens (cursor : Cursor) : cursor.tokens.map Token.lexeme = scan cursor.rest :=
  map_lexeme_congr ⟨0, cursor.rest⟩ cursor rfl

theorem scan_of_next? {cs rest : List Char} {lexeme : Lexeme} (h : next? cs = some (lexeme, rest)) :
    scan cs = lexeme :: scan rest := by
  have hnext := next?_eq ⟨0, cs⟩
  rw [h, Option.map_eq_some_iff] at hnext
  obtain ⟨found, hfound, hsame⟩ := hnext
  obtain ⟨hlexeme, hrest⟩ := Prod.mk.inj hsame
  rw [scan, Cursor.tokens_of_some hfound, List.map_cons, hlexeme, map_lexeme_tokens, hrest]

theorem scan_of_none {cs : List Char} (h : next? cs = none) : scan cs = [] := by
  have hnext := next?_eq ⟨0, cs⟩
  rw [h, Option.map_eq_none_iff] at hnext
  rw [scan, Cursor.tokens_of_none hnext, List.map_nil]

@[simp] theorem scan_nil : scan [] = [] :=
  scan_of_none rfl

/-- Characters that have the same next lexeme have the same lexemes. -/
theorem scan_congr {cs cs' : List Char} (h : next? cs = next? cs') : scan cs = scan cs' := by
  cases hn : next? cs' with
  | none => rw [scan_of_none hn, scan_of_none (h.trans hn)]
  | some found => rw [scan_of_next? hn, scan_of_next? (h.trans hn)]

/-! ## Layout -/

theorem layoutLength_add (inComment : Bool) (taken more : Nat) (cs : List Char) :
    layoutLength inComment (taken + more) cs = layoutLength inComment taken cs + more := by
  fun_induction layoutLength inComment taken cs with
  | case1 => rfl
  | case2 taken c cs ih =>
      rw [layoutLength, ← ih, Nat.add_right_comm]
  | case3 taken cs ih =>
      rw [layoutLength, ← ih, Nat.add_right_comm]
  | case4 taken c cs hslash hblank ih =>
      rw [layoutLength, if_pos hblank, ← ih, Nat.add_right_comm]
      exact hslash
  | case5 taken c cs hslash hblank =>
      rw [layoutLength, if_neg hblank]
      exact hslash

/-- A blank in front changes nothing. -/
theorem scan_blank {c : Char} (h : Text.isBlank c = true) (cs : List Char) :
    scan (c :: cs) = scan cs := by
  have hslash : c ≠ '/' := by
    rintro rfl
    cases h.symm.trans (Text.isBlank_basic (by decide))
  have hlayout : layoutLength false 0 (c :: cs) = layoutLength false 0 cs + 1 := by
    rw [← layoutLength_add, layoutLength, if_pos h]
    rintro cs' rfl -
    exact hslash rfl
  apply scan_congr
  rw [next?, next?, hlayout, List.drop_succ_cons]

@[simp] theorem scan_space (cs : List Char) : scan (' ' :: cs) = scan cs :=
  scan_blank Text.isBlank_space cs

/-- Where there is no layout, the first character starts a lexeme. -/
theorem scan_read {c : Char} {cs : List Char} (hb : Text.isBlank c = false)
    (hc : c = '/' → cs.head? ≠ some '/') :
    scan (c :: cs) = (read c cs).1 :: scan (cs.drop (read c cs).2) := by
  have hlayout : layoutLength false 0 (c :: cs) = 0 := by
    rw [layoutLength, hb]
    · rfl
    · rintro cs' rfl rfl
      exact hc rfl rfl
  apply scan_of_next?
  rw [next?, hlayout]
  rfl

/-! ## Marks -/

theorem not_isBlank_of_mem_marking {c : Char} (h : c ∈ marking) : Text.isBlank c = false := by
  have hbasic : marking.all (·.toNat < 0x80) = true := by decide
  have hblank : marking.any (fun c => c = ' ' || ('\t' ≤ c && c ≤ '\r')) = false := by decide
  rw [Text.isBlank_basic (of_decide_eq_true (List.all_eq_true.mp hbasic c h))]
  exact Bool.eq_false_iff.mpr (List.any_eq_false.mp hblank c h)

/-- A mark is read whatever follows, unless a second character can go on with it. -/
theorem scan_mark {m : Mark} (h : m ∉ [.assign, .bang, .slash]) (cs : List Char) :
    scan (m.spelling.toList ++ cs) = .mark m :: scan cs := by
  cases m
  case assign => exact absurd (by decide) h
  case bang => exact absurd (by decide) h
  case slash => exact absurd (by decide) h
  all_goals exact scan_read (not_isBlank_of_mem_marking (by decide)) nofun

/-- Every mark is read in front of a space. -/
theorem scan_mark_space (m : Mark) (cs : List Char) :
    scan (m.spelling.toList ++ ' ' :: cs) = .mark m :: scan cs := by
  rw [← scan_space cs]
  cases m <;> exact scan_read (not_isBlank_of_mem_marking (by decide)) nofun

/-- An exclamation mark is read in front of everything but an equals sign. -/
theorem scan_bang {cs : List Char} (h : cs.head? ≠ some '=') :
    scan ('!' :: cs) = .mark .bang :: scan cs := by
  have hread : read '!' cs = (.mark .bang, 0) := by
    show beforeEqual .bang .notEqual cs = _
    unfold beforeEqual
    split
    · exact absurd rfl h
    · rfl
  rw [scan_read (c := '!') (not_isBlank_of_mem_marking (by decide)) nofun, hread]
  rfl

/-! ## Words and numbers -/

/-- A bracket or a separator is read by itself. -/
theorem scan_delimiters :
    (∀ cs, scan ('(' :: cs) = .mark .openParen :: scan cs) ∧
    (∀ cs, scan (')' :: cs) = .mark .closeParen :: scan cs) ∧
    (∀ cs, scan ('[' :: cs) = .mark .openBracket :: scan cs) ∧
    (∀ cs, scan (']' :: cs) = .mark .closeBracket :: scan cs) ∧
    (∀ cs, scan ('\x7b' :: cs) = .mark .openBrace :: scan cs) ∧
    (∀ cs, scan ('\x7d' :: cs) = .mark .closeBrace :: scan cs) ∧
    (∀ cs, scan (',' :: cs) = .mark .comma :: scan cs) ∧
    (∀ cs, scan (';' :: cs) = .mark .semicolon :: scan cs) ∧
    ∀ cs, scan (':' :: cs) = .mark .colon :: scan cs := by
  refine ⟨?_, ?_, ?_, ?_, ?_, ?_, ?_, ?_, ?_⟩ <;>
    exact fun cs => scan_read (not_isBlank_of_mem_marking (by decide)) nofun

/-- A text gives some lexemes, if it is delimited from what follows. -/
def Spells (text : String) (lexemes : List Lexeme) : Prop :=
  ∀ cs, Delimited cs → scan (text.toList ++ cs) = lexemes ++ scan cs

/-- A run that is delimited is read as a whole. -/
theorem scan_run {ofRun : String → Lexeme} {inRun : Char → Bool} {c : Char} {run cs : List Char}
    (hb : Text.isBlank c = false) (hs : c ≠ '/')
    (hread : ∀ cs, read c cs = readRun ofRun inRun c cs)
    (hn : delimiters.any inRun = false) (hr : ∀ c ∈ run, inRun c = true)
    (hd : Delimited cs) : scan (c :: (run ++ cs)) = ofRun (String.ofList (c :: run)) :: scan cs := by
  rw [scan_read hb fun h => absurd h hs, hread, readRun, takeWhile_run hn hr hd, List.drop_left]

/-- Every other character starts a number or a word, or nothing. -/
theorem read_of_not_marking {c : Char} (h : c ∉ marking) (cs : List Char) :
    read c cs =
      if c.isDigit then readRun integer Char.isDigit c cs
      else if Text.isIdentifierStart c then readRun ofWord Text.isIdentifierPart c cs
      else (illegal c, 0) := by
  simp only [marking, List.mem_cons, List.not_mem_nil, or_false, not_or] at h
  simp only [read, h, if_false]

/-- A digit starts a number. -/
theorem read_of_isDigit {c : Char} (h : c.isDigit = true) (cs : List Char) :
    read c cs = readRun integer Char.isDigit c cs := by
  have hmarking : marking.any Char.isDigit = false := by decide
  have hc : c ∉ marking := fun hm => List.any_eq_false.mp hmarking c hm h
  rw [read_of_not_marking hc, if_pos h]

/-- A number in decimal digits is read as a whole. -/
theorem spells_repr (n : Nat) : Spells n.repr [integer n.repr] := by
  intro cs hd
  have htext : n.repr = String.ofList (Nat.toDigits 10 n) := rfl
  have hdigits : ∀ c ∈ Nat.toDigits 10 n, c.isDigit = true :=
    fun c hm => Nat.isDigit_of_mem_toDigits (by decide) (by decide) hm
  cases hn : Nat.toDigits 10 n with
  | nil => exact absurd hn Nat.toDigits_ne_nil
  | cons c run =>
      rw [hn, List.forall_mem_cons] at hdigits
      rw [htext, hn, String.toList_ofList]
      refine scan_run (Text.not_isBlank_of_isDigit hdigits.1) ?_ (read_of_isDigit hdigits.1)
        (by decide) hdigits.2 hd
      rintro rfl
      exact absurd hdigits.1 (by decide)

/-- A name is what is read as one somewhere. -/
def IsIdentifier (id : String) : Prop :=
  ∃ c cs count, read c cs = (name id, count)

/-- A character that starts a mark or a text starts no name. -/
theorem read_marking_ne_name (cs : List Char) (id : String) :
    ∀ c ∈ marking, (read c cs).1 ≠ name id := by
  simp only [marking, List.forall_mem_cons, List.not_mem_nil, false_implies, implies_true, and_true]
  refine ⟨nofun, nofun, nofun, nofun, nofun, nofun, nofun, nofun, nofun, nofun, nofun, nofun, nofun,
    nofun, nofun, ?equals, ?bang, ?quote⟩
  case equals => exact beforeEqual_ne_name _ _ cs id
  case bang => exact beforeEqual_ne_name _ _ cs id
  case quote => exact readText_ne_name _ _ cs id

/-- A name is a run of the characters of names. -/
theorem IsIdentifier.exists_run {id : String} (h : IsIdentifier id) :
    ∃ c run, id = String.ofList (c :: run) ∧ c ∉ marking ∧ c.isDigit = false ∧
      Text.isIdentifierStart c = true ∧ (∀ c ∈ run, Text.isIdentifierPart c = true) ∧
      ofWord id = name id := by
  obtain ⟨c, cs, count, hread⟩ := h
  have hc : c ∉ marking := fun hm => read_marking_ne_name cs id c hm (congrArg Prod.fst hread)
  rw [read_of_not_marking hc] at hread
  split at hread
  case isTrue => cases hread
  case isFalse hdigit =>
      split at hread
      case isFalse => cases hread
      case isTrue hstart =>
          have hword : ofWord (String.ofList (c :: cs.takeWhile Text.isIdentifierPart)) = name id :=
            congrArg Prod.fst hread
          have hid : id = String.ofList (c :: cs.takeWhile Text.isIdentifierPart) := by
            have hsplit := hword
            unfold ofWord at hsplit
            split at hsplit
            case h_1 => cases hsplit
            case h_2 => exact (Lexeme.name.inj hsplit).symm
          rw [← hid] at hword
          exact ⟨c, _, hid, hc, by simpa using hdigit, hstart,
            List.all_eq_true.mp List.all_takeWhile, hword⟩

theorem any_delimiters_isIdentifierPart : delimiters.any Text.isIdentifierPart = false := by
  have hbasic : delimiters.all (·.toNat < 0x80) = true := by decide
  have hpart : delimiters.any (fun c => c.isAlphanum || c = '_') = false := by decide
  rw [List.any_eq_false]
  intro c hc
  rw [Text.isIdentifierPart_basic (of_decide_eq_true (List.all_eq_true.mp hbasic c hc))]
  exact List.any_eq_false.mp hpart c hc

/-- A word is read as a whole. -/
theorem spells_word {word : String} {c : Char} {run : List Char} (hword : word.toList = c :: run)
    (hc : c ∉ marking) (hdigit : c.isDigit = false) (hstart : Text.isIdentifierStart c = true)
    (hpart : ∀ c ∈ run, Text.isIdentifierPart c = true) : Spells word [ofWord word] := by
  intro cs hd
  have hread : ∀ others, read c others = readRun ofWord Text.isIdentifierPart c others := by
    intro others
    rw [read_of_not_marking hc, hdigit, if_neg Bool.false_ne_true, if_pos hstart]
  have hslash : c ≠ '/' := by
    rintro rfl
    exact hc (by decide)
  have hrun := scan_run (Text.not_isBlank_of_isIdentifierStart hstart) hslash hread
    any_delimiters_isIdentifierPart hpart hd
  rwa [← hword, String.ofList_toList, ← List.cons_append, ← hword] at hrun

theorem spells_identifier {id : String} (h : IsIdentifier id) : Spells id [name id] := by
  obtain ⟨c, run, rfl, hc, hdigit, hstart, hpart, hword⟩ := h.exists_run
  rw [← hword]
  exact spells_word String.toList_ofList hc hdigit hstart hpart

theorem spells_keyword (word : Keyword) : Spells word.spelling [keyword word] := by
  have hword : ofWord word.spelling = keyword word := by
    rw [ofWord, Keyword.ofSpelling?_eq_some_iff.mpr rfl]
  have hletters : word.spelling.toList.all Char.isAlphanum = true := by cases word <;> decide
  have hpart : ∀ c ∈ word.spelling.toList, Text.isIdentifierPart c = true := fun c hc =>
    Text.isIdentifierPart_of_isAlphanum (List.all_eq_true.mp hletters c hc)
  rw [← hword]
  cases word <;>
    exact spells_word rfl (by decide) rfl (Text.isIdentifierStart_of_isAlpha (by decide))
      fun c hc => hpart c (List.mem_cons_of_mem _ hc)

/-- A keyword is read in front of a space. -/
theorem scan_keyword_space (word : Keyword) (cs : List Char) :
    scan (word.spelling.toList ++ ' ' :: cs) = .keyword word :: scan cs := by
  have hspells := spells_keyword word (' ' :: cs) (by simp [delimiters])
  rw [scan_space] at hspells
  exact hspells

end Scanning

/-! ## Quoted text -/

/-- A printable character of the basic set, a line break or a tab. -/
def IsPlain (c : Char) : Prop :=
  c = '\n' ∨ c = '\r' ∨ c = '\t' ∨ (0x20 ≤ c.toNat ∧ c.toNat < 0x7f)

instance : DecidablePred IsPlain := fun c =>
  inferInstanceAs (Decidable (c = '\n' ∨ c = '\r' ∨ c = '\t' ∨ (0x20 ≤ c.toNat ∧ c.toNat < 0x7f)))

theorem isPrintable_of_basic {c : Char} (hl : 0x20 ≤ c.toNat) (hh : c.toNat < 0x7f) :
    Text.isPrintable c = true := by
  have hbasic : ∀ code < 0x7f, 0x20 ≤ code →
      (Text.CodePointSet.inside Text.graphics.changes code &&
        !Text.CodePointSet.inside Text.extenders.changes code &&
        !Text.CodePointSet.inside Text.ignorables.changes code) = true := by
    decide +kernel
  exact hbasic c.toNat hh hl

/-- A plain character is read back from how it is quoted. -/
theorem readText_escape {c : Char} (h : IsPlain c) (value : List Char) (taken : Nat)
    (cs : List Char) :
    readText value taken (Text.escape '"' c ++ cs) =
      readText (c :: value) (taken + (Text.escape '"' c).length) cs := by
  rcases h with rfl | rfl | rfl | ⟨hl, hh⟩
  case inl => rfl
  case inr.inl => rfl
  case inr.inr.inl => rfl
  case inr.inr.inr =>
    by_cases hback : c = '\\'
    · subst hback
      rfl
    by_cases hquote : c = '"'
    · subst hquote
      rfl
    have hcontrol : ∀ control : Char, control.toNat < 0x20 → c ≠ control := by
      rintro control hlt rfl
      omega
    have hescape : Text.escape '"' c = [c] := by
      rw [Text.escape, if_neg (hcontrol _ (by decide)), if_neg (hcontrol _ (by decide)),
        if_neg (hcontrol _ (by decide)), if_neg (hcontrol _ (by decide)),
        if_neg (not_or.mpr ⟨hback, hquote⟩), if_pos (isPrintable_of_basic hl hh)]
    rw [hescape, List.singleton_append, readText]
    · rfl
    · exact hquote
    · exact fun h _ => hback h
    · exact fun _ _ h _ => hback h

theorem readText_quoted {value text cs : List Char} {taken : Nat} (h : ∀ c ∈ text, IsPlain c) :
    readText value taken (text.flatMap (Text.escape '"') ++ '"' :: cs) =
      (.text (String.ofList (value.reverse ++ text)),
        taken + (text.flatMap (Text.escape '"')).length + 1) := by
  induction text generalizing value taken with
  | nil => simp [readText]
  | cons c text ih =>
      rw [List.forall_mem_cons] at h
      rw [List.flatMap_cons, List.append_assoc, readText_escape h.1, ih h.2]
      simp [Nat.add_assoc]

/-- A quoted text is read as a whole, and gives back the text. -/
theorem spells_quote [Text.Alphabet] {value : String} (h : ∀ c ∈ value.toList, IsPlain c) :
    Spells (Text.quote value) [text value] := by
  intro cs _
  have hread : read '"' (value.toList.flatMap (Text.escape '"') ++ '"' :: cs) =
      (text value, (value.toList.flatMap (Text.escape '"')).length + 1) := by
    show readText [] 0 _ = _
    rw [readText_quoted h, List.reverse_nil, List.nil_append, String.ofList_toList, Nat.zero_add]
  rw [Text.toList_quote, List.cons_append, List.append_assoc, List.singleton_append,
    scan_read (c := '"') (not_isBlank_of_mem_marking (by decide)) nofun, hread]
  generalize value.toList.flatMap (Text.escape '"') = quoted
  simp

end Lexeme

end StackScript
