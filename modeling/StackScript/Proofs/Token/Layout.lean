import StackScript.Proofs.Text.Slice
import StackScript.Proofs.Token.Scanning

/-!
# Layout, and lexemes in front of it

A lexeme is read from its characters in front of others. Which characters these others are does not
matter if the first one stays the same, or if it is a blank: no lexeme goes on with a blank, except
for a text that lacks its end.
-/

namespace StackScript

namespace Lexeme

/-! ## Reading on -/

theorem takeWhile_of_readRun {ofRun : String → Lexeme} {inRun : Char → Bool} {c : Char}
    {body rest : List Char} {lexeme : Lexeme}
    (h : readRun ofRun inRun c (body ++ rest) = (lexeme, body.length)) :
    (body ++ rest).takeWhile inRun = body := by
  obtain ⟨back, hback⟩ := List.takeWhile_prefix inRun (l := body ++ rest)
  exact (List.append_inj hback (congrArg Prod.snd h)).1

theorem beforeEqual_of_head {single double : Mark} {cs : List Char}
    (h : ∀ c ∈ cs.head?, (c == '=') = false) : beforeEqual single double cs = (mark single, 0) := by
  unfold beforeEqual
  split
  case h_1 => exact absurd (h '=' rfl) (by decide)
  case h_2 => rfl

theorem readText_other {c : Char} (hquote : c ≠ '"') (hback : c ≠ '\\') (value : List Char)
    (taken : Nat) (cs : List Char) :
    readText value taken (c :: cs) = readText (c :: value) (taken + 1) cs := by
  rw [readText]
  · exact hquote
  · exact fun h _ => hback h
  · exact fun _ _ h _ => hback h

/-- Reading a text takes at least its closing quote, or all characters there are. -/
theorem readText_length (value : List Char) (taken : Nat) (cs : List Char) :
    (readText value taken cs = (unclosedText, taken + cs.length)) ∨
      ((readText value taken cs).1 ≠ unclosedText ∧ taken < (readText value taken cs).2 ∧
        (readText value taken cs).2 ≤ taken + cs.length) := by
  fun_induction readText value taken cs with
  | case1 => exact .inl rfl
  | case2 => exact .inr ⟨by simp, Nat.lt_succ_self _, by simp⟩
  | case3 => exact .inl rfl
  | case4 value taken c cs ih | case5 value taken c cs _ _ _ ih =>
      simp only [List.length_cons]
      obtain h | ⟨hne, hlt, hle⟩ := ih
      · left
        rw [h]
        congr 1
        omega
      · exact .inr ⟨hne, by omega, by omega⟩

theorem le_readText (value : List Char) (taken : Nat) (cs : List Char) :
    taken ≤ (readText value taken cs).2 := by
  obtain hopen | ⟨-, hlt, -⟩ := readText_length value taken cs
  · rw [hopen]
    exact Nat.le_add_right _ _
  · exact Nat.le_of_lt hlt

/-- Only at the end of the source, reading a text takes nothing. -/
theorem eq_nil_of_readText {value : List Char} {taken : Nat} {cs : List Char} {lexeme : Lexeme}
    (h : readText value taken cs = (lexeme, taken)) : lexeme = unclosedText ∧ cs = [] := by
  obtain hopen | ⟨-, hlt, -⟩ := readText_length value taken cs
  · obtain ⟨rfl, hlength⟩ := Prod.mk.inj (hopen.symm.trans h)
    exact ⟨rfl, List.length_eq_zero_iff.mp (Nat.add_left_cancel hlength)⟩
  · rw [h] at hlt
    exact absurd hlt (Nat.lt_irrefl _)

theorem readText_agrees {value : List Char} {taken : Nat} {body rest others : List Char}
    {lexeme : Lexeme} (ho : lexeme = unclosedText → others = [])
    (h : readText value taken (body ++ rest) = (lexeme, taken + body.length)) :
    readText value taken (body ++ others) = (lexeme, taken + body.length) := by
  fun_induction readText value taken body with
  | case1 value taken =>
      obtain ⟨rfl, -⟩ := eq_nil_of_readText h
      rw [ho rfl]
      rfl
  | case2 value taken cs => exact h
  | case3 value taken =>
      cases rest with
      | nil =>
          obtain ⟨rfl, -⟩ := Prod.mk.inj h
          rw [ho rfl]
          rfl
      | cons c rest =>
          have hread : readText (unescape c :: value) (taken + 2) rest = (lexeme, taken + 1) := h
          have hle := le_readText (unescape c :: value) (taken + 2) rest
          rw [hread] at hle
          exact absurd hle (Nat.not_succ_le_self _)
  | case4 value taken c cs ih =>
      have hlength : taken + ('\\' :: c :: cs).length = taken + 2 + cs.length := by
        simp only [List.length_cons]
        omega
      rw [hlength] at h ⊢
      exact ih h
  | case5 value taken c cs hquote hlast hescape ih =>
      have hback : c ≠ '\\' := by
        intro hc
        cases cs with
        | nil => exact hlast hc rfl
        | cons d cs => exact hescape d cs hc rfl
      have hlength : taken + (c :: cs).length = taken + 1 + cs.length := by
        rw [List.length_cons]
        omega
      rw [hlength, List.cons_append, readText_other hquote hback] at h ⊢
      exact ih h

section

variable [Text.Alphabet]

/-! ## Layout -/

/-- Blanks and comments. At the end of a source, the last comment may lack the end of its line. -/
inductive Layout (atEnd : Bool) : List Char → Prop
  | nil : Layout atEnd []
  | blank {c : Char} {cs : List Char} (hc : Text.isBlank c = true) (h : Layout atEnd cs) :
    Layout atEnd (c :: cs)
  | comment {text cs : List Char} (ht : '\n' ∉ text) (h : Layout atEnd cs) :
    Layout atEnd ('/' :: '/' :: (text ++ '\n' :: cs))
  | unclosed {text : List Char} (he : atEnd = true) (ht : '\n' ∉ text) :
    Layout atEnd ('/' :: '/' :: text)

/-- The first character is neither blank nor part of a comment. -/
inductive Starts : List Char → Prop
  | intro {c : Char} {rest : List Char} (hb : Text.isBlank c = false)
    (hs : c = '/' → rest.head? ≠ some '/') : Starts (c :: rest)

theorem layoutLength_blank {c : Char} (h : Text.isBlank c = true) (taken : Nat) (cs : List Char) :
    layoutLength false taken (c :: cs) = layoutLength false (taken + 1) cs := by
  rw [layoutLength, if_pos h]
  rintro others rfl -
  cases h.symm.trans (Text.isBlank_basic (by decide))

theorem layoutLength_comment {text : List Char} (h : '\n' ∉ text) (taken : Nat) (cs : List Char) :
    layoutLength true taken (text ++ '\n' :: cs) =
      layoutLength false (taken + text.length + 1) cs := by
  induction text generalizing taken with
  | nil => rfl
  | cons c text ih =>
      have hc := List.ne_of_not_mem_cons h
      have ht := List.not_mem_of_not_mem_cons h
      rw [List.cons_append, layoutLength, bne_iff_ne.mpr (Ne.symm hc), ih ht, List.length_cons]
      congr 1
      omega

theorem layoutLength_unclosed {text : List Char} (h : '\n' ∉ text) (taken : Nat) :
    layoutLength true taken text = taken + text.length := by
  induction text generalizing taken with
  | nil => rfl
  | cons c text ih =>
      have hc := List.ne_of_not_mem_cons h
      have ht := List.not_mem_of_not_mem_cons h
      rw [layoutLength, bne_iff_ne.mpr (Ne.symm hc), ih ht, List.length_cons]
      omega

theorem Starts.layoutLength {cs : List Char} (h : Starts cs) (taken : Nat) :
    layoutLength false taken cs = taken := by
  obtain @⟨c, rest, hb, hs⟩ := h
  rw [Lexeme.layoutLength, hb]
  · rfl
  · rintro others rfl rfl
    exact hs rfl rfl

/-- Layout is passed over. -/
theorem Layout.layoutLength_append {gap : List Char} (h : Layout false gap) (taken : Nat)
    (cs : List Char) :
    layoutLength false taken (gap ++ cs) = layoutLength false (taken + gap.length) cs := by
  induction h generalizing taken with
  | nil => rfl
  | blank hc _ ih =>
      rw [List.cons_append, layoutLength_blank hc, ih, List.length_cons]
      congr 1
      omega
  | @comment text rest ht _ ih =>
      have hpassed : layoutLength false taken ('/' :: '/' :: (text ++ '\n' :: (rest ++ cs))) =
          layoutLength false (taken + 2 + text.length + 1) (rest ++ cs) :=
        layoutLength_comment ht (taken + 2) (rest ++ cs)
      rw [List.cons_append, List.cons_append, List.append_assoc, List.cons_append, hpassed, ih]
      congr 1
      simp only [List.length_cons, List.length_append]
      omega
  | unclosed he => cases he

/-- Layout at the end of a source is passed over as a whole. -/
theorem Layout.layoutLength {cs : List Char} (h : Layout true cs) (taken : Nat) :
    layoutLength false taken cs = taken + cs.length := by
  induction h generalizing taken with
  | nil => rfl
  | blank hc _ ih =>
      rw [layoutLength_blank hc, ih, List.length_cons]
      omega
  | @comment text rest ht _ ih =>
      have hpassed : Lexeme.layoutLength false taken ('/' :: '/' :: (text ++ '\n' :: rest)) =
          Lexeme.layoutLength false (taken + 2 + text.length + 1) rest :=
        layoutLength_comment ht (taken + 2) rest
      rw [hpassed, ih]
      simp only [List.length_cons, List.length_append]
      omega
  | @unclosed text _ ht =>
      have hpassed : Lexeme.layoutLength false taken ('/' :: '/' :: text) =
          taken + 2 + text.length :=
        layoutLength_unclosed ht (taken + 2)
      rw [hpassed, List.length_cons, List.length_cons]
      omega

/-- The end of the line closes the last comment. -/
theorem Layout.append_newline {gap : List Char} {atEnd : Bool} (h : Layout atEnd gap) :
    Layout false (gap ++ ['\n']) := by
  induction h with
  | nil => exact .blank Text.isBlank_newline .nil
  | blank hc _ ih => exact .blank hc ih
  | comment ht _ ih =>
      rw [List.cons_append, List.cons_append, List.append_assoc]
      exact .comment ht ih
  | unclosed _ ht => exact .comment ht .nil

/-- Characters are layout as a whole, or layout in front of a lexeme. -/
theorem layout_or_starts (cs : List Char) :
    Layout true cs ∨ ∃ gap rest, cs = gap ++ rest ∧ Layout false gap ∧ Starts rest :=
  match cs with
  | [] => .inl .nil
  | c :: cs => by
      by_cases hb : Text.isBlank c = true
      case pos =>
          obtain h | ⟨gap, rest, rfl, hgap, hrest⟩ := layout_or_starts cs
          · exact .inl (.blank hb h)
          · exact .inr ⟨c :: gap, rest, rfl, .blank hb hgap, hrest⟩
      case neg =>
          by_cases hslash : c = '/' ∧ cs.head? = some '/'
          case neg =>
              refine .inr ⟨[], c :: cs, rfl, .nil, .intro (by simpa using hb) ?_⟩
              exact fun hc hhead => hslash ⟨hc, hhead⟩
          case pos =>
              obtain ⟨rfl, hhead⟩ := hslash
              obtain ⟨cs, rfl⟩ := List.head?_eq_some_iff.mp hhead
              by_cases hline : '\n' ∈ cs
              case neg => exact .inl (.unclosed rfl hline)
              case pos =>
                  obtain ⟨text, others, rfl, ht⟩ := List.eq_append_cons_of_mem hline
                  obtain h | ⟨gap, rest, rfl, hgap, hrest⟩ := layout_or_starts others
                  · exact .inl (.comment ht h)
                  · refine .inr ⟨_, rest, ?_, .comment ht hgap, hrest⟩
                    simp
termination_by cs.length
decreasing_by
  · exact Nat.lt_succ_self _
  · subst_vars
    simp only [List.length_cons, List.length_append]
    omega

/-! ## Lexemes -/

/-- The end of the source or a blank follows. -/
def Ends (rest : List Char) : Prop :=
  ∀ c ∈ rest.head?, Text.isBlank c = true

/-- The characters behind a lexeme may be others: the first one is the same, or the lexeme ends
anyway. -/
def Agrees (others rest : List Char) : Prop :=
  others.head? = rest.head? ∨ Ends others

theorem Agrees.of_ends {others rest : List Char} (h : Ends others) : Agrees others rest :=
  .inr h

theorem Agrees.append {others rest : List Char} (h : Agrees others rest) (front : List Char) :
    Agrees (front ++ others) (front ++ rest) := by
  cases front with
  | nil => exact h
  | cons c front => exact .inl rfl

/-- A character of a class without blanks that does not follow does not follow among other
characters. -/
theorem Agrees.head_ne {others rest : List Char} (h : Agrees others rest) {inRun : Char → Bool}
    (hn : ∀ c, Text.isBlank c = true → inRun c = false)
    (hr : ∀ c ∈ rest.head?, inRun c = false) : ∀ c ∈ others.head?, inRun c = false := by
  intro c hc
  obtain hsame | hends := h
  · exact hr c (hsame ▸ hc)
  · exact hn c (hends c hc)

/-- A run ends in front of other characters as in front of those it was read in. -/
theorem readRun_agrees {ofRun : String → Lexeme} {inRun : Char → Bool} {c : Char}
    {body rest others : List Char} {lexeme : Lexeme}
    (hn : ∀ c, Text.isBlank c = true → inRun c = false) (ha : Agrees others rest)
    (h : readRun ofRun inRun c (body ++ rest) = (lexeme, body.length)) :
    readRun ofRun inRun c (body ++ others) = (lexeme, body.length) := by
  obtain ⟨hlexeme, -⟩ := Prod.mk.inj h
  have hrun := takeWhile_of_readRun h
  have hall : ∀ c ∈ body, inRun c = true := by
    rw [← hrun]
    exact List.all_eq_true.mp List.all_takeWhile
  have hrest : ∀ c ∈ rest.head?, inRun c = false := by
    rw [List.takeWhile_append_of_pos hall] at hrun
    have hnil : rest.takeWhile inRun = [] := List.append_right_eq_self.mp hrun
    intro c hc
    obtain ⟨rest, rfl⟩ := List.head?_eq_some_iff.mp hc
    cases hin : inRun c with
    | false => rfl
    | true =>
        rw [List.takeWhile_cons_of_pos hin] at hnil
        exact absurd hnil (List.cons_ne_nil _ _)
  rw [readRun, takeWhile_append_of_head hall (ha.head_ne hn hrest)]
  rw [hrun] at hlexeme
  rw [hlexeme]

theorem beforeEqual_agrees {single double : Mark} {body rest others : List Char} {lexeme : Lexeme}
    (ha : Agrees others rest)
    (h : beforeEqual single double (body ++ rest) = (lexeme, body.length)) :
    beforeEqual single double (body ++ others) = (lexeme, body.length) := by
  have hn : ∀ c, Text.isBlank c = true → (c == '=') = false := by
    intro c hb
    rw [beq_eq_false_iff_ne]
    rintro rfl
    cases hb.symm.trans (Text.isBlank_basic (by decide))
  cases body with
  | cons c body =>
      by_cases hc : c = '='
      case pos =>
          subst hc
          exact h
      case neg =>
          have hhead : ∀ d ∈ (c :: (body ++ rest)).head?, (d == '=') = false := by simpa using hc
          cases h.symm.trans (beforeEqual_of_head hhead)
  | nil =>
      by_cases hrest : ∀ c ∈ rest.head?, (c == '=') = false
      case pos =>
          have hsame : beforeEqual single double others = beforeEqual single double rest := by
            rw [beforeEqual_of_head hrest, beforeEqual_of_head (ha.head_ne hn hrest)]
          exact hsame.trans h
      case neg =>
          cases rest with
          | nil => exact absurd nofun hrest
          | cons c rest =>
              obtain rfl : c = '=' := by simpa using hrest
              cases h

/-- How a lexeme goes on behind its first character. -/
inductive GoesOn (c : Char) : (List Char → Lexeme × Nat) → Prop
  | alone (lexeme : Lexeme) : GoesOn c fun _ => (lexeme, 0)
  | beforeEqual (single double : Mark) : GoesOn c (beforeEqual single double)
  | text : GoesOn c (readText [] 0)
  | run {ofRun : String → Lexeme} {inRun : Char → Bool}
    (hn : ∀ c, Text.isBlank c = true → inRun c = false) : GoesOn c (readRun ofRun inRun c)

theorem goesOn_read_marking : ∀ c ∈ marking, GoesOn c (read c) := by
  simp only [marking, List.forall_mem_cons, List.not_mem_nil, false_implies, implies_true, and_true]
  refine ⟨.alone _, .alone _, .alone _, .alone _, .alone _, .alone _, .alone _, .alone _, .alone _,
    .alone _, .alone _, .alone _, .alone _, .alone _, .alone _, ?equals, ?bang, ?quote⟩
  case equals => exact .beforeEqual .assign .equal
  case bang => exact .beforeEqual .bang .notEqual
  case quote => exact .text

theorem goesOn_read (c : Char) : GoesOn c (read c) := by
  by_cases hc : c ∈ marking
  case pos => exact goesOn_read_marking c hc
  case neg =>
      rw [funext (read_of_not_marking hc)]
      split
      case isTrue =>
          refine .run fun d hb => ?_
          cases hd : d.isDigit with
          | false => rfl
          | true => exact absurd (hb.symm.trans (Text.not_isBlank_of_isDigit hd)) nofun
      case isFalse =>
          split
          case isTrue =>
              refine .run fun d hb => ?_
              cases hd : Text.isIdentifierPart d with
              | false => rfl
              | true => exact absurd (hb.symm.trans (Text.not_isBlank_of_isIdentifierPart hd)) nofun
          case isFalse => exact .alone _

/-- A lexeme takes no more characters than there are. -/
theorem GoesOn.length_le {c : Char} {read : List Char → Lexeme × Nat} (h : GoesOn c read)
    (cs : List Char) : (read cs).2 ≤ cs.length := by
  cases h with
  | alone => exact Nat.zero_le _
  | beforeEqual single double =>
      unfold Lexeme.beforeEqual
      split
      case h_1 => simp
      case h_2 => exact Nat.zero_le _
  | text =>
      obtain hopen | ⟨-, -, hle⟩ := readText_length [] 0 cs
      · rw [hopen]
        exact Nat.le_of_eq (Nat.zero_add _)
      · rwa [Nat.zero_add] at hle
  | run => exact (List.takeWhile_prefix _).length_le

/-- What is read in front of some characters is read in front of others that agree with them. -/
theorem GoesOn.agrees {c : Char} {read : List Char → Lexeme × Nat} (hr : GoesOn c read)
    {body rest others : List Char} {lexeme : Lexeme} (ha : Agrees others rest)
    (ho : lexeme = unclosedText → others = []) (h : read (body ++ rest) = (lexeme, body.length)) :
    read (body ++ others) = (lexeme, body.length) := by
  cases hr with
  | alone => exact h
  | beforeEqual => exact beforeEqual_agrees ha h
  | run hn => exact readRun_agrees hn ha h
  | text =>
      rw [← Nat.zero_add body.length] at h ⊢
      exact readText_agrees ho h

/-- The characters `text` are read as a lexeme in front of `rest`. -/
inductive Makes : (text : List Char) → Lexeme → (rest : List Char) → Prop
  | intro {c : Char} {body rest : List Char} {lexeme : Lexeme} (hb : Text.isBlank c = false)
    (hs : c = '/' → (body ++ rest).head? ≠ some '/')
    (hread : read c (body ++ rest) = (lexeme, body.length)) : Makes (c :: body) lexeme rest

theorem Makes.ne_nil {text rest : List Char} {lexeme : Lexeme} (h : Makes text lexeme rest) :
    text ≠ [] := by
  obtain ⟨-, -, -⟩ := h
  exact List.cons_ne_nil _ _

/-- What starts a lexeme makes one with the characters behind it that the lexeme takes. -/
theorem Starts.makes {cs : List Char} (h : Starts cs) :
    ∃ text lexeme rest, cs = text ++ rest ∧ Makes text lexeme rest := by
  obtain @⟨c, cs, hb, hs⟩ := h
  have hlength : (cs.take (read c cs).2).length = (read c cs).2 :=
    List.length_take_of_le ((goesOn_read c).length_le cs)
  have hcs : cs.take (read c cs).2 ++ cs.drop (read c cs).2 = cs := List.take_append_drop _ _
  refine ⟨c :: cs.take (read c cs).2, (read c cs).1, cs.drop (read c cs).2, ?_, .intro hb ?_ ?_⟩
  · rw [List.cons_append, hcs]
  · rwa [hcs]
  · rw [hcs, hlength]

/-- The same lexeme is made in front of other characters if they agree. -/
theorem Makes.agrees {text rest others : List Char} {lexeme : Lexeme} (h : Makes text lexeme rest)
    (ha : Agrees others rest) (ho : lexeme = unclosedText → others = []) :
    Makes text lexeme others := by
  cases h with
  | @intro c body _ _ hb hs hread =>
      refine .intro hb ?_ ((goesOn_read c).agrees ha ho hread)
      rintro rfl hhead
      cases body with
      | cons d body => exact hs rfl hhead
      | nil =>
          obtain hsame | hends := ha
          · exact hs rfl (hsame.symm.trans hhead)
          · cases (hends '/' hhead).symm.trans (Text.isBlank_basic (by decide))

/-! ## Scanning -/

theorem Makes.starts {text rest : List Char} {lexeme : Lexeme} (h : Makes text lexeme rest) :
    Starts (text ++ rest) := by
  cases h with
  | intro hb hs _ => exact .intro hb hs

theorem scan_layout {gap : List Char} (h : Layout false gap) (cs : List Char) :
    scan (gap ++ cs) = scan cs := by
  have hlayout : layoutLength false 0 (gap ++ cs) = layoutLength false 0 cs + gap.length := by
    rw [h.layoutLength_append, ← layoutLength_add]
  apply scan_congr
  rw [next?, next?, hlayout, Nat.add_comm, ← List.drop_drop, List.drop_left]

theorem Layout.scan {cs : List Char} (h : Layout true cs) : scan cs = [] := by
  apply scan_of_none
  rw [next?, h.layoutLength, Nat.zero_add, List.drop_length]

theorem Makes.scan {text rest : List Char} {lexeme : Lexeme} (h : Makes text lexeme rest) :
    scan (text ++ rest) = lexeme :: scan rest := by
  cases h with
  | @intro c body _ _ hb hs hread =>
      have hscan := scan_read hb hs
      rwa [hread, List.drop_left] at hscan

end

end Lexeme

namespace Cursor

open Lexeme

variable [Text.Alphabet]

/-- The next token stands behind the layout. -/
theorem next?_of_makes {gap text rest : List Char} {lexeme : Lexeme} (hg : Layout false gap)
    (hf : Makes text lexeme rest) (offset : Nat) :
    (Cursor.mk offset (gap ++ (text ++ rest))).next? =
      some (⟨lexeme, ⟨offset + Text.byteLength gap,
        offset + Text.byteLength gap + Text.byteLength text⟩⟩,
        ⟨offset + Text.byteLength gap + Text.byteLength text, rest⟩) := by
  have hskip : (Cursor.mk offset (gap ++ (text ++ rest))).skipLayout =
      ⟨offset + Text.byteLength gap, text ++ rest⟩ := by
    rw [skipLayout, hg.layoutLength_append, hf.starts.layoutLength, Nat.zero_add, advance,
      List.take_left, List.drop_left]
  cases hf with
  | @intro c body _ _ hb hs hread =>
      rw [next?, hskip]
      simp only [List.cons_append, hread, advance, List.take_succ_cons, List.drop_succ_cons,
        List.take_left, List.drop_left]

/-- No token follows layout at the end of a source. -/
theorem skipLayout_of_layout {cs : List Char} (h : Layout true cs) (offset : Nat) :
    (Cursor.mk offset cs).skipLayout = ⟨offset + Text.byteLength cs, []⟩ := by
  rw [skipLayout, h.layoutLength, Nat.zero_add, advance, List.take_length, List.drop_length]

theorem next?_of_layout {cs : List Char} (h : Layout true cs) (offset : Nat) :
    (Cursor.mk offset cs).next? = none := by
  rw [next?, skipLayout_of_layout h]

end Cursor

end StackScript
