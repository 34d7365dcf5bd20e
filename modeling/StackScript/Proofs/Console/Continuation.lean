import Mathlib.Data.List.Basic
import Mathlib.Data.List.TakeWhile
import StackScript.Proofs.Core.Basic
import StackScript.Proofs.Program.Nesting
import StackScript.Proofs.Program.Offense

/-!
# Programs need no more input

The check of complete input looks at the brackets and at the last character that is not blank. The
tokens of a program close their brackets, and the last one does not end with a character that asks
for more. So a program is held back only for what stands behind its last token: for the last
character of a comment.
-/

namespace StackScript

open Lexeme

/-- A character that is neither blank nor asks for more. -/
def Concludes (c : Char) : Prop :=
  Text.isBlank c = false ∧ Console.asksForMore c = false

/-! ## The last character of a token -/

namespace Lexeme

/-- Each lexeme that starts with `c` and that can be the last one of a program ends with a character
that concludes. -/
def EndsWell (c : Char) : Prop :=
  ∀ {body rest : List Char} {lexeme : Lexeme}, read c (body ++ rest) = (lexeme, body.length) →
    lexeme.finishes = true → ∀ d ∈ (c :: body).getLast?, Concludes d

theorem endsWell_of_not_finishes {c : Char} (h : ∀ cs, (read c cs).1.finishes = false) :
    EndsWell c := by
  intro body rest lexeme hread hfinishes
  have hnot := h (body ++ rest)
  rw [hread] at hnot
  exact absurd hfinishes (Bool.eq_false_iff.mp hnot)

theorem endsWell_alone {c : Char} (hc : Concludes c) (h : ∀ cs, (read c cs).2 = 0) :
    EndsWell c := by
  intro body rest lexeme hread _
  have hlength := h (body ++ rest)
  rw [hread] at hlength
  obtain rfl : body = [] := List.length_eq_zero_iff.mp hlength
  rintro d ⟨⟩
  exact hc

/-- A text literal ends with its quote. -/
theorem exists_append_quote {value : List Char} {taken : Nat} {body rest : List Char}
    {lexeme : Lexeme} (h : readText value taken (body ++ rest) = (lexeme, taken + body.length))
    (hl : lexeme ≠ unclosedText) : ∃ inner, body = inner ++ ['"'] := by
  fun_induction readText value taken body with
  | case1 => exact absurd (eq_nil_of_readText h).1 hl
  | case2 value taken cs =>
      obtain ⟨-, hlength⟩ := Prod.mk.inj h
      obtain rfl : cs = [] := List.length_eq_zero_iff.mp (by simpa using hlength.symm)
      exact ⟨[], rfl⟩
  | case3 value taken =>
      cases rest with
      | nil => exact absurd (Prod.mk.inj h).1.symm hl
      | cons c rest =>
          have hread : readText (unescape c :: value) (taken + 2) rest = (lexeme, taken + 1) := h
          have hle := le_readText (unescape c :: value) (taken + 2) rest
          rw [hread] at hle
          exact absurd hle (Nat.not_succ_le_self _)
  | case4 value taken c cs ih =>
      have hlength : taken + ('\\' :: c :: cs).length = taken + 2 + cs.length := by
        simp only [List.length_cons]
        omega
      rw [hlength] at h
      obtain ⟨inner, rfl⟩ := ih h
      exact ⟨'\\' :: c :: inner, rfl⟩
  | case5 value taken c cs hquote hlast hescape ih =>
      have hback : c ≠ '\\' := by
        intro hc
        cases cs with
        | nil => exact hlast hc rfl
        | cons d cs => exact hescape d cs hc rfl
      have hlength : taken + (c :: cs).length = taken + 1 + cs.length := by
        rw [List.length_cons]
        omega
      rw [hlength, List.cons_append, readText_other hquote hback] at h
      obtain ⟨inner, rfl⟩ := ih h
      exact ⟨c :: inner, rfl⟩

theorem endsWell_quote : EndsWell '"' := by
  intro body rest lexeme hread hfinishes
  have htext : readText [] 0 (body ++ rest) = (lexeme, 0 + body.length) := by
    rw [Nat.zero_add]
    exact hread
  have hclosed : lexeme ≠ unclosedText := by
    rintro rfl
    cases hfinishes
  obtain ⟨inner, rfl⟩ := exists_append_quote htext hclosed
  rw [← List.cons_append, List.getLast?_concat]
  rintro d ⟨⟩
  exact ⟨by decide, by decide⟩

theorem endsWell_beforeEqual {c : Char} {single double : Mark}
    (hread : ∀ cs, read c cs = beforeEqual single double cs) (hs : (mark single).finishes = false)
    (hd : (mark double).finishes = false) : EndsWell c := by
  apply endsWell_of_not_finishes
  intro cs
  rw [hread]
  unfold beforeEqual
  split
  · exact hd
  · exact hs

theorem endsWell_marking : ∀ c ∈ marking, EndsWell c := by
  simp only [marking, List.forall_mem_cons, List.not_mem_nil, false_implies, implies_true, and_true]
  refine ⟨?_, ?closeBrace, ?_, ?closeParen, ?_, ?closeBracket, ?semicolon, ?_, ?_, ?_, ?_, ?_, ?_,
    ?_, ?_, ?equals, ?bang, endsWell_quote⟩
  case closeBrace | closeParen | closeBracket | semicolon =>
      exact endsWell_alone ⟨by decide, by decide⟩ fun _ => rfl
  case equals => exact endsWell_beforeEqual (fun _ => rfl) rfl rfl
  case bang => exact endsWell_beforeEqual (fun _ => rfl) rfl rfl
  all_goals exact endsWell_of_not_finishes fun _ => rfl

/-- No character of a run asks for more. -/
theorem concludes_of_run {inRun : Char → Bool} (hb : ∀ c, inRun c = true → Text.isBlank c = false)
    (hn : "\\+-*/=,".toList.any inRun = false) {c : Char} (h : inRun c = true) : Concludes c := by
  refine ⟨hb c h, ?_⟩
  rw [Console.asksForMore, Bool.eq_false_iff]
  intro hm
  exact List.any_eq_false.mp hn c (List.contains_iff_mem.mp hm) h

theorem getLast?_run {ofRun : String → Lexeme} {inRun : Char → Bool} {c : Char}
    {body rest : List Char} {lexeme : Lexeme} (hc : Concludes c)
    (hall : ∀ d, inRun d = true → Concludes d)
    (h : readRun ofRun inRun c (body ++ rest) = (lexeme, body.length)) :
    ∀ d ∈ (c :: body).getLast?, Concludes d := by
  have hrun := takeWhile_of_readRun h
  intro d hd
  obtain rfl | hbody := List.mem_cons.mp (List.mem_of_getLast? hd)
  · exact hc
  · rw [← hrun] at hbody
    exact hall d (List.all_eq_true.mp List.all_takeWhile d hbody)

theorem endsWell_of_not_marking {c : Char} (hc : c ∉ marking) : EndsWell c := by
  intro body rest lexeme hread hfinishes
  rw [read_of_not_marking hc] at hread
  split at hread
  case isTrue hdigit =>
      have hall : ∀ d : Char, d.isDigit = true → Concludes d := fun d =>
        concludes_of_run (fun _ => Text.not_isBlank_of_isDigit) (by decide)
      exact getLast?_run (hall c hdigit) hall hread
  case isFalse =>
      split at hread
      case isTrue hstart =>
          have hc : Concludes c := concludes_of_run
            (fun _ => Text.not_isBlank_of_isIdentifierStart) (by decide +kernel) hstart
          have hall : ∀ d : Char, Text.isIdentifierPart d = true → Concludes d := fun d =>
            concludes_of_run (fun _ => Text.not_isBlank_of_isIdentifierPart) (by decide +kernel)
          exact getLast?_run hc hall hread
      case isFalse =>
          obtain ⟨rfl, -⟩ := Prod.mk.inj hread
          cases hfinishes

/-- A token that can be the last one of a program ends with a character that concludes. -/
theorem Makes.concludes {text rest : List Char} {lexeme : Lexeme} (h : Makes text lexeme rest)
    (hl : lexeme.finishes = true) : ∀ d ∈ text.getLast?, Concludes d := by
  cases h with
  | @intro c body _ _ _ _ hread =>
      by_cases hc : c ∈ marking
      case pos => exact endsWell_marking c hc hread hl
      case neg => exact endsWell_of_not_marking hc hread hl

end Lexeme

/-! ## Behind the last token -/

/-- The characters behind the last token of a source. -/
def behindTokens (source : String) : List Char :=
  (Text.cutAt? source.toList ((Cursor.ofSource source).tokens.getLast?.elim 0 (·.span.stop))).elim []
    Prod.snd

namespace Segment

theorem stop_getLast?_tokens (segments : List Segment) (offset : Nat) :
    (tokens offset segments).getLast?.elim offset (·.span.stop) =
      offset + Text.byteLength (join segments []) := by
  induction segments generalizing offset with
  | nil => rfl
  | cons segment segments ih =>
      have hstop : (segment.token offset).span.stop + Text.byteLength (join segments []) =
          offset + Text.byteLength (join (segment :: segments) []) := by
        simp only [token, join, Text.byteLength_append]
        omega
      rw [tokens, List.getLast?_cons, ← hstop, ← ih]
      cases (tokens (segment.token offset).span.stop segments).getLast? <;> rfl

/-- What is left of a row behind its tokens is the layout at the end. -/
theorem Row.behindTokens {segments : List Segment} {stop : List Char} (h : Row segments stop)
    (hs : Layout true stop) {source : String} (hsource : source.toList = join segments stop) :
    behindTokens source = stop := by
  have htokens : (Cursor.ofSource source).tokens = tokens 0 segments := by
    rw [Cursor.ofSource, hsource, h.tokens_eq hs]
  rw [StackScript.behindTokens, htokens, stop_getLast?_tokens, Nat.zero_add, hsource,
    join_eq_append, Text.cutAt?_append]
  rfl

end Segment

namespace Text

/-- The last character that is not blank is one of the back, or of the front if there is none. -/
theorem getLast?_trimEnd_append (front back : List Char) :
    (trimEnd (front ++ back)).getLast? =
      (trimEnd back).getLast?.or (trimEnd front).getLast? := by
  have hfind : ∀ cs, (trimEnd cs).getLast? = cs.reverse.find? (!isBlank ·) := by
    intro cs
    rw [trimEnd, List.getLast?_reverse, List.find?_not_eq_head?_dropWhile]
  rw [hfind, hfind, hfind, List.reverse_append, List.find?_append]

theorem trimEnd_concat (front : List Char) {c : Char} (h : isBlank c = false) :
    trimEnd (front ++ [c]) = front ++ [c] := by
  rw [trimEnd, List.reverse_append, List.reverse_singleton, List.singleton_append,
    List.dropWhile_cons_of_neg (by simp [h]), List.reverse_cons, List.reverse_reverse]

end Text

/-- Up to the end of a token that can be the last one of a program, the last character does not ask
for more. -/
theorem Segment.Row.asksForMore_trimEnd {segments : List Segment} {stop : List Char}
    (h : Row segments stop) (hl : ∀ t ∈ (segments.map lexeme).getLast?, t.finishes = true) :
    (Text.trimEnd (join segments [])).getLast?.any Console.asksForMore = false := by
  obtain rfl | ⟨front, segment, rfl⟩ := List.eq_nil_or_concat' segments
  case inl => rfl
  case inr =>
      obtain ⟨-, -, hmakes, -⟩ := h.of_append
      have hfinishes : segment.lexeme.finishes = true := hl _ (by simp)
      obtain ⟨text, c, htext⟩ := List.eq_nil_or_concat' segment.text |>.resolve_left hmakes.ne_nil
      obtain ⟨hblank, hasks⟩ := hmakes.concludes hfinishes c (by simp [htext])
      have hjoin : join (front ++ [segment]) [] = join front (segment.gap ++ text) ++ [c] := by
        rw [join_append, join_eq_append front (segment.gap ++ text), join_eq_append front]
        simp [join, htext]
      rw [hjoin, Text.trimEnd_concat _ hblank, List.getLast?_concat]
      exact hasks

/-- A program is held back exactly if it ends in a comment, and the last character of the comment
that is not blank asks for more: behind the last token there is nothing but layout. -/
theorem Console.isIncomplete_eq_false_iff {source : String} {program : Program}
    (h : Program.parse source = .ok program) :
    Layout true (behindTokens source) ∧ (isIncomplete source = false ↔
      ∀ c ∈ (Text.trimEnd (behindTokens source)).getLast?, asksForMore c = false) := by
  obtain ⟨segments, stop, hjoin, hrow, hs⟩ := Segment.exists_row source.toList
  have hprogram := Program.scan_of_parse_ok h
  rw [hjoin, hrow.scan hs] at hprogram
  obtain ⟨hfold, hlast⟩ := Parse.closes_of_program hprogram
  have hclosed : ¬ StayOpen [] (segments.map Segment.lexeme) := by
    rintro ⟨left, hleft, hopen⟩
    obtain rfl : left = [] := Option.some.inj (hleft.symm.trans hfold)
    obtain hne | hunclosed := hopen
    · exact hne rfl
    · cases hlast _ hunclosed
  have hbalanced : isBalanced source = true := by
    rw [isBalanced, hjoin, ← Bool.not_eq_false]
    exact fun hopen => hclosed ((balancedFrom_row hrow hs []).mp hopen)
  have hend := hrow.asksForMore_trimEnd hlast
  rw [hrow.behindTokens hs hjoin]
  refine ⟨hs, ?_⟩
  rw [isIncomplete, hbalanced, hjoin, Segment.join_eq_append, Text.getLast?_trimEnd_append]
  cases (Text.trimEnd stop).getLast? with
  | none => simpa using hend
  | some c => simp

/-- A program whose comment ends with a letter is not held back. -/
theorem Console.isIncomplete_eq_false_comment :
    let source := "let f = fn(a) \x7b a + 1 \x7d; f(2) // é ok "
    ∃ program, Program.parse source = .ok program ∧ Layout true (behindTokens source) ∧
      behindTokens source = " // é ok ".toList ∧ isIncomplete source = false ∧
      (isIncomplete source = false ↔
        ∀ c ∈ (Text.trimEnd (behindTokens source)).getLast?, asksForMore c = false) := by
  intro source
  have hfound : (Program.parse source).isOk = true := by decide +kernel
  obtain ⟨program, h⟩ := Except.exists_of_isOk hfound
  obtain ⟨hlayout, hiff⟩ := isIncomplete_eq_false_iff h
  exact ⟨program, h, hlayout, by decide +kernel, by decide +kernel, hiff⟩

/-- A program whose comment ends with an operator is held back. -/
theorem Console.isIncomplete_of_program :
    let source := "1 // +"
    (∃ program, Program.parse source = .ok program) ∧ isIncomplete source = true := by
  intro source
  have hfound : (Program.parse source).isOk = true := by decide +kernel
  exact ⟨Except.exists_of_isOk hfound, by decide +kernel⟩

end StackScript
