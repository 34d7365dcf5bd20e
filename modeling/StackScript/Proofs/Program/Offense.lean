import StackScript.Proofs.Program.Completion
import StackScript.Proofs.Program.Spacing

/-!
# Where syntax errors point

A syntax error points at the first token that no program goes on with, or at the end of the source.
The text in front of that place is the beginning of a program: a few lexemes written behind it, on a
new line, complete it.
-/

namespace StackScript

open Lexeme

/-! ## Completed texts -/

/-- The characters of some lexemes, with a space behind each. -/
def fillerText (more : List Lexeme) : List Char :=
  more.flatMap fun t => t.describe.toList ++ [' ']

theorem scan_filler {t : Lexeme} (ht : t ∈ fillers) (cs : List Char) :
    scan (t.describe.toList ++ ' ' :: cs) = t :: scan cs := by
  have hspace : Delimited (' ' :: cs) := delimited_cons_iff.mpr (by decide)
  have hspells : ∀ {text : String}, Spells text [t] →
      scan (text.toList ++ ' ' :: cs) = t :: scan cs := by
    intro text h
    rw [h _ hspace, scan_space]
    rfl
  simp only [fillers, List.mem_cons, List.not_mem_nil, or_false] at ht
  obtain rfl | rfl | rfl | rfl | rfl | rfl | rfl | rfl | rfl := ht
  case inl => exact hspells (spells_repr 0)
  case inr.inl => exact hspells (spells_identifier ⟨'x', [], 0, by decide⟩)
  all_goals exact scan_mark_space _ cs

theorem scan_fillerText {more : List Lexeme} (h : more ⊆ fillers) : scan (fillerText more) = more := by
  induction more with
  | nil => exact scan_nil
  | cons t more ih =>
      obtain ⟨ht, hmore⟩ := List.cons_subset.mp h
      rw [fillerText, List.flatMap_cons, List.append_assoc, List.singleton_append, scan_filler ht]
      exact congrArg (t :: ·) (ih hmore)

/-- Segments make the same lexemes if a new line begins behind the layout that follows them. -/
theorem Segment.Row.scan_newline {segments : List Segment} {gap others : List Char} {atEnd : Bool}
    (h : Row segments (gap ++ others)) (hgap : Layout atEnd gap)
    (hclosed : ∀ segment ∈ segments, segment.lexeme ≠ .unclosedText) (cs : List Char) :
    Lexeme.scan (join segments (gap ++ '\n' :: cs)) = segments.map Segment.lexeme ++ Lexeme.scan cs := by
  induction segments with
  | nil =>
      have hscan := scan_layout hgap.append_newline cs
      rwa [List.append_assoc] at hscan
  | cons segment segments ih =>
      obtain ⟨hlayout, hmakes, hrow⟩ := h
      rw [List.forall_mem_cons] at hclosed
      have hagrees : Agrees (join segments (gap ++ '\n' :: cs)) (join segments (gap ++ others)) := by
        rw [join_eq_append segments, join_eq_append segments (gap ++ others)]
        apply Agrees.append
        apply Agrees.append
        apply Agrees.of_ends
        rintro c ⟨⟩
        decide
      have hmakes := hmakes.agrees hagrees fun hopen => absurd hopen hclosed.1
      rw [join, scan_layout hlayout, hmakes.scan, ih hrow hclosed.2]
      rfl

/-! ## Errors -/

namespace Reader

theorem lexemes_ofSource (source : String) : (ofSource source).lexemes = scan source.toList :=
  map_lexeme_tokens _

/-- An error points at the first token, or at the end. -/
theorem offset_explain (reader : Reader) (complaint : Complaint) :
    (reader.explain complaint).offset = reader.tokens.head?.elim reader.stop (·.span.start) := by
  cases complaint with
  | tooLarge digits => rfl
  | missing expected =>
      obtain ⟨tokens, stop⟩ := reader
      cases tokens with
      | nil => rfl
      | cons token tokens =>
          obtain ⟨lexeme, span⟩ := token
          cases lexeme <;> rfl

/-- Without a token, there can only be something missing. -/
theorem explain_nil {complaint : Complaint} (h : complaint.Concerns []) (stop : Nat) :
    ∃ expected, explain ⟨[], stop⟩ complaint = .unexpectedToken expected endOfInput stop := by
  cases complaint with
  | tooLarge digits => cases h
  | missing expected => exact ⟨expected.describe, rfl⟩

end Reader

theorem Program.parse_of_scan {source : String} {program : Program}
    (h : Parse.program (scan source.toList) = .ok program []) : Program.parse source = .ok program := by
  rw [Program.parse, Reader.program, Reader.read, Reader.lexemes_ofSource, h]

theorem Program.scan_of_parse_ok {source : String} {program : Program}
    (h : Program.parse source = .ok program) :
    Parse.program (scan source.toList) = .ok program [] := by
  rw [Program.parse, Reader.program, Reader.read, Reader.lexemes_ofSource] at h
  cases hparse : Parse.program (scan source.toList) with
  | ok program rest =>
      rw [hparse] at h
      cases h
      rw [Form.programOnto_eq_ok hparse]
  | error complaint rest =>
      rw [hparse] at h
      cases h

theorem Program.scan_of_parse {source : String} {error : SyntaxError}
    (h : Program.parse source = .error error) :
    ∃ complaint rest, Parse.program (scan source.toList) = .error complaint rest ∧
      error = ((Reader.ofSource source).last rest.length).explain complaint := by
  rw [Program.parse, Reader.program, Reader.read, Reader.lexemes_ofSource] at h
  cases hparse : Parse.program (scan source.toList) with
  | ok program rest =>
      rw [hparse] at h
      cases h
  | error complaint rest =>
      rw [hparse] at h
      cases h
      exact ⟨complaint, rest, rfl, rfl⟩

/-- No source whose first tokens have these lexemes is a program. -/
def Program.NoneBegins (lexemes : List Lexeme) : Prop :=
  ∀ source more, (Cursor.ofSource source).tokens.map Token.lexeme = lexemes ++ more →
    ∃ error, Program.parse source = .error error

theorem Program.noneBegins_of_parse {lexemes : List Lexeme}
    (h : ∀ more, ∃ complaint rest, Parse.program (lexemes ++ more) = .error complaint rest) :
    NoneBegins lexemes := by
  intro source more hsource
  obtain ⟨complaint, rest, hparse⟩ := h more
  refine ⟨((Reader.ofSource source).last rest.length).explain complaint, ?_⟩
  rw [← hsource] at hparse
  rw [Program.parse, Reader.program, Reader.read, Reader.lexemes, Reader.ofSource, hparse]

namespace Segment

/-- The layout in front of the first of some segments, or the layout at the end if there are none. -/
def margin (segments : List Segment) (stop : List Char) : List Char :=
  (segments.head?.map gap).getD stop

theorem Row.layout_margin {segments : List Segment} {stop : List Char} (h : Row segments stop)
    (hs : Layout true stop) : ∃ atEnd, Layout atEnd (margin segments stop) := by
  cases segments with
  | nil => exact ⟨true, hs⟩
  | cons segment segments => exact ⟨false, h.1⟩

theorem exists_join_eq (segments : List Segment) (stop : List Char) :
    ∃ others, join segments stop = margin segments stop ++ others := by
  cases segments with
  | nil => exact ⟨[], (List.append_nil stop).symm⟩
  | cons segment segments => exact ⟨_, rfl⟩

theorem join_margin (front back : List Segment) (stop : List Char) :
    ∃ others, join (front ++ back) stop = join front (margin back stop) ++ others := by
  obtain ⟨others, hothers⟩ := exists_join_eq back stop
  refine ⟨others, ?_⟩
  rw [join_append, hothers, join_eq_append, ← List.append_assoc, ← join_eq_append]

theorem byteLength_join (segments : List Segment) (cs : List Char) :
    Text.byteLength (join segments cs) =
      Text.byteLength (join segments []) + Text.byteLength cs := by
  rw [join_eq_append, Text.byteLength_append]

end Segment

/-- A source whose first segments are the beginning of a program and whose next one does not go on
with it. -/
structure StuckAt (source : String) (complaint : Complaint) (front back : List Segment)
    (stop : List Char) : Prop where
  text : source.toList = Segment.join (front ++ back) stop
  row : Segment.Row (front ++ back) stop
  layout : Layout true stop
  concerns : complaint.Concerns (back.map Segment.lexeme)
  closed : ∀ t ∈ front.map Segment.lexeme, t ≠ .unclosedText
  viable : ∃ more program, more ⊆ fillers ∧
    Parse.program (front.map Segment.lexeme ++ more) = .ok program []
  again : ∀ others, others.head? = (back.map Segment.lexeme).head? →
    Parse.program (front.map Segment.lexeme ++ others) = .error complaint others

namespace StuckAt

variable {source : String} {complaint : Complaint} {front back : List Segment} {stop : List Char}

theorem tokens_eq (h : StuckAt source complaint front back stop) :
    (Cursor.ofSource source).tokens = Segment.tokens 0 front ++
      Segment.tokens (Text.byteLength (Segment.join front [])) back := by
  rw [Cursor.ofSource, h.text, h.row.tokens_eq h.layout, Segment.tokens_append, Nat.zero_add]

theorem last_eq (h : StuckAt source complaint front back stop) :
    (Reader.ofSource source).last back.length =
      ⟨Segment.tokens (Text.byteLength (Segment.join front [])) back, source.utf8ByteSize⟩ := by
  have hlength : ∀ offset, (Segment.tokens offset back).length = back.length := by
    intro offset
    rw [← List.length_map Token.lexeme, Segment.lexemes_tokens, List.length_map]
  rw [Reader.last, Reader.ofSource, h.tokens_eq, List.length_append, hlength, Nat.add_sub_cancel,
    List.drop_left]

/-- The complaint points behind the layout in front of the next segment. -/
theorem offset_eq (h : StuckAt source complaint front back stop) :
    (((Reader.ofSource source).last back.length).explain complaint).offset =
      Text.byteLength (Segment.join front (Segment.margin back stop)) := by
  rw [h.last_eq, Reader.offset_explain, Segment.byteLength_join front (Segment.margin back stop)]
  cases back with
  | cons segment back => rfl
  | nil =>
      rw [← Text.byteLength_toList, h.text, List.append_nil, Segment.byteLength_join front stop]
      rfl

/-- The text in front of that place is a program as soon as some lexemes complete it. -/
theorem completed (h : StuckAt source complaint front back stop) :
    ∃ more program, Program.parse
      (String.ofList (Segment.join front (Segment.margin back stop) ++ more)) = .ok program := by
  obtain ⟨hfront, hback⟩ := h.row.of_append
  obtain ⟨atEnd, hgap⟩ := hback.layout_margin h.layout
  obtain ⟨others, hothers⟩ := Segment.exists_join_eq back stop
  obtain ⟨more, program, hmore, hprogram⟩ := h.viable
  rw [hothers] at hfront
  have hscan := hfront.scan_newline hgap (fun segment hm => h.closed _ (List.mem_map_of_mem hm))
    (fillerText more)
  refine ⟨'\n' :: fillerText more, program, Program.parse_of_scan ?_⟩
  rw [String.toList_ofList, Segment.join_eq_append, List.append_assoc, ← Segment.join_eq_append,
    hscan, scan_fillerText hmore, hprogram]

/-- The next segment offends, whatever follows it. -/
theorem noneBegins {segment : Segment} (h : StuckAt source complaint front (segment :: back) stop)
    (first offset : Nat) :
    Program.NoneBegins
      ((Segment.tokens first front ++ [segment.token offset]).map Token.lexeme) := by
  apply Program.noneBegins_of_parse
  intro more
  rw [List.map_append, Segment.lexemes_tokens, List.append_assoc]
  exact ⟨complaint, segment.lexeme :: more, h.again _ rfl⟩

end StuckAt

/-- Where a source is not a program, reading it is stuck in front of some of its segments. -/
theorem Program.exists_stuckAt {source : String} {error : SyntaxError}
    (h : Program.parse source = .error error) :
    ∃ complaint front back stop, StuckAt source complaint front back stop ∧
      error = ((Reader.ofSource source).last back.length).explain complaint := by
  obtain ⟨complaint, rest, hparse, rfl⟩ := Program.scan_of_parse h
  obtain ⟨segments, stop, hjoin, hrow, hs⟩ := Segment.exists_row source.toList
  rw [hjoin, hrow.scan hs] at hparse
  obtain ⟨hconcerns, lexemes, ⟨hlexemes, hclosed⟩, hviable, hagain⟩ :=
    Parse.program_eq_error hparse
  obtain ⟨front, back, rfl, rfl, rfl⟩ := List.map_eq_append_iff.mp hlexemes
  obtain ⟨more, program, hmore, hprogram⟩ := hviable
  refine ⟨complaint, front, back, stop, ?_, by rw [List.length_map]⟩
  exact ⟨hjoin, hrow, hs, hconcerns, hclosed, ⟨more, program, hmore, hprogram⟩, hagain⟩

/-- A syntax error points at the start of a token that no program has behind the tokens before it, or
at the end of the source, where there is none. What stands in front of that place can be continued to
a program. -/
theorem Program.parse_eq_error {source : String} {error : SyntaxError}
    (h : Program.parse source = .error error) :
    error.offset ≤ source.utf8ByteSize ∧
      ((∃ before token behind, (Cursor.ofSource source).tokens = before ++ token :: behind ∧
          token.span.start = error.offset ∧
          NoneBegins ((before ++ [token]).map Token.lexeme)) ∨
        ∃ expected, error = .unexpectedToken expected endOfInput source.utf8ByteSize) ∧
      ∃ front back more program, Text.cutAt? source.toList error.offset = some (front, back) ∧
        Program.parse (String.ofList (front ++ more)) = .ok program := by
  obtain ⟨complaint, front, back, stop, hstuck, rfl⟩ := Program.exists_stuckAt h
  obtain ⟨others, hothers⟩ := Segment.join_margin front back stop
  obtain ⟨more, program, hprogram⟩ := hstuck.completed
  have hsource : source.toList = Segment.join front (Segment.margin back stop) ++ others :=
    hstuck.text.trans hothers
  refine ⟨?bound, ?place, _, others, more, program, ?cut, hprogram⟩
  case bound =>
      rw [hstuck.offset_eq, ← Text.byteLength_toList, hsource, Text.byteLength_append]
      exact Nat.le_add_right _ _
  case place =>
      rw [hstuck.last_eq]
      cases back with
      | nil => exact .inr (Reader.explain_nil hstuck.concerns source.utf8ByteSize)
      | cons segment back =>
          refine .inl ⟨_, segment.token (Text.byteLength (Segment.join front [])), _,
            hstuck.tokens_eq, ?_, hstuck.noneBegins _ _⟩
          rw [Reader.offset_explain]
          rfl
  case cut => rw [hstuck.offset_eq, hsource, Text.cutAt?_append]

/-- An operand is missing in a function, behind a comment. -/
theorem Program.parse_eq_error_operand :
    let source := "let f = fn(a, b) \x7b // é\n  a + ) \x7d;"
    let error := SyntaxError.unexpectedToken "expression" ")" 31
    Program.parse source = .error error ∧ error.offset ≤ source.utf8ByteSize ∧
      ((∃ before token behind, (Cursor.ofSource source).tokens = before ++ token :: behind ∧
          token.span.start = error.offset ∧
          NoneBegins ((before ++ [token]).map Token.lexeme)) ∨
        ∃ expected, error = .unexpectedToken expected endOfInput source.utf8ByteSize) ∧
      ∃ front back more program, Text.cutAt? source.toList error.offset = some (front, back) ∧
        Program.parse (String.ofList (front ++ more)) = .ok program := by
  intro source error
  have hfound : (match Program.parse source with | .error found => some found | .ok _ => none) =
      some error := by
    decide +kernel
  have h : Program.parse source = .error error := by
    cases hparse : Program.parse source with
    | ok program =>
        rw [hparse] at hfound
        cases hfound
    | error found =>
        rw [hparse] at hfound
        exact congrArg Except.error (Option.some.inj hfound)
  exact ⟨h, Program.parse_eq_error h⟩

end StackScript
