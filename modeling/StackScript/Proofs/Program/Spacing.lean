import StackScript.Program.Reader
import StackScript.Proofs.Token.Coverage

/-!
# Layout does not matter

The texts of the tokens of a source may be written out with any layout between them, as long as a
blank is the first thing behind each of them. The tokens say the same then, and the parser sees
nothing else of them, except for the offset of an error.
-/

namespace StackScript

open Lexeme

/-- Layout that begins with a blank. -/
inductive Separator : List Char → Prop
  | intro {c : Char} {cs : List Char} (hc : Text.isBlank c = true) (h : Layout false cs) :
    Separator (c :: cs)

/-- Layout that begins with a blank, or nothing. -/
inductive Margin : List Char → Prop
  | none : Margin []
  | separator {gap : List Char} (h : Separator gap) : Margin gap

/-- Texts written out in order, with a separator between any two neighbours. -/
inductive Spaced : List (List Char) → List Char → Prop
  | nil : Spaced [] []
  | last {text gap : List Char} (hg : Margin gap) : Spaced [text] (text ++ gap)
  | cons {text gap next cs : List Char} {texts : List (List Char)} (hg : Separator gap)
    (h : Spaced (next :: texts) cs) : Spaced (text :: next :: texts) (text ++ (gap ++ cs))

/-- Texts written out in order, with layout in front if there is any. -/
inductive WrittenOut (texts : List (List Char)) : List Char → Prop
  | intro {gap cs : List Char} (hg : Margin gap) (h : Spaced texts cs) : WrittenOut texts (gap ++ cs)

/-- The characters of a token of a source. -/
def Token.textIn (source : String) (token : Token) : List Char :=
  (Text.slice? source.toList token.span).getD []

/-- The same error at another place. -/
def SyntaxError.moveTo (offset : Nat) : SyntaxError → SyntaxError
  | unexpectedToken expected found _ => unexpectedToken expected found offset
  | invalidInteger literal _ => invalidInteger literal offset
  | unterminatedString _ => unterminatedString offset
  | illegalCharacter c _ => illegalCharacter c offset

/-! ## Scanning -/

theorem Separator.layout {gap : List Char} (h : Separator gap) : Layout false gap := by
  obtain ⟨hc, hlayout⟩ := h
  exact .blank hc hlayout

theorem Separator.ends {gap : List Char} (h : Separator gap) (cs : List Char) :
    Ends (gap ++ cs) := by
  obtain ⟨hc, -⟩ := h
  rintro c ⟨⟩
  exact hc

theorem Margin.scan {gap : List Char} (h : Margin gap) (cs : List Char) :
    scan (gap ++ cs) = scan cs := by
  cases h with
  | none => rfl
  | separator h => exact scan_layout h.layout cs

theorem Margin.ends {gap : List Char} (h : Margin gap) : Ends gap := by
  cases h with
  | none => exact nofun
  | separator h =>
      have hends := h.ends []
      rwa [List.append_nil] at hends

/-- Each text makes the lexeme that it makes in the source, whatever layout stands behind it. -/
theorem Segment.Row.scan_spaced {segments : List Segment} {stop : List Char} (h : Row segments stop)
    (hclosed : ∀ segment ∈ segments, segment.lexeme ≠ .unclosedText) {texts : List (List Char)}
    {cs : List Char} (hcs : Spaced texts cs) (htexts : texts = segments.map Segment.text) :
    Lexeme.scan cs = segments.map Segment.lexeme := by
  induction hcs generalizing segments with
  | nil =>
      obtain rfl := List.map_eq_nil_iff.mp htexts.symm
      exact scan_nil
  | @last text gap hg =>
      obtain ⟨segment, rfl, rfl⟩ := List.map_eq_singleton_iff.mp htexts.symm
      obtain ⟨-, hmakes, -⟩ := h
      rw [List.forall_mem_singleton] at hclosed
      have hgap : Lexeme.scan gap = [] := by
        rw [← List.append_nil gap, hg.scan, scan_nil]
      have hmakes := hmakes.agrees (.of_ends hg.ends) fun hopen => absurd hopen hclosed
      rw [hmakes.scan, hgap]
      rfl
  | @cons text gap next cs texts hg _ ih =>
      obtain ⟨segment, others, rfl, rfl, hothers⟩ := List.map_eq_cons_iff.mp htexts.symm
      obtain ⟨-, hmakes, hrow⟩ := h
      rw [List.forall_mem_cons] at hclosed
      have hmakes := hmakes.agrees (.of_ends (hg.ends cs)) fun hopen => absurd hopen hclosed.1
      rw [hmakes.scan, scan_layout hg.layout, ih hrow hclosed.2 hothers.symm]
      rfl

theorem Segment.texts_tokens (segments : List Segment) (stop front : List Char) :
    (tokens (Text.byteLength front) segments).map (fun token =>
      (Text.slice? (front ++ join segments stop) token.span).getD []) = segments.map Segment.text := by
  induction segments generalizing front with
  | nil => rfl
  | cons segment segments ih =>
      have hrest := ih (segment.behind front)
      rw [← join_cons, ← stop_token] at hrest
      rw [tokens, List.map_cons, hrest, slice?_token]
      rfl

theorem Segment.lexemes_tokens (segments : List Segment) (offset : Nat) :
    (tokens offset segments).map Token.lexeme = segments.map Segment.lexeme := by
  induction segments generalizing offset with
  | nil => rfl
  | cons segment segments ih =>
      rw [tokens, List.map_cons, ih]
      rfl

theorem Cursor.lexemes_of_writtenOut {source other : String}
    (hclosed : ∀ token ∈ (ofSource source).tokens, token.lexeme ≠ .unclosedText)
    (h : WrittenOut ((ofSource source).tokens.map (Token.textIn source)) other.toList) :
    (ofSource other).tokens.map Token.lexeme = (ofSource source).tokens.map Token.lexeme := by
  obtain ⟨segments, stop, hjoin, hrow, hs⟩ := Segment.exists_row source.toList
  have htokens : (ofSource source).tokens = Segment.tokens 0 segments := by
    rw [ofSource, hjoin, hrow.tokens_eq hs]
  have htexts : (Segment.tokens 0 segments).map (Token.textIn source) = segments.map Segment.text := by
    have htexts := Segment.texts_tokens segments stop []
    rw [List.nil_append, ← hjoin] at htexts
    exact htexts
  have hsegments : ∀ segment ∈ segments, segment.lexeme ≠ .unclosedText := by
    intro segment hm heq
    have hmem : .unclosedText ∈ (Segment.tokens 0 segments).map Token.lexeme := by
      rw [Segment.lexemes_tokens, ← heq]
      exact List.mem_map_of_mem hm
    obtain ⟨token, htoken, hlexeme⟩ := List.mem_map.mp hmem
    exact hclosed token (htokens ▸ htoken) hlexeme
  rw [htokens, htexts] at h
  rw [map_lexeme_tokens, htokens, Segment.lexemes_tokens]
  show Lexeme.scan other.toList = _
  generalize other.toList = cs at h
  cases h with
  | intro hg hspaced => rw [hg.scan, hrow.scan_spaced hsegments hspaced rfl]

/-! ## Parsing -/

namespace Reader

theorem moveTo_explain {reader other : Reader} (h : other.lexemes = reader.lexemes)
    (complaint : Complaint) (offset : Nat) :
    (other.explain complaint).moveTo offset = (reader.explain complaint).moveTo offset := by
  cases complaint with
  | tooLarge digits => rfl
  | missing expected =>
      obtain ⟨tokens, stop⟩ := reader
      obtain ⟨others, stop'⟩ := other
      cases tokens with
      | nil =>
          obtain rfl := List.map_eq_nil_iff.mp h
          rfl
      | cons token tokens =>
          obtain ⟨token', others, rfl, hlexeme, -⟩ := List.map_eq_cons_iff.mp h
          simp only [explain, hlexeme]
          cases token.lexeme <;> rfl

theorem lexemes_last {reader other : Reader} (h : other.lexemes = reader.lexemes) (count : Nat) :
    (other.last count).lexemes = (reader.last count).lexemes := by
  have hlength : other.tokens.length = reader.tokens.length := by
    have := congrArg List.length h
    rwa [lexemes, lexemes, List.length_map, List.length_map] at this
  rw [lexemes, lexemes, last, last, List.map_drop, List.map_drop, hlength]
  exact congrArg _ h

/-- What is read depends on what the tokens say. -/
theorem read_congr {α : Type} {reader other : Reader} (h : other.lexemes = reader.lexemes)
    (form : List Lexeme → Outcome α) (offset : Nat) :
    (other.read form).1.mapError (SyntaxError.moveTo offset) =
      (reader.read form).1.mapError (SyntaxError.moveTo offset) := by
  rw [read, read, h]
  cases form reader.lexemes with
  | ok value rest => rfl
  | error complaint rest =>
      exact congrArg Except.error (moveTo_explain (lexemes_last h rest.length) complaint offset)

end Reader

/-- A source whose tokens are written out with other layout has the same lexemes, and is the same
program or fails with the same error elsewhere. -/
theorem Program.parse_of_writtenOut {source other : String}
    (hclosed : ∀ token ∈ (Cursor.ofSource source).tokens, token.lexeme ≠ .unclosedText)
    (h : WrittenOut ((Cursor.ofSource source).tokens.map (Token.textIn source)) other.toList) :
    (Cursor.ofSource other).tokens.map Token.lexeme =
        (Cursor.ofSource source).tokens.map Token.lexeme ∧
      (Program.parse other).mapError (SyntaxError.moveTo 0) =
        (Program.parse source).mapError (SyntaxError.moveTo 0) := by
  have hlexemes := Cursor.lexemes_of_writtenOut hclosed h
  have hreaders : (Reader.ofSource other).lexemes = (Reader.ofSource source).lexemes := hlexemes
  exact ⟨hlexemes, Reader.read_congr hreaders Parse.program 0⟩

/-- An operator of two characters, a number in front of a name, and a slash in front of a comment. -/
theorem Program.parse_of_writtenOut_adjacent :
    let source := "1a==!b/\"c // d\"//e"
    let other := " 1\ta // ==\n == ! b / \"c // d\" "
    (∀ token ∈ (Cursor.ofSource source).tokens, token.lexeme ≠ .unclosedText) ∧
      WrittenOut ((Cursor.ofSource source).tokens.map (Token.textIn source)) other.toList ∧
      (Cursor.ofSource other).tokens.map Token.lexeme =
        (Cursor.ofSource source).tokens.map Token.lexeme ∧
      (Program.parse other).mapError (SyntaxError.moveTo 0) =
        (Program.parse source).mapError (SyntaxError.moveTo 0) := by
  intro source other
  have hclosed : ∀ token ∈ (Cursor.ofSource source).tokens, token.lexeme ≠ .unclosedText := by
    decide +kernel
  have hspace : Separator [' '] := .intro (by decide) .nil
  have htab : Separator ['\t'] := .intro (by decide) .nil
  have hline : Layout false ('/' :: '/' :: (" ==".toList ++ '\n' :: [' '])) :=
    .comment (by decide) (.blank (by decide) .nil)
  have hcomment : Separator (" // ==\n ".toList) := .intro (by decide) hline
  have htexts : (Cursor.ofSource source).tokens.map (Token.textIn source) =
      [['1'], ['a'], "==".toList, ['!'], ['b'], ['/'], "\"c // d\"".toList] := by
    decide +kernel
  have hspaced : Spaced ((Cursor.ofSource source).tokens.map (Token.textIn source))
      "1\ta // ==\n == ! b / \"c // d\" ".toList := by
    rw [htexts]
    exact .cons htab (.cons hcomment (.cons hspace (.cons hspace (.cons hspace (.cons hspace
      (.last (.separator hspace)))))))
  have hwritten : WrittenOut ((Cursor.ofSource source).tokens.map (Token.textIn source))
      other.toList := by
    have hother : other.toList = [' '] ++ "1\ta // ==\n == ! b / \"c // d\" ".toList := by decide
    rw [hother]
    exact .intro (.separator hspace) hspaced
  exact ⟨hclosed, hwritten, Program.parse_of_writtenOut hclosed hwritten⟩

end StackScript
