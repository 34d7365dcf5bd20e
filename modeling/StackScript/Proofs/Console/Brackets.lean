import StackScript.Console.Balance
import StackScript.Proofs.Token.Coverage

/-!
# The check of brackets follows the tokens

The check of complete input reads characters, not tokens. It comes to the same result: it says that
input goes on exactly when the tokens of the input, read with a stack of open brackets, leave a
bracket or a text open and no closing bracket among them fails to fit.
-/

namespace StackScript

/-- A kind of bracket. -/
inductive Bracket where
  | round
  | square
  | curly
  deriving DecidableEq

namespace Bracket

def openingMark : Bracket → Mark
  | round => .openParen
  | square => .openBracket
  | curly => .openBrace

def closingMark : Bracket → Mark
  | round => .closeParen
  | square => .closeBracket
  | curly => .closeBrace

def openingChar : Bracket → Char
  | round => '('
  | square => '['
  | curly => '\x7b'

def closingChar : Bracket → Char
  | round => ')'
  | square => ']'
  | curly => '\x7d'

end Bracket

namespace Mark

/-- The bracket that a mark opens. -/
def opens? : Mark → Option Bracket
  | openParen => some .round
  | openBracket => some .square
  | openBrace => some .curly
  | _ => none

/-- The bracket that a mark closes. -/
def closes? : Mark → Option Bracket
  | closeParen => some .round
  | closeBracket => some .square
  | closeBrace => some .curly
  | _ => none

end Mark

namespace Lexeme

/-- The brackets that are open behind a lexeme, the most recently opened one first, if the lexeme is
no closing bracket that fails to match the first one. -/
def openBehind? (opened : List Bracket) : Lexeme → Option (List Bracket)
  | mark m =>
    match m.opens?, m.closes? with
    | some bracket, _ => some (bracket :: opened)
    | none, none => some opened
    | none, some bracket =>
      match opened with
      | [] => none
      | last :: others => if last = bracket then some others else none
  | _ => some opened

/-- No closing bracket among some lexemes fails to match, and a bracket or a text is open at their
end. -/
def StayOpen (opened : List Bracket) (lexemes : List Lexeme) : Prop :=
  ∃ left, lexemes.foldlM openBehind? opened = some left ∧
    (left ≠ [] ∨ lexemes.getLast? = some unclosedText)

theorem stayOpen_nil {opened : List Bracket} : StayOpen opened [] ↔ opened ≠ [] := by
  constructor
  · rintro ⟨left, hleft, hopen | hlast⟩
    · cases hleft
      exact hopen
    · cases hlast
  · exact fun h => ⟨opened, rfl, .inl h⟩

theorem stayOpen_unclosedText (opened : List Bracket) : StayOpen opened [unclosedText] :=
  ⟨opened, rfl, .inr rfl⟩

theorem mark_ne_unclosedText (m : Mark) : mark m ≠ unclosedText :=
  nofun

theorem stayOpen_cons {opened : List Bracket} {lexeme : Lexeme} (h : lexeme ≠ unclosedText)
    (lexemes : List Lexeme) :
    StayOpen opened (lexeme :: lexemes) ↔
      ∃ next, openBehind? opened lexeme = some next ∧ StayOpen next lexemes := by
  have hlast : (lexeme :: lexemes).getLast? = some unclosedText ↔
      lexemes.getLast? = some unclosedText := by
    cases lexemes with
    | nil => simp [h]
    | cons other lexemes => rw [List.getLast?_cons_cons]
  unfold StayOpen
  rw [hlast, List.foldlM_cons]
  cases openBehind? opened lexeme with
  | none => simp
  | some next => simp

end Lexeme

namespace Console

open Lexeme

/-! ## Characters -/

/-- The characters that the check does not pass over, except for a single slash. -/
def special : List Char :=
  ['"', '/', '(', ')', '[', ']', '\x7b', '\x7d']

theorem not_mem_special {inClass : Char → Bool} (hn : special.any inClass = false) {c : Char}
    (h : inClass c = true) : c ∉ special :=
  fun hm => List.any_eq_false.mp hn c hm h

/-- A slash is passed over as well, unless it starts a comment. -/
theorem balancedFrom_step {c : Char} (hquote : c ≠ '"') (hopen : closing? c = none)
    (hclose : isClosing c = false) (due : List Char) {cs : List Char}
    (hslash : c = '/' → cs.head? ≠ some '/') :
    balancedFrom due .code (c :: cs) = balancedFrom due .code cs := by
  have hcomment : ∀ others, c = '/' → cs ≠ '/' :: others := by
    rintro others hc rfl
    exact hslash hc rfl
  cases due with
  | nil =>
      rw [balancedFrom, if_neg hquote, hopen, hclose]
      · rfl
      · exact hcomment
  | cons bracket due =>
      rw [balancedFrom, if_neg hquote, hopen, hclose]
      · rfl
      · exact hcomment

theorem balancedFrom_plain {c : Char} (h : c ∉ special) (due cs : List Char) :
    balancedFrom due .code (c :: cs) = balancedFrom due .code cs := by
  simp only [special, List.mem_cons, List.not_mem_nil, or_false, not_or] at h
  obtain ⟨hquote, hslash, hround, hround', hsquare, hsquare', hcurly, hcurly'⟩ := h
  apply balancedFrom_step hquote
  · simp [closing?, hround, hsquare, hcurly]
  · simp [isClosing, hround', hsquare', hcurly']
  · exact fun hc => absurd hc hslash

theorem balancedFrom_plain_append {front : List Char} (h : ∀ c ∈ front, c ∉ special)
    (due cs : List Char) :
    balancedFrom due .code (front ++ cs) = balancedFrom due .code cs := by
  induction front with
  | nil => rfl
  | cons c front ih =>
      rw [List.forall_mem_cons] at h
      rw [List.cons_append, balancedFrom_plain h.1, ih h.2]

theorem balancedFrom_openingChar (bracket : Bracket) (due cs : List Char) :
    balancedFrom due .code (bracket.openingChar :: cs) =
      balancedFrom (bracket.closingChar :: due) .code cs := by
  cases bracket <;> rfl

theorem balancedFrom_closingChar_nil (bracket : Bracket) (cs : List Char) :
    balancedFrom [] .code (bracket.closingChar :: cs) = true := by
  cases bracket <;> rfl

theorem balancedFrom_closingChar_cons (bracket last : Bracket) (due cs : List Char) :
    balancedFrom (last.closingChar :: due) .code (bracket.closingChar :: cs) =
      if last = bracket then balancedFrom due .code cs else true := by
  cases bracket <;> cases last <;> rfl

/-! ## Layout -/

theorem balancedFrom_comment {text : List Char} (h : '\n' ∉ text) (due cs : List Char) :
    balancedFrom due .comment (text ++ '\n' :: cs) = balancedFrom due .code cs := by
  induction text with
  | nil => rfl
  | cons c text ih =>
      have hc := List.ne_of_not_mem_cons h
      rw [List.cons_append, balancedFrom, if_neg (Ne.symm hc), ih (List.not_mem_of_not_mem_cons h)]

theorem balancedFrom_unclosed {text : List Char} (h : '\n' ∉ text) (due : List Char) :
    balancedFrom due .comment text = due.isEmpty := by
  induction text with
  | nil => rfl
  | cons c text ih =>
      have hc := List.ne_of_not_mem_cons h
      rw [balancedFrom, if_neg (Ne.symm hc), ih (List.not_mem_of_not_mem_cons h)]

/-- The check passes over what the scanner passes over. -/
theorem balancedFrom_layout {gap : List Char} (h : Layout false gap) (due cs : List Char) :
    balancedFrom due .code (gap ++ cs) = balancedFrom due .code cs := by
  induction h with
  | nil => rfl
  | blank hc _ ih => rw [List.cons_append, balancedFrom_plain (not_mem_special (by decide) hc), ih]
  | @comment text rest ht _ ih =>
      have hpassed : balancedFrom due .code ('/' :: '/' :: (text ++ '\n' :: (rest ++ cs))) =
          balancedFrom due .code (rest ++ cs) :=
        balancedFrom_comment ht due (rest ++ cs)
      rw [List.cons_append, List.cons_append, List.append_assoc, List.cons_append, hpassed, ih]
  | unclosed he => cases he

theorem balancedFrom_layout_atEnd {cs : List Char} (h : Layout true cs) (due : List Char) :
    balancedFrom due .code cs = due.isEmpty := by
  induction h with
  | nil => rfl
  | blank hc _ ih => rw [balancedFrom_plain (not_mem_special (by decide) hc), ih]
  | @comment text rest ht _ ih =>
      exact (balancedFrom_comment ht due rest).trans ih
  | @unclosed text _ ht => exact balancedFrom_unclosed ht due

/-! ## Lexemes -/

/-- A run of digits or of characters of names is passed over. -/
theorem balancedFrom_run {ofRun : String → Lexeme} {inRun : Char → Bool} {c : Char}
    {body rest : List Char} {lexeme : Lexeme} (hn : special.any inRun = false) (hc : c ∉ special)
    (h : readRun ofRun inRun c (body ++ rest) = (lexeme, body.length)) (due : List Char) :
    balancedFrom due .code (c :: (body ++ rest)) = balancedFrom due .code rest := by
  have hrun := takeWhile_of_readRun h
  have hbody : ∀ d ∈ body, d ∉ special := by
    intro d hd
    rw [← hrun] at hd
    exact not_mem_special hn (List.all_eq_true.mp List.all_takeWhile d hd)
  rw [balancedFrom_plain hc, balancedFrom_plain_append hbody]

/-- Both readers of a text literal find the same closing quote. -/
theorem balancedFrom_text {value : List Char} {taken : Nat} {body rest : List Char}
    {lexeme : Lexeme} (h : readText value taken (body ++ rest) = (lexeme, taken + body.length))
    (due : List Char) :
    balancedFrom due .text (body ++ rest) =
      if lexeme = unclosedText then false else balancedFrom due .code rest := by
  fun_induction readText value taken body with
  | case1 value taken =>
      obtain ⟨rfl, rfl⟩ := eq_nil_of_readText h
      rfl
  | case2 value taken cs =>
      obtain ⟨rfl, hlength⟩ := Prod.mk.inj h
      obtain rfl : cs = [] := List.length_eq_zero_iff.mp (by simpa using hlength.symm)
      rfl
  | case3 value taken =>
      cases rest with
      | nil =>
          obtain ⟨rfl, -⟩ := Prod.mk.inj h
          rfl
      | cons c rest =>
          have hread : readText (unescape c :: value) (taken + 2) rest = (lexeme, taken + 1) := h
          have hle := le_readText (unescape c :: value) (taken + 2) rest
          rw [hread] at hle
          exact absurd hle (Nat.not_succ_le_self _)
  | case4 value taken c cs ih =>
      have hlength : taken + ('\\' :: c :: cs).length = taken + 2 + cs.length := by
        simp only [List.length_cons]
        omega
      rw [hlength] at h
      exact ih h
  | case5 value taken c cs hquote hlast hescape ih =>
      have hback : c ≠ '\\' := by
        intro hc
        cases cs with
        | nil => exact hlast hc rfl
        | cons d cs => exact hescape d cs hc rfl
      have hlength : taken + (c :: cs).length = taken + 1 + cs.length := by
        rw [List.length_cons]
        omega
      rw [hlength, List.cons_append, readText_other hquote hback] at h
      rw [List.cons_append, balancedFrom, if_neg hback, if_neg hquote, ih h]

/-- The lexeme is no bracket, and the check passes over its characters. -/
structure Quiet (text rest : List Char) (lexeme : Lexeme) : Prop where
  closed : lexeme ≠ unclosedText
  keeps : ∀ opened, openBehind? opened lexeme = some opened
  passed : ∀ due, balancedFrom due .code (text ++ rest) = balancedFrom due .code rest

/-- How the check takes the characters of a lexeme. -/
inductive Taken : (text rest : List Char) → Lexeme → Prop
  | quiet {text rest : List Char} {lexeme : Lexeme} (h : Quiet text rest lexeme) :
    Taken text rest lexeme
  | opening (bracket : Bracket) (rest : List Char) :
    Taken [bracket.openingChar] rest (mark bracket.openingMark)
  | closing (bracket : Bracket) (rest : List Char) :
    Taken [bracket.closingChar] rest (mark bracket.closingMark)
  | unclosed {text : List Char} (h : ∀ due, balancedFrom due .code text = false) :
    Taken text [] unclosedText

/-- The check takes the characters of each lexeme that starts with `c`. -/
def Takes (c : Char) : Prop :=
  ∀ {body rest : List Char} {lexeme : Lexeme}, (c = '/' → (body ++ rest).head? ≠ some '/') →
    read c (body ++ rest) = (lexeme, body.length) → Taken (c :: body) rest lexeme

theorem takes_openingChar (bracket : Bracket) : Takes bracket.openingChar := by
  intro body rest lexeme _ hread
  have halone : read bracket.openingChar (body ++ rest) = (mark bracket.openingMark, 0) := by
    cases bracket <;> rfl
  obtain ⟨rfl, hlength⟩ := Prod.mk.inj (halone.symm.trans hread)
  obtain rfl : body = [] := List.length_eq_zero_iff.mp hlength.symm
  exact .opening bracket rest

theorem takes_closingChar (bracket : Bracket) : Takes bracket.closingChar := by
  intro body rest lexeme _ hread
  have halone : read bracket.closingChar (body ++ rest) = (mark bracket.closingMark, 0) := by
    cases bracket <;> rfl
  obtain ⟨rfl, hlength⟩ := Prod.mk.inj (halone.symm.trans hread)
  obtain rfl : body = [] := List.length_eq_zero_iff.mp hlength.symm
  exact .closing bracket rest

theorem quiet_alone {c : Char} {body rest : List Char} {lexeme other : Lexeme} (hc : c ∉ special)
    (hread : (other, 0) = (lexeme, body.length)) (hl : other ≠ unclosedText)
    (hk : ∀ opened, openBehind? opened other = some opened) : Quiet (c :: body) rest lexeme := by
  obtain ⟨rfl, hlength⟩ := Prod.mk.inj hread
  obtain rfl : body = [] := List.length_eq_zero_iff.mp hlength.symm
  exact ⟨hl, hk, fun due => balancedFrom_plain hc due rest⟩

theorem takes_mark {c : Char} {m : Mark} (hc : c ∉ special)
    (hk : ∀ opened, openBehind? opened (mark m) = some opened)
    (hread : ∀ cs, read c cs = (mark m, 0)) : Takes c :=
  fun _ h => .quiet (quiet_alone hc ((hread _).symm.trans h) nofun hk)

theorem takes_beforeEqual {c : Char} {single double : Mark} (hc : c ∉ special)
    (hs : ∀ opened, openBehind? opened (mark single) = some opened)
    (hd : ∀ opened, openBehind? opened (mark double) = some opened)
    (hread : ∀ cs, read c cs = beforeEqual single double cs) : Takes c := by
  intro body rest lexeme _ h
  have hequal := (hread _).symm.trans h
  unfold beforeEqual at hequal
  split at hequal
  case h_1 others hcs =>
      obtain ⟨rfl, hlength⟩ := Prod.mk.inj hequal
      obtain ⟨d, rfl⟩ := List.length_eq_one_iff.mp hlength.symm
      obtain ⟨rfl, -⟩ := List.cons.inj hcs
      refine .quiet ⟨nofun, hd, fun due => ?_⟩
      rw [List.cons_append, balancedFrom_plain hc, List.cons_append,
        balancedFrom_plain (by decide), List.nil_append]
  case h_2 => exact .quiet (quiet_alone hc hequal nofun hs)

theorem takes_slash : Takes '/' := by
  intro body rest lexeme hs hread
  obtain ⟨rfl, hlength⟩ := Prod.mk.inj hread
  obtain rfl : body = [] := List.length_eq_zero_iff.mp hlength.symm
  refine .quiet ⟨nofun, fun _ => rfl, fun due => ?_⟩
  exact balancedFrom_step (by decide) rfl rfl due hs

theorem openBehind?_readText (opened : List Bracket) (value : List Char) (taken : Nat)
    (cs : List Char) : openBehind? opened (readText value taken cs).1 = some opened := by
  fun_induction readText value taken cs <;> first | assumption | rfl

theorem takes_quote : Takes '"' := by
  intro body rest lexeme _ hread
  have htext : readText [] 0 (body ++ rest) = (lexeme, 0 + body.length) := by
    rw [Nat.zero_add]
    exact hread
  have hpassed (due : List Char) : balancedFrom due .code ('"' :: (body ++ rest)) =
      if lexeme = unclosedText then false else balancedFrom due .code rest := by
    rw [← balancedFrom_text htext]
    cases due <;> rfl
  by_cases hl : lexeme = unclosedText
  case pos =>
      obtain hopen | ⟨hne, -⟩ := readText_length [] 0 (body ++ rest)
      · have hlength : 0 + (body ++ rest).length = 0 + body.length :=
          congrArg Prod.snd (hopen.symm.trans htext)
        rw [List.length_append] at hlength
        obtain rfl : rest = [] := List.length_eq_zero_iff.mp (by omega)
        subst hl
        rw [List.append_nil] at hpassed
        exact .unclosed hpassed
      · rw [htext] at hne
        exact absurd hl hne
  case neg =>
      have hkeeps (opened : List Bracket) : openBehind? opened lexeme = some opened := by
        have hread := openBehind?_readText opened [] 0 (body ++ rest)
        rwa [htext] at hread
      simp only [hl, if_false] at hpassed
      exact .quiet ⟨hl, hkeeps, hpassed⟩

theorem takes_marking : ∀ c ∈ marking, Takes c := by
  simp only [marking, List.forall_mem_cons, List.not_mem_nil, false_implies, implies_true, and_true]
  refine ⟨takes_openingChar .curly, takes_closingChar .curly, takes_openingChar .round,
    takes_closingChar .round, takes_openingChar .square, takes_closingChar .square, ?semicolon,
    ?comma, ?colon, ?plus, ?minus, ?star, takes_slash, ?less, ?greater, ?equals, ?bang, takes_quote⟩
  case equals =>
      exact takes_beforeEqual (by decide) (fun _ => rfl) (fun _ => rfl) fun _ => rfl
  case bang =>
      exact takes_beforeEqual (by decide) (fun _ => rfl) (fun _ => rfl) fun _ => rfl
  all_goals exact takes_mark (by decide) (fun _ => rfl) fun _ => rfl

theorem openBehind?_ofWord (opened : List Bracket) (word : String) :
    openBehind? opened (ofWord word) = some opened := by
  unfold ofWord
  split <;> rfl

theorem ofWord_ne_unclosedText (word : String) : ofWord word ≠ unclosedText := by
  unfold ofWord
  split <;> nofun

theorem takes_of_not_marking {c : Char} (hc : c ∉ marking) : Takes c := by
  intro body rest lexeme _ hread
  have hspecial : c ∉ special := by
    have hsub : special.all (fun d => d ∈ marking) = true := by decide
    exact fun hm => hc (of_decide_eq_true (List.all_eq_true.mp hsub c hm))
  rw [read_of_not_marking hc] at hread
  split at hread
  case isTrue =>
      have hpassed := balancedFrom_run (by decide) hspecial hread
      obtain ⟨rfl, -⟩ := Prod.mk.inj hread
      exact .quiet ⟨nofun, fun _ => rfl, hpassed⟩
  case isFalse =>
      split at hread
      case isTrue =>
          have hpassed := balancedFrom_run (by decide +kernel) hspecial hread
          obtain ⟨rfl, -⟩ := Prod.mk.inj hread
          exact .quiet
            ⟨ofWord_ne_unclosedText _, fun opened => openBehind?_ofWord opened _, hpassed⟩
      case isFalse => exact .quiet (quiet_alone hspecial hread nofun fun _ => rfl)

theorem taken_of_makes {text rest : List Char} {lexeme : Lexeme} (h : Makes text lexeme rest) :
    Taken text rest lexeme := by
  cases h with
  | @intro c body _ _ _ hs hread =>
      by_cases hc : c ∈ marking
      case pos => exact takes_marking c hc hs hread
      case neg => exact takes_of_not_marking hc hs hread

/-! ## Tokens -/

/-- The closing brackets that are due for the open ones. -/
def due (opened : List Bracket) : List Char :=
  opened.map Bracket.closingChar

@[simp] theorem due_nil : due [] = [] := rfl

@[simp] theorem due_cons (bracket : Bracket) (opened : List Bracket) :
    due (bracket :: opened) = bracket.closingChar :: due opened := rfl

theorem isEmpty_due_eq_false {opened : List Bracket} :
    (due opened).isEmpty = false ↔ opened ≠ [] := by
  cases opened <;> simp

/-- Behind the characters of a lexeme, the check goes on with the brackets that are open there. -/
theorem Taken.stayOpen {text rest : List Char} {lexeme : Lexeme} {lexemes : List Lexeme}
    (h : Taken text rest lexeme) (hn : rest = [] → lexemes = [])
    (hr : ∀ opened, balancedFrom (due opened) .code rest = false ↔ StayOpen opened lexemes)
    (opened : List Bracket) :
    balancedFrom (due opened) .code (text ++ rest) = false ↔
      StayOpen opened (lexeme :: lexemes) := by
  cases h with
  | quiet h =>
      rw [stayOpen_cons h.closed, h.passed, hr, h.keeps]
      simp
  | opening bracket =>
      have hbehind : openBehind? opened (mark bracket.openingMark) = some (bracket :: opened) := by
        cases bracket <;> rfl
      rw [stayOpen_cons (mark_ne_unclosedText _), hbehind, List.singleton_append,
        balancedFrom_openingChar]
      simpa using hr (bracket :: opened)
  | closing bracket =>
      have hmark : bracket.closingMark.opens? = none ∧
          bracket.closingMark.closes? = some bracket := by
        cases bracket <;> exact ⟨rfl, rfl⟩
      rw [stayOpen_cons (mark_ne_unclosedText _), List.singleton_append, openBehind?, hmark.1,
        hmark.2]
      cases opened with
      | nil => simp [balancedFrom_closingChar_nil]
      | cons last opened =>
          rw [due_cons, balancedFrom_closingChar_cons]
          by_cases hfit : last = bracket
          case pos => simpa [hfit] using hr opened
          case neg => simp [hfit]
  | unclosed h =>
      obtain rfl := hn rfl
      rw [List.append_nil, h]
      simpa using stayOpen_unclosedText opened

theorem balancedFrom_row {segments : List Segment} {stop : List Char}
    (h : Segment.Row segments stop) (hs : Layout true stop) (opened : List Bracket) :
    balancedFrom (due opened) .code (Segment.join segments stop) = false ↔
      StayOpen opened (segments.map Segment.lexeme) := by
  induction segments generalizing opened with
  | nil => rw [Segment.join, balancedFrom_layout_atEnd hs, List.map_nil, stayOpen_nil,
      isEmpty_due_eq_false]
  | cons segment segments ih =>
      obtain ⟨hgap, hmakes, hrow⟩ := h
      rw [Segment.join, balancedFrom_layout hgap, List.map_cons]
      refine (taken_of_makes hmakes).stayOpen ?_ (ih hrow) opened
      intro hnil
      rw [← hrow.scan hs, hnil, scan_nil]

/-- The check says that input goes on exactly when, among its tokens read with a stack of open
brackets, no closing bracket fails to match the most recently opened one, and at the end some bracket
is still open or the last token is a text that lacks its end. -/
theorem isBalanced_eq_false_iff (input : String) :
    isBalanced input = false ↔
      StayOpen [] ((Cursor.ofSource input).tokens.map Token.lexeme) := by
  obtain ⟨segments, stop, hjoin, hrow, hs⟩ := Segment.exists_row input.toList
  rw [map_lexeme_tokens, Cursor.ofSource, isBalanced, hjoin, hrow.scan hs]
  exact balancedFrom_row hrow hs []

end Console

end StackScript
