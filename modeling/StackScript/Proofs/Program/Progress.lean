import StackScript.Proofs.Program.Descent
import StackScript.Proofs.Token.Coverage

/-!
# Reading goes forward

Whatever is read from a reader, and whatever was read before, with or without an error: reading
ends, and the reader goes on at the same token or at a later one. What is read takes a token at least,
and a program takes all of them.
-/

namespace StackScript

/-- What can be read next. -/
inductive Request where
  | statement
  | expression
  | program

namespace Request

def Answer : Request → Type
  | statement => Stmt
  | expression => Expr
  | program => Program

def form : (request : Request) → Form request.Answer
  | statement => Form.statement
  | expression => Form.expression
  | program => Parse.program

def routine : (request : Request) → Routine request.Answer
  | statement => .statement
  | expression => .expression
  | program => .program []

/-- Reading ends, whatever the lexemes are. -/
theorem ends (request : Request) (ts : List Lexeme) :
    (Attempt.parse request.routine).Ends request.form ts := by
  cases request with
  | statement => exact (Attempt.endsBelow _).statement ts (Nat.lt_succ_self _)
  | expression => exact (Attempt.endsBelow _).expression ts (Nat.lt_succ_self _)
  | program => exact Attempt.ends_program [] ts

theorem comesTo_iff (request : Request) (ts : List Lexeme) (outcome : Outcome request.Answer) :
    (Attempt.parse request.routine).ComesTo ts outcome ↔ outcome = request.form ts := by
  constructor
  · exact fun h => h.unique (request.ends ts)
  · rintro rfl
    exact request.ends ts

end Request

/-- What a prompt form leaves is the end of what it was given. -/
theorem Prompt.rest_suffix {Ends : List Lexeme → Prop} {form : Form α} {ts : List Lexeme}
    (h : Prompt Ends form ts) : (form ts).rest <:+ ts := by
  cases hform : form ts with
  | ok value rest =>
      obtain ⟨front, hsplits, -⟩ := h.ok value rest hform
      exact ⟨front, hsplits.eq.symm⟩
  | error complaint rest =>
      obtain ⟨front, hsplits, -⟩ := h.error complaint rest hform
      exact ⟨front, hsplits.eq.symm⟩

theorem Request.rest_suffix (request : Request) (ts : List Lexeme) :
    (request.form ts).rest <:+ ts := by
  cases request with
  | statement => exact ((promptBelow _).statement ts (Nat.lt_succ_self _)).rest_suffix
  | expression => exact ((promptBelow _).expression ts (Nat.lt_succ_self _)).rest_suffix
  | program => exact (Form.prompt_programOnto [] ts).rest_suffix

namespace Reader

/-- Read what is asked for. -/
def answer (reader : Reader) : (request : Request) → Except SyntaxError request.Answer × Reader
  | .statement => reader.statement
  | .expression => reader.expression
  | .program => reader.program

/-- The reader behind some requests, one after the other. -/
def afterAll (reader : Reader) (requests : List Request) : Reader :=
  requests.foldl (fun reader request => (reader.answer request).2) reader

/-- The byte offset of the current token, or of the end of the source. -/
def place (reader : Reader) : Nat :=
  reader.tokens.head?.elim reader.stop (·.span.start)

variable {reader : Reader} {form : Form α}

/-! ## What is left -/

theorem answer_eq (reader : Reader) (request : Request) :
    reader.answer request = reader.read request.form := by
  cases request <;> rfl

theorem read_snd (reader : Reader) (form : Form α) :
    (reader.read form).2 = reader.last (form reader.lexemes).rest.length := by
  rw [read]
  cases form reader.lexemes <;> rfl

theorem isOk_read_fst (reader : Reader) (form : Form α) : (reader.read form).1.isOk = true ↔
    ∃ value rest, form reader.lexemes = .ok value rest := by
  rw [read]
  cases form reader.lexemes with
  | ok value rest => simp [Except.isOk, Except.toBool]
  | error complaint rest => simp [Except.isOk, Except.toBool]

theorem lexemes_last_length {rest : List Lexeme} (h : rest <:+ reader.lexemes) :
    (reader.last rest.length).lexemes = rest := by
  obtain ⟨front, hfront⟩ := h
  have hlength : reader.tokens.length = front.length + rest.length := by
    rw [← List.length_append, hfront, lexemes, List.length_map]
  rw [lexemes, last, List.map_drop, ← lexemes, ← hfront, hlength, Nat.add_sub_cancel,
    List.drop_left]

theorem lexemes_answer (reader : Reader) (request : Request) :
    (reader.answer request).2.lexemes = (request.form reader.lexemes).rest := by
  rw [answer_eq, read_snd]
  exact lexemes_last_length (request.rest_suffix reader.lexemes)

theorem answer_suffix (reader : Reader) (request : Request) :
    (reader.answer request).2.tokens <:+ reader.tokens := by
  rw [answer_eq, read_snd]
  exact List.drop_suffix _ _

/-! ## Places -/

/-- The tokens stand in order, and the end of the source behind them. -/
structure Ordered (reader : Reader) : Prop where
  pairwise : reader.tokens.Pairwise fun first second => first.span.start ≤ second.span.start
  le_stop : ∀ token ∈ reader.tokens, token.span.start ≤ reader.stop

theorem Ordered.last (h : reader.Ordered) (count : Nat) : (reader.last count).Ordered :=
  ⟨h.pairwise.drop, fun token hm => h.le_stop token (List.mem_of_mem_drop hm)⟩

theorem Ordered.answer (h : reader.Ordered) (request : Request) :
    (reader.answer request).2.Ordered := by
  rw [answer_eq, read_snd]
  exact h.last _

theorem Ordered.afterAll (h : reader.Ordered) (requests : List Request) :
    (reader.afterAll requests).Ordered := by
  induction requests generalizing reader with
  | nil => exact h
  | cons request requests ih => exact ih (h.answer request)

theorem Ordered.place_le_of_suffix {behind : Reader} (h : reader.Ordered)
    (hs : behind.tokens <:+ reader.tokens) (hstop : behind.stop = reader.stop) :
    reader.place ≤ behind.place := by
  obtain ⟨tokens, stop⟩ := reader
  obtain ⟨back, backStop⟩ := behind
  obtain rfl : backStop = stop := hstop
  obtain ⟨front, rfl⟩ : back <:+ tokens := hs
  cases front with
  | nil => exact Nat.le_refl _
  | cons token front =>
      cases back with
      | nil => exact h.le_stop token (by simp)
      | cons other back => exact List.rel_of_pairwise_cons h.pairwise (by simp)

theorem Ordered.place_le (h : reader.Ordered) (request : Request) :
    reader.place ≤ (reader.answer request).2.place := by
  apply h.place_le_of_suffix (reader.answer_suffix request)
  rw [answer_eq, read_snd]
  rfl

end Reader

/-- A token starts inside the text that it was read from. -/
theorem Segment.start_of_mem_tokens {segments : List Segment} (stop : List Char) {offset : Nat}
    {token : Token} (h : token ∈ tokens offset segments) :
    offset ≤ token.span.start ∧
      token.span.start ≤ offset + Text.byteLength (join segments stop) := by
  induction segments generalizing offset with
  | nil => cases h
  | cons segment segments ih =>
      rw [join, Text.byteLength_append, Text.byteLength_append]
      obtain rfl | h := List.mem_cons.mp h
      · simp only [Segment.token]
        omega
      · have := ih h
        simp only [Segment.token] at this
        omega

theorem Segment.pairwise_start (segments : List Segment) (offset : Nat) :
    (tokens offset segments).Pairwise fun first second => first.span.start ≤ second.span.start := by
  induction segments generalizing offset with
  | nil => exact .nil
  | cons segment segments ih =>
      refine .cons (fun token hm => ?_) (ih _)
      have hstop := (start_of_mem_tokens [] hm).1
      exact Nat.le_trans (Nat.le_add_right _ _) hstop

theorem Reader.ordered_ofSource (source : String) : (ofSource source).Ordered := by
  obtain ⟨segments, stop, hjoin, hrow, hs⟩ := Segment.exists_row source.toList
  have htokens : (ofSource source).tokens = Segment.tokens 0 segments := by
    rw [ofSource, Cursor.ofSource, hjoin, hrow.tokens_eq hs]
  constructor
  · rw [htokens]
    exact Segment.pairwise_start segments 0
  · intro token hm
    rw [htokens] at hm
    have hle := (Segment.start_of_mem_tokens stop hm).2
    rwa [Nat.zero_add, ← hjoin, Text.byteLength_toList] at hle

/-! ## Progress -/

/-- Reading what is asked for ends, and goes forward. -/
structure Reader.Progresses (reader : Reader) (request : Request) : Prop where
  ends : ∃ outcome, (∀ other, (Attempt.parse request.routine).ComesTo reader.lexemes other ↔
      other = outcome) ∧
    reader.answer request = reader.read (fun _ => outcome) ∧
    (reader.answer request).2.lexemes = outcome.rest
  suffix : (reader.answer request).2.tokens <:+ reader.tokens
  place_le : reader.place ≤ (reader.answer request).2.place
  consumes : request ≠ .program → (reader.answer request).1.isOk = true →
    (reader.answer request).2.tokens.length < reader.tokens.length
  finishes : request = .program → (reader.answer request).1.isOk = true →
    (reader.answer request).2.tokens = []

theorem Request.length_lt {request : Request} (hrequest : request ≠ .program)
    {ts rest : List Lexeme} {value : request.Answer} (h : request.form ts = .ok value rest) : rest.length < ts.length := by
  cases request with
  | statement => exact Parse.length_lt h
  | expression => exact Parse.length_lt h
  | program => exact absurd rfl hrequest

theorem Reader.Ordered.progresses {reader : Reader} (h : reader.Ordered) (request : Request) :
    reader.Progresses request := by
  have hrest := lexemes_answer reader request
  have hlength : (reader.answer request).2.tokens.length =
      (request.form reader.lexemes).rest.length := by
    rw [← hrest, lexemes, List.length_map]
  constructor
  case ends =>
      refine ⟨_, request.comesTo_iff reader.lexemes, ?_, hrest⟩
      rw [answer_eq]
      rfl
  case suffix => exact reader.answer_suffix request
  case place_le => exact h.place_le request
  case consumes =>
      intro hrequest hok
      rw [answer_eq, isOk_read_fst] at hok
      obtain ⟨value, rest, hform⟩ := hok
      have hlt := request.length_lt hrequest hform
      rw [hlength, hform]
      rwa [lexemes, List.length_map] at hlt
  case finishes =>
      rintro rfl hok
      rw [answer_eq, isOk_read_fst] at hok
      obtain ⟨value, rest, hform⟩ := hok
      rw [← List.length_eq_zero_iff, hlength, hform]
      exact congrArg List.length (Form.programOnto_eq_ok hform)

/-- Whatever was read from a source before, with or without an error, reading ends and goes
forward. -/
theorem Reader.progresses_afterAll (source : String) (requests : List Request) (request : Request) :
    ((ofSource source).afterAll requests).Progresses request :=
  ((ordered_ofSource source).afterAll requests).progresses request

end StackScript
