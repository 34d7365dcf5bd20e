import StackScript.Proofs.Program.Form

/-!
# Complaints come at once

A form is prompt if what it reads depends on one lexeme behind, and if it complains in front of the
first lexeme that does not go on: a few lexemes in its place would have completed the form, and
nothing behind it would have helped.

## Implementation notes

A form ends in front of whatever cannot go on with it, which is less than what it may be read in
front of. In a chain of forms, each has to end in front of what completes the next one.
-/

namespace StackScript

open Lexeme

/-- The lexemes that complete what was read before a complaint. -/
def fillers : List Lexeme :=
  [.integer "0", .name "x", .mark .closeParen, .mark .closeBracket, .mark .closeBrace,
    .mark .openParen, .mark .openBrace, .mark .colon, .mark .assign]

/-- A form that ends in front of nothing in particular. -/
def Anything (_ : List Lexeme) : Prop :=
  True

/-- Some lexemes begin like a rest, or a form ends in front of them anyway. -/
def Meets (Ends : List Lexeme → Prop) (others rest : List Lexeme) : Prop :=
  others.head? = rest.head? ∨ Ends others

/-- Some lexemes were read from the front of others, and none of them is a text without an end. -/
structure Splits (ts front rest : List Lexeme) : Prop where
  eq : ts = front ++ rest
  closed : ∀ t ∈ front, t ≠ .unclosedText

variable {α β : Type} {Starts Ends Ends' : List Lexeme → Prop} {t : Lexeme}
  {ts front front' middle rest : List Lexeme}

namespace Splits

theorem nil : Splits ts [] ts :=
  ⟨rfl, nofun⟩

theorem cons (ht : t ≠ .unclosedText) (h : Splits ts front rest) :
    Splits (t :: ts) (t :: front) rest :=
  ⟨congrArg (t :: ·) h.eq, List.forall_mem_cons.mpr ⟨ht, h.closed⟩⟩

theorem trans (h : Splits ts front middle) (h' : Splits middle front' rest) :
    Splits ts (front ++ front') rest :=
  ⟨by rw [h.eq, h'.eq, List.append_assoc], List.forall_mem_append.mpr ⟨h.closed, h'.closed⟩⟩

theorem of_cons (h : Splits (t :: ts) (t :: front) rest) : Splits ts front rest :=
  ⟨(List.cons.inj h.eq).2, fun t ht => h.closed t (List.mem_cons_of_mem _ ht)⟩

/-- Either nothing was read, or the first lexeme. -/
theorem nil_or_cons (h : Splits ts front rest) :
    (front = [] ∧ rest = ts) ∨ ∃ t front' ts', front = t :: front' ∧ ts = t :: ts' := by
  obtain ⟨rfl, -⟩ := h
  cases front with
  | nil => exact .inl ⟨rfl, rfl⟩
  | cons t front => exact .inr ⟨t, front, front ++ rest, rfl, rfl⟩

end Splits

/-- A few lexemes in front of an end complete a form, and begin in a certain way. -/
def Completes (Starts Ends : List Lexeme → Prop) (form : Form α) : Prop :=
  ∃ more value, more ⊆ fillers ∧
    ∀ others, Ends others → Starts (more ++ others) ∧ form (more ++ others) = .ok value others

namespace Form

/-- A form reads at least one lexeme. -/
def Consumes (form : Form α) : Prop :=
  ∀ ts value rest, form ts = .ok value rest → rest.length < ts.length

theorem andThen_eq_ok {form : Form α} {next : α → Form β} {result : β}
    (h : form.andThen next ts = .ok result rest) :
    ∃ value middle, form ts = .ok value middle ∧ next value middle = .ok result rest := by
  rw [andThen] at h
  cases hform : form ts with
  | ok value middle =>
      rw [hform] at h
      exact ⟨value, middle, rfl, h⟩
  | error complaint middle =>
      rw [hform] at h
      cases h

theorem Consumes.map {form : Form α} (h : form.Consumes) (f : α → β) : (form.map f).Consumes := by
  intro ts result rest hok
  obtain ⟨value, middle, hform, ⟨⟩⟩ := andThen_eq_ok hok
  exact h ts value _ hform

theorem Consumes.andThen {form : Form α} {next : α → Form β} (h : form.Consumes)
    (hn : ∀ value, (next value).Consumes) : (form.andThen next).Consumes := by
  intro ts result rest hok
  obtain ⟨value, middle, hform, hnext⟩ := andThen_eq_ok hok
  exact Nat.lt_trans (hn value middle result rest hnext) (h ts value middle hform)

end Form

/-- A complaint about digits stands in front of these. -/
def Complaint.Concerns : Complaint → List Lexeme → Prop
  | tooLarge digits, rest => rest.head? = some (.integer digits)
  | missing _, _ => True

/-- A form looks at one lexeme behind, and complains as soon as it cannot go on. -/
structure Prompt (Ends : List Lexeme → Prop) (form : Form α) (ts : List Lexeme) : Prop where
  concerns : ∀ complaint rest, form ts = .error complaint rest → complaint.Concerns rest
  ok : ∀ value rest, form ts = .ok value rest → ∃ front, Splits ts front rest ∧
    ∀ others, Meets Ends others rest → form (front ++ others) = .ok value others
  error : ∀ complaint rest, form ts = .error complaint rest → ∃ front, Splits ts front rest ∧
    Completes Anything Ends (fun others => form (front ++ others)) ∧
    ∀ others, others.head? = rest.head? → form (front ++ others) = .error complaint others

namespace Completes

theorem nothing {form : Form α} (value : α) (hs : ∀ others, Ends others → Starts others)
    (h : ∀ others, Ends others → form others = .ok value others) : Completes Starts Ends form :=
  ⟨[], value, nofun, fun others ho => ⟨hs others ho, h others ho⟩⟩

theorem single {form : Form α} (t : Lexeme) (value : α) (ht : t ∈ fillers)
    (hs : ∀ others, Starts (t :: others))
    (h : ∀ others, Ends others → form (t :: others) = .ok value others) :
    Completes Starts Ends form :=
  ⟨[t], value, List.cons_subset.mpr ⟨ht, List.nil_subset _⟩,
    fun others ho => ⟨hs others, h others ho⟩⟩

theorem andThen {form : Form α} {next : α → Form β} (h : Completes Starts Ends' form)
    (hn : ∀ value, Completes Ends' Ends (next value)) : Completes Starts Ends (form.andThen next) := by
  obtain ⟨more, value, hmore, hform⟩ := h
  obtain ⟨more', value', hmore', hnext⟩ := hn value
  refine ⟨more ++ more', value', List.append_subset.mpr ⟨hmore, hmore'⟩, fun others ho => ?_⟩
  obtain ⟨hmiddle, hvalue'⟩ := hnext others ho
  obtain ⟨hstart, hvalue⟩ := hform _ hmiddle
  rw [List.append_assoc]
  refine ⟨hstart, ?_⟩
  rw [Form.andThen, hvalue]
  exact hvalue'

theorem map {form : Form α} (h : Completes Starts Ends form) (f : α → β) :
    Completes Starts Ends (form.map f) :=
  h.andThen fun value => nothing (f value) (fun _ => id) fun _ _ => rfl

theorem mono {form : Form α} (h : Completes Starts Ends' form)
    (he : ∀ others, Ends others → Ends' others) : Completes Anything Ends form := by
  obtain ⟨more, value, hmore, hform⟩ := h
  exact ⟨more, value, hmore, fun others ho => ⟨trivial, (hform others (he others ho)).2⟩⟩

/-- A form that does the same on the lexemes that complete another. -/
theorem congr {form form' : Form α} (h : Completes Starts Ends form)
    (heq : ∀ others, Starts others → form' others = form others) :
    Completes Anything Ends form' := by
  obtain ⟨more, value, hmore, hform⟩ := h
  refine ⟨more, value, hmore, fun others ho => ⟨trivial, ?_⟩⟩
  obtain ⟨hstart, hvalue⟩ := hform others ho
  exact (heq _ hstart).trans hvalue

end Completes

namespace Prompt

variable {form : Form α} {next : α → Form β}

theorem mono (h : Prompt Ends' form ts) (hle : ∀ others, Ends others → Ends' others) :
    Prompt Ends form ts := by
  constructor
  · exact h.concerns
  · intro value rest hok
    obtain ⟨front, hsplits, hfront⟩ := h.ok value rest hok
    exact ⟨front, hsplits, fun others ho => hfront others (ho.imp_right (hle others))⟩
  · intro complaint rest herror
    obtain ⟨front, hsplits, hc, hfront⟩ := h.error complaint rest herror
    exact ⟨front, hsplits, hc.mono hle, hfront⟩

/-- A form that reads nothing here. -/
theorem done (value : α) (h : ∀ others, Meets Ends others ts → form others = .ok value others) :
    Prompt Ends form ts := by
  have hts := h ts (.inl rfl)
  constructor
  · intro complaint rest herror
    cases hts.symm.trans herror
  · intro value' rest hok
    cases hts.symm.trans hok
    exact ⟨[], .nil, h⟩
  · intro complaint rest herror
    cases hts.symm.trans herror

/-- A form that complains about the first lexeme. -/
theorem stuck (complaint : Complaint) (hconcerns : complaint.Concerns ts)
    (h : ∀ others, others.head? = ts.head? → form others = .error complaint others)
    (hc : Completes Anything Ends form) : Prompt Ends form ts := by
  have hts := h ts rfl
  constructor
  · intro complaint' rest herror
    cases hts.symm.trans herror
    exact hconcerns
  · intro value rest hok
    cases hts.symm.trans hok
  · intro complaint' rest herror
    cases hts.symm.trans herror
    exact ⟨[], .nil, hc, h⟩

/-- A form that reads the first lexeme and goes on like another. -/
theorem cons {form' : Form α} (ht : t ≠ .unclosedText) (heq : ∀ ts, form (t :: ts) = form' ts)
    (h : Prompt Ends form' ts) : Prompt Ends form (t :: ts) := by
  constructor
  · exact fun complaint rest herror => h.concerns complaint rest ((heq ts).symm.trans herror)
  · intro value rest hok
    obtain ⟨front, hsplits, hfront⟩ := h.ok value rest ((heq ts).symm.trans hok)
    exact ⟨t :: front, hsplits.cons ht, fun others ho => (heq _).trans (hfront others ho)⟩
  · intro complaint rest herror
    obtain ⟨front, hsplits, hc, hfront⟩ := h.error complaint rest ((heq ts).symm.trans herror)
    exact ⟨t :: front, hsplits.cons ht, hc.congr fun others _ => heq _,
      fun others ho => (heq _).trans (hfront others ho)⟩

/-- What a form that can read the first lexeme does with those behind it. -/
theorem tail (h : Prompt Ends form (t :: ts)) (hcons : form.Consumes)
    (hsome : ∃ others value rest, form (t :: others) = .ok value rest) :
    Prompt Ends (fun ts => form (t :: ts)) ts := by
  constructor
  · exact h.concerns
  · intro value rest hok
    obtain ⟨front, hsplits, hfront⟩ := h.ok value rest hok
    obtain ⟨rfl, rfl⟩ | ⟨t', front, ts', rfl, heq⟩ := hsplits.nil_or_cons
    · exact absurd (hcons _ _ _ hok) (Nat.lt_irrefl _)
    · obtain ⟨rfl, rfl⟩ := List.cons.inj heq
      exact ⟨front, hsplits.of_cons, hfront⟩
  · intro complaint rest herror
    obtain ⟨front, hsplits, hc, hfront⟩ := h.error complaint rest herror
    obtain ⟨rfl, rfl⟩ | ⟨t', front, ts', rfl, heq⟩ := hsplits.nil_or_cons
    · obtain ⟨others, value, rest, hok⟩ := hsome
      cases hok.symm.trans (hfront (t :: others) rfl)
    · obtain ⟨rfl, rfl⟩ := List.cons.inj heq
      exact ⟨front, hsplits.of_cons, hc, hfront⟩

/-- A form that does the same as a prompt one on lexemes that begin like these. -/
theorem congr {form' : Form α} (h : Prompt Ends form ts)
    (heq : ∀ others, others.head? = ts.head? → form' others = form others)
    (hends : ∀ value, form' ts = .ok value ts → ∀ others, Ends others → form' others = form others)
    (hc : Completes Anything Ends form') : Prompt Ends form' ts := by
  have hts := heq ts rfl
  constructor
  · exact fun complaint rest herror => h.concerns complaint rest (hts.symm.trans herror)
  · intro value rest hok
    obtain ⟨front, hsplits, hfront⟩ := h.ok value rest (hts.symm.trans hok)
    refine ⟨front, hsplits, fun others ho => ?_⟩
    rw [← hfront others ho]
    obtain ⟨rfl, rfl⟩ | ⟨t, front, ts, rfl, rfl⟩ := hsplits.nil_or_cons
    · exact ho.elim (heq others) (hends value hok others)
    · exact heq _ rfl
  · intro complaint rest herror
    obtain ⟨front, hsplits, hmore, hfront⟩ := h.error complaint rest (hts.symm.trans herror)
    obtain ⟨rfl, rfl⟩ | ⟨t, front, ts, rfl, rfl⟩ := hsplits.nil_or_cons
    · exact ⟨[], hsplits, hc, fun others ho => (heq others ho).trans (hfront others ho)⟩
    · have hsame : ∀ others, form' (t :: front ++ others) = form (t :: front ++ others) :=
        fun others => heq _ rfl
      exact ⟨t :: front, hsplits, hmore.congr fun others _ => hsame others,
        fun others ho => (hsame others).trans (hfront others ho)⟩

theorem congr_of_consumes {form' : Form α} (h : Prompt Ends form ts)
    (heq : ∀ others, others.head? = ts.head? → form' others = form others) (hcons : form'.Consumes)
    (hc : Completes Anything Ends form') : Prompt Ends form' ts :=
  h.congr heq (fun _ hok => absurd (hcons _ _ _ hok) (Nat.lt_irrefl _)) hc

/-- One form behind another that complains. -/
theorem andThen_of_error {complaint : Complaint} (h : Prompt Ends' form ts)
    (hform : form ts = .error complaint rest) (hc : ∀ value, Completes Ends' Ends (next value)) :
    Prompt Ends (form.andThen next) ts := by
  obtain ⟨front, hsplits, hmore, hfront⟩ := h.error complaint rest hform
  have hts : form.andThen next ts = .error complaint rest := by
    rw [Form.andThen, hform]
    rfl
  constructor
  · intro complaint' rest' herror
    cases hts.symm.trans herror
    exact h.concerns complaint rest hform
  · intro result rest' hok
    cases hts.symm.trans hok
  · intro complaint' rest' herror
    cases hts.symm.trans herror
    refine ⟨front, hsplits, hmore.andThen hc, fun others ho => ?_⟩
    rw [Form.andThen, hfront others ho]
    rfl

/-- One form behind another that reads something. Where the second one reads nothing, the first one
has to end in front of whatever the second one ends in front of. -/
theorem andThen_of_ok {value : α} (h : Prompt Ends' form ts) (hform : form ts = .ok value middle)
    (hn : Prompt Ends (next value) middle)
    (hends : ∀ result, next value middle = .ok result middle → ∀ others, Ends others → Ends' others)
    (hc : Completes Ends' Ends (next value)) : Prompt Ends (form.andThen next) ts := by
  obtain ⟨front, hsplits, hfront⟩ := h.ok value middle hform
  have hthen : ∀ others, Meets Ends' others middle →
      form.andThen next (front ++ others) = next value others := by
    intro others ho
    rw [Form.andThen, hfront others ho]
    rfl
  have hts : form.andThen next ts = next value middle := by
    rw [hsplits.eq]
    exact hthen middle (.inl rfl)
  constructor
  · exact fun complaint rest herror => hn.concerns complaint rest (hts.symm.trans herror)
  · intro result rest hok
    rw [hts] at hok
    obtain ⟨front', hsplits', hfront'⟩ := hn.ok result rest hok
    refine ⟨front ++ front', hsplits.trans hsplits', fun others ho => ?_⟩
    rw [List.append_assoc, hthen, hfront' others ho]
    obtain ⟨rfl, rfl⟩ | ⟨t, front', middle, rfl, rfl⟩ := hsplits'.nil_or_cons
    · exact ho.imp_right (hends result hok others)
    · exact .inl rfl
  · intro complaint rest herror
    rw [hts] at herror
    obtain ⟨front', hsplits', hmore, hfront'⟩ := hn.error complaint rest herror
    refine ⟨front ++ front', hsplits.trans hsplits', ?_, fun others ho => ?_⟩
    · -- A first lexeme of the second form keeps its place, otherwise both forms are completed anew.
      obtain ⟨rfl, rfl⟩ | ⟨t, front', middle, rfl, rfl⟩ := hsplits'.nil_or_cons
      · refine hc.congr fun others ho => ?_
        rw [List.append_nil, hthen others (.inr ho)]
      · refine hmore.congr fun others _ => ?_
        rw [List.append_assoc, hthen (t :: front' ++ others) (.inl rfl)]
    · rw [List.append_assoc, hthen, hfront' others ho]
      left
      rw [hsplits'.eq, List.head?_append, List.head?_append, ho]

theorem andThen (h : Prompt Ends' form ts)
    (hn : ∀ value rest, form ts = .ok value rest → Prompt Ends (next value) rest)
    (hends : ∀ value rest result, next value rest = .ok result rest →
      ∀ others, Ends others → Ends' others)
    (hc : ∀ value, Completes Ends' Ends (next value)) : Prompt Ends (form.andThen next) ts := by
  cases hform : form ts with
  | ok value middle =>
      exact h.andThen_of_ok hform (hn value middle hform) (hends value middle) (hc value)
  | error complaint rest => exact h.andThen_of_error hform hc

theorem andThen_of_le (h : Prompt Ends' form ts)
    (hn : ∀ value rest, form ts = .ok value rest → Prompt Ends (next value) rest)
    (hle : ∀ others, Ends others → Ends' others) (hc : ∀ value, Completes Ends' Ends (next value)) :
    Prompt Ends (form.andThen next) ts :=
  h.andThen hn (fun _ _ _ _ => hle) hc

theorem andThen_of_consumes (h : Prompt Ends' form ts)
    (hn : ∀ value rest, form ts = .ok value rest → Prompt Ends (next value) rest)
    (hcons : ∀ value, (next value).Consumes) (hc : ∀ value, Completes Ends' Ends (next value)) :
    Prompt Ends (form.andThen next) ts :=
  h.andThen hn (fun value _ _ hok => absurd (hcons value _ _ _ hok) (Nat.lt_irrefl _)) hc

theorem map (h : Prompt Ends' form ts) (hle : ∀ others, Ends others → Ends' others) (f : α → β) :
    Prompt Ends (form.map f) ts :=
  h.andThen_of_le (fun value _ _ => .done (f value) fun _ _ => rfl) hle fun value =>
    .nothing (f value) hle fun _ _ => rfl

end Prompt

end StackScript
