import StackScript.Proofs.Program.Literal
import StackScript.Proofs.Session.Constant

/-!
# Values print as their own source

The text of a value inside another is a source whose value is that value again. The constants of a
long text may not fit into bytecode, and its operands may not fit on the stack: nothing else can go
wrong, in whatever session the text is evaluated.
-/

namespace StackScript

namespace Session

/-- The text of a plain value inside another is a single expression statement, in whatever order the
hashes in the value enumerate their entries. If it compiles, its value is the plain value, but for
these orders, in every session, unless the stack is full. -/
theorem eval_renderNested (limits : Limits) (history : List (String × Nat)) {value : Value}
    (h : value.IsPlain) :
    let session := ({ limits } : Session).afterAll history
    value.Rearranged value.ordered ∧
    (∃ expr, Program.parse value.renderNested = .ok [.expr expr]) ∧
    ∀ bytecode, session.compile value.renderNested = .ok bytecode → ∃ enough, ∀ steps,
      let verdict := (session.eval value.renderNested steps).1.verdict
      verdict = .value value.ordered ∨ verdict = .error (.runtime .stackOverflow) ∨
        (verdict = .unfinished ∧ steps ≤ enough) := by
  intro session
  refine ⟨h.rearranged_ordered, ?_⟩
  obtain ⟨literal, rfl⟩ := Literal.exists_of_isPlain h
  refine ⟨⟨literal.expr, literal.parse⟩, fun bytecode hcompile => ?_⟩
  have hs : session.Sound := (sound_initial limits).afterAll history
  exact hs.eval_constant literal.parse ⟨literal.core, literal.resolves, literal.computes⟩ hcompile

/-- Negative integers and texts with line breaks are elements of their own source. A hash that
enumerates the key `"32"` in front of `32` is shown with these keys in this order. -/
theorem eval_renderNested_twins :
    let elements : Value := .array [.integer (-5), .text "a\n", .array [.boolean true]]
    let table : Value := .hash [(.text "32", elements), (.integer 32, .array [])]
    (({ limits := ⟨16, 8, 4⟩ } : Session).eval elements.renderNested 20).1.verdict =
      .value elements ∧
    table.renderNested = "\x7b\"32\": [-5, \"a\\n\", [true]], 32: []\x7d" ∧
    table.ordered = .hash [(.integer 32, .array []), (.text "32", elements)] ∧
    (∃ expr, Program.parse table.renderNested = .ok [.expr expr]) ∧
    ∀ bytecode, ({ limits := ⟨16, 8, 4⟩ } : Session).compile table.renderNested = .ok bytecode →
      ∃ enough, ∀ steps,
        let verdict := (({ limits := ⟨16, 8, 4⟩ } : Session).eval table.renderNested steps).1.verdict
        verdict = .value table.ordered ∨ verdict = .error (.runtime .stackOverflow) ∨
          (verdict = .unfinished ∧ steps ≤ enough) := by
  intro elements table
  have htext : (.text "a\n" : Value).IsPlain := by
    refine .text ?_
    show ∀ c ∈ ['a', '\n'], Lexeme.IsPlain c
    rw [List.forall_mem_cons, List.forall_mem_singleton]
    decide
  have hkey : (.text "32" : Value).IsPlain := by
    refine .text ?_
    show ∀ c ∈ ['3', '2'], Lexeme.IsPlain c
    rw [List.forall_mem_cons, List.forall_mem_singleton]
    decide
  have helements : elements.IsPlain := by
    refine .array ?_
    rw [List.forall_mem_cons, List.forall_mem_cons, List.forall_mem_singleton]
    exact ⟨.integer (by decide), htext, .array (List.forall_mem_singleton.mpr (.boolean true))⟩
  have htable : table.IsPlain := by
    refine .hash (by decide) ?keys ?values
    case keys =>
        rw [List.forall_mem_cons, List.forall_mem_singleton]
        exact ⟨hkey, .integer (by decide)⟩
    case values =>
        rw [List.forall_mem_cons, List.forall_mem_singleton]
        exact ⟨helements, .array (List.forall_mem_nil _)⟩
  have hcompiles :
      (({ limits := ⟨16, 8, 4⟩ } : Session).compile elements.renderNested).isOk = true := by
    decide +kernel
  have hverdict : (({ limits := ⟨16, 8, 4⟩ } : Session).eval
      elements.renderNested 20).1.verdict.ctorIdx = 0 := by
    decide +kernel
  obtain ⟨bytecode, hcompile⟩ := Except.exists_of_isOk hcompiles
  obtain ⟨result, hresult⟩ := Verdict.exists_of_ctorIdx hverdict
  obtain ⟨-, -, heval⟩ := eval_renderNested ⟨16, 8, 4⟩ [] helements
  obtain ⟨enough, hsteps⟩ := heval bytecode hcompile
  have hrender : table.renderNested = "\x7b\"32\": [-5, \"a\\n\", [true]], 32: []\x7d" := by
    rw [ValueOver.renderNested, ValueOver.renderWith_hash_of_same_text true (by decide +kernel)]
    decide +kernel
  refine ⟨?_, hrender, rfl, (eval_renderNested ⟨16, 8, 4⟩ [] htable).2⟩
  rcases hsteps 20 with hends | hends | ⟨hends, -⟩
  · exact hends
  · cases hresult.symm.trans hends
  · cases hresult.symm.trans hends

end Session

end StackScript
