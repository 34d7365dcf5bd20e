import Mathlib.Data.Int.ModEq
import StackScript.Proofs.Session.Safety
import StackScript.Proofs.Simulation.Constant

/-!
# Evaluating constant expressions

A session gives the value of a constant expression, unless the stack is full. Arithmetic is an
instance: it is exact modulo `2 ^ 64`, because each operation of the machine is the residue of the
operation on integers, whatever its operands have been reduced from.
-/

namespace StackScript

/-- An expression resolves to one that comes to a value by operations on constants, in every
scope. -/
def Expr.ComesTo (expr : Expr) (value : Value) : Prop :=
  ∃ core : Core.Expr, expr.ResolvesTo core ∧ core.Computes value

namespace Expr.ComesTo

theorem negate {argument : Expr} {value result : Value} (h : argument.ComesTo value)
    (hr : value.negate = .ok result) : (Expr.unary .minus argument).ComesTo result := by
  obtain ⟨core, hres, hc⟩ := h
  exact ⟨.unary .negate core, hres.negate, hc.unary hr⟩

theorem binary {op : BinaryOp} {left right : Expr} {first second result : Value}
    (hl : left.ComesTo first) (hs : right.ComesTo second) (hop : op ≠ .less)
    (hr : op.operation.apply first second = .ok result) :
    (Expr.binary op left right).ComesTo result := by
  obtain ⟨core, hres, hc⟩ := hl
  obtain ⟨core', hres', hc'⟩ := hs
  exact ⟨.binary op.operation core core', .binary hop hres hres', hc.binary hc' hr⟩

end Expr.ComesTo

namespace Session

/-- The program of a constant expression gives its value, or the stack is full. -/
theorem Sound.run_constant {session : Session} (hs : session.Sound) {expr : Expr}
    {value : Value} (hc : expr.ComesTo value) {bytecode : Bytecode} {assembly : Assembly}
    (h : Program.compile [.expr expr] session.assembly = .ok (bytecode, assembly)) :
    ∃ enough, ∀ steps,
      let run := (Machine.start bytecode session.limits session.globals).run steps
      run.evaluation.verdict = .value value ∨
        run.evaluation.verdict = .error (.runtime .stackOverflow) ∨
        (run.evaluation.verdict = .unfinished ∧ steps ≤ enough) := by
  obtain ⟨core, hres, hc⟩ := hc
  obtain ⟨values, hvalues⟩ := hs.globals
  obtain ⟨enough, hrun⟩ := Program.run_constant hres hc hs.ready h hs.size hvalues
  refine ⟨enough, fun steps => ?_⟩
  dsimp only
  rcases hrun steps with ⟨machine, heq, hvalue⟩ | ⟨machine, heq⟩ | ⟨⟨machine, heq⟩, hle⟩
  · exact .inl (by rw [heq, Run.evaluation, hvalue])
  · exact .inr (.inl (by rw [heq, Run.evaluation]))
  · exact .inr (.inr ⟨by rw [heq, Run.evaluation], hle⟩)

theorem exists_of_compile {session : Session} {source : String} {program : Program}
    {bytecode : Bytecode} (hp : Program.parse source = .ok program)
    (h : session.compile source = .ok bytecode) :
    ∃ assembly, program.compile session.assembly = .ok (bytecode, assembly) := by
  rw [Session.compile, compileSource, hp] at h
  cases hc : program.compile session.assembly with
  | error error =>
      simp [hc, Except.mapError, Except.map, bind, Except.bind] at h
  | ok result =>
      obtain rfl : result.1 = bytecode := by
        simpa [hc, Except.mapError, Except.map, bind, Except.bind] using h
      exact ⟨result.2, rfl⟩

/-- A source that is a constant expression gives its value if it compiles, or the stack is full. -/
theorem Sound.eval_constant {session : Session} (hs : session.Sound) {source : String} {expr : Expr}
    (hp : Program.parse source = .ok [.expr expr]) {value : Value} (hc : expr.ComesTo value)
    {bytecode : Bytecode} (h : session.compile source = .ok bytecode) :
    ∃ enough, ∀ steps,
      let verdict := (session.eval source steps).1.verdict
      verdict = .value value ∨ verdict = .error (.runtime .stackOverflow) ∨
        (verdict = .unfinished ∧ steps ≤ enough) := by
  obtain ⟨assembly, hprogram⟩ := exists_of_compile hp h
  obtain ⟨enough, hrun⟩ := hs.run_constant hc hprogram
  refine ⟨enough, fun steps => ?_⟩
  have heval : (session.eval source steps).1 =
      ((Machine.start bytecode session.limits session.globals).run steps).evaluation := by
    rw [Session.eval, hp]
    simp only [Session.evalProgram, hprogram]
  rw [heval]
  exact hrun steps

end Session

/-! ## Arithmetic -/

/-- An expression of integer literals, sums, differences, products and negations, and its exact
value. -/
inductive Expr.Amounts : Expr → Int → Prop
  | integer {value : Int64} (h : 0 ≤ value.toInt) : Amounts (.integer value) value.toInt
  | negate {argument : Expr} {n : Int} (h : Amounts argument n) :
    Amounts (.unary .minus argument) (-n)
  | add {left right : Expr} {m n : Int} (hl : Amounts left m) (hr : Amounts right n) :
    Amounts (.binary .add left right) (m + n)
  | subtract {left right : Expr} {m n : Int} (hl : Amounts left m) (hr : Amounts right n) :
    Amounts (.binary .subtract left right) (m - n)
  | multiply {left right : Expr} {m n : Int} (hl : Amounts left m) (hr : Amounts right n) :
    Amounts (.binary .multiply left right) (m * n)

/-- The machine computes with residues. -/
theorem Expr.Amounts.comesTo {expr : Expr} {n : Int} (h : expr.Amounts n) :
    expr.ComesTo (.integer (Int64.ofInt n)) := by
  induction h with
  | @integer value _ =>
      rw [Int64.ofInt_toInt]
      exact ⟨.integer value, fun _ => rfl, .integer value⟩
  | negate _ ih =>
      rw [Int64.ofInt_neg]
      exact ih.negate rfl
  | add _ _ ihl ihr =>
      rw [Int64.ofInt_add]
      exact ihl.binary ihr (by decide) rfl
  | subtract _ _ ihl ihr =>
      rw [Int64.ofInt_sub]
      exact ihl.binary ihr (by decide) rfl
  | multiply _ _ ihl ihr =>
      rw [Int64.ofInt_mul]
      exact ihl.binary ihr (by decide) rfl

theorem ofInt_eq_of_modEq {m n : Int} (h : m ≡ n [ZMOD 2 ^ 64]) :
    Int64.ofInt m = Int64.ofInt n := by
  have hres : m.bmod (2 ^ 64) = n.bmod (2 ^ 64) := by
    calc
      m.bmod (2 ^ 64) = (m % (2 ^ 64 : Nat)).bmod (2 ^ 64) := (Int.emod_bmod m _).symm
      _ = (n % (2 ^ 64 : Nat)).bmod (2 ^ 64) := congrArg (Int.bmod · _) h
      _ = n.bmod (2 ^ 64) := Int.emod_bmod n _
  rw [Int64.ofInt_eq_iff_bmod_eq_toInt, Int64.toInt_ofInt]
  exact hres

/-- The residue of an integer is the only one in the range of 64 bits that is congruent to it. -/
theorem eq_toInt_ofInt_iff {m n : Int} :
    m = (Int64.ofInt n).toInt ↔ -2 ^ 63 ≤ m ∧ m < 2 ^ 63 ∧ m ≡ n [ZMOD 2 ^ 64] := by
  constructor
  · rintro rfl
    refine ⟨Int64.le_toInt _, Int64.toInt_lt _, ?_⟩
    rw [Int64.toInt_ofInt]
    exact Int.bmod_emod
  · rintro ⟨hlow, hhigh, hcongr⟩
    rw [← ofInt_eq_of_modEq hcongr, Int64.toInt_ofInt_of_le hlow hhigh]

namespace Session

/-- Arithmetic is exact modulo `2 ^ 64`. If a source of sums, differences, products and negations
compiles, its value is the only integer in the range of 64 bits that is congruent to the exact one,
in every session, unless the stack is full. -/
theorem eval_arithmetic (limits : Limits) (history : List (String × Nat)) {source : String}
    {expr : Expr} {n : Int} (hp : Program.parse source = .ok [.expr expr]) (h : expr.Amounts n) :
    let session := ({ limits } : Session).afterAll history
    ∃ result : Int64,
      (∀ m : Int, m = result.toInt ↔ -2 ^ 63 ≤ m ∧ m < 2 ^ 63 ∧ m ≡ n [ZMOD 2 ^ 64]) ∧
      ∀ bytecode, session.compile source = .ok bytecode → ∃ enough, ∀ steps,
        let verdict := (session.eval source steps).1.verdict
        verdict = .value (.integer result) ∨ verdict = .error (.runtime .stackOverflow) ∨
          (verdict = .unfinished ∧ steps ≤ enough) := by
  intro session
  have hs : session.Sound := (sound_initial limits).afterAll history
  exact ⟨Int64.ofInt n, fun _ => eq_toInt_ofInt_iff, fun _ => hs.eval_constant hp h.comesTo⟩

/-- The literals of a difference whose second operand is the product of a literal and a negated
one. -/
def differenceOfProduct? : Except SyntaxError Program → Option (Int64 × Int64 × Int64)
  | .ok [.expr (.binary .subtract (.integer first)
      (.binary .multiply (.integer second) (.unary .minus (.integer third))))] =>
    some (first, second, third)
  | _ => none

theorem exists_of_differenceOfProduct? {parsed : Except SyntaxError Program}
    {first second third : Int64}
    (h : differenceOfProduct? parsed = some (first, second, third)) :
    parsed = .ok [.expr (.binary .subtract (.integer first)
      (.binary .multiply (.integer second) (.unary .minus (.integer third))))] := by
  unfold differenceOfProduct? at h
  split at h
  case h_1 =>
      cases h
      rfl
  case h_2 => cases h

/-- A product beyond the range is subtracted, and the difference is beyond the range as well. -/
theorem eval_arithmetic_beyond_range :
    let source := "3 - 9223372036854775807 * -2"
    (∃ expr, Program.parse source = .ok [.expr expr] ∧ expr.Amounts 18446744073709551617) ∧
    (({ limits := ⟨16, 8, 4⟩ } : Session).eval source 20).1.verdict = .value (.integer 1) := by
  intro source
  have hshape : differenceOfProduct? (Program.parse source) = some (3, Int64.maxValue, 2) := by
    decide +kernel
  have hparse := exists_of_differenceOfProduct? hshape
  have hamounts := Expr.Amounts.subtract (.integer (by decide : 0 ≤ (3 : Int64).toInt))
    (.multiply (.integer (by decide : 0 ≤ Int64.maxValue.toInt))
      (.negate (.integer (by decide : 0 ≤ (2 : Int64).toInt))))
  have hcompiles : (({ limits := ⟨16, 8, 4⟩ } : Session).compile source).isOk = true := by
    decide +kernel
  have hverdict : (({ limits := ⟨16, 8, 4⟩ } : Session).eval source 20).1.verdict.ctorIdx = 0 := by
    decide +kernel
  obtain ⟨bytecode, hcompile⟩ := Except.exists_of_isOk hcompiles
  obtain ⟨value, hvalue⟩ := Verdict.exists_of_ctorIdx hverdict
  obtain ⟨result, hresult, hsteps⟩ := eval_arithmetic ⟨16, 8, 4⟩ [] hparse hamounts
  obtain ⟨enough, hsteps⟩ := hsteps bytecode hcompile
  obtain rfl : result = 1 := by
    have hone := (hresult 1).mpr ⟨by decide, by decide, by decide⟩
    exact Int64.toInt_inj.mp hone.symm
  refine ⟨⟨_, hparse, hamounts⟩, ?_⟩
  rcases hsteps 20 with hends | hends | ⟨hends, -⟩
  · exact hends
  · cases hvalue.symm.trans hends
  · cases hvalue.symm.trans hends

end Session

end StackScript
