import StackScript.Proofs.Core.Compositional
import StackScript.Proofs.Core.Eval
import StackScript.Proofs.Value.Related

/-!
# The errors of evaluations

An evaluation fails only when a program does with values what cannot be done with them. It knows
nothing of code, of a stack or of limits, and so never fails with an error that speaks of these.
-/

namespace StackScript

open StackScript.Core

/-- An error says that a program does with values what cannot be done with them, or that it returns
outside of functions. -/
inductive RuntimeError.OfProgram : RuntimeError → Prop
  | typeMismatch (left op right : String) : OfProgram (.typeMismatch left op right)
  | unknownOperator (operation : String) : OfProgram (.unknownOperator operation)
  | divisionByZero : OfProgram .divisionByZero
  | notCallable (type : String) : OfProgram (.notCallable type)
  | wrongArgumentCount (want got : Nat) : OfProgram (.wrongArgumentCount want got)
  | unhashableKey (type : String) : OfProgram (.unhashableKey type)
  | indexNotSupported (operation : String) : OfProgram (.indexNotSupported operation)
  | returnOutsideFunction : OfProgram .returnOutsideFunction
  | builtin (name message : String) : OfProgram (.builtin name message)

theorem ofProgram_operatorError (symbol : String) (left right : ValueOver C) :
    (operatorError symbol left right).OfProgram := by
  unfold operatorError
  split
  · exact .unknownOperator _
  · exact .typeMismatch _ _ _

/-- A computation fails only with errors of programs. -/
def Except.Blames (result : Except RuntimeError α) : Prop :=
  ∀ error, result = .error error → error.OfProgram

theorem Except.blames_ok (value : α) : Except.Blames (.ok value) :=
  nofun

theorem Except.blames_error {error : RuntimeError} (h : error.OfProgram) :
    Except.Blames (.error error : Except RuntimeError α) := by
  rintro _ ⟨⟩
  exact h

theorem Except.Blames.map {result : Except RuntimeError α} (h : Except.Blames result) (f : α → β) :
    Except.Blames (result.map f) := by
  cases result with
  | ok value => exact Except.blames_ok _
  | error error => exact Except.blames_error (h error rfl)

theorem Arithmetic.blames (op : Arithmetic) (left right : ValueOver C) :
    Except.Blames (op.apply left right) := by
  unfold Arithmetic.apply
  split
  case h_1 m n =>
      apply Except.Blames.map
      unfold Arithmetic.onIntegers
      split
      case h_4 =>
          split
          · exact Except.blames_error .divisionByZero
          · exact Except.blames_ok _
      all_goals exact Except.blames_ok _
  case h_2 =>
      split
      · exact Except.blames_ok _
      · exact Except.blames_error (ofProgram_operatorError _ _ _)
  case h_3 => exact Except.blames_error (ofProgram_operatorError _ _ _)

theorem Comparison.blames (op : Comparison) (left right : ValueOver C) :
    Except.Blames (op.apply left right) := by
  unfold Comparison.apply
  split
  · exact Except.blames_ok _
  · exact Except.blames_error (ofProgram_operatorError _ _ _)

namespace ValueOver

theorem blames_negate (value : ValueOver C) : Except.Blames value.negate := by
  unfold negate
  split
  · exact Except.blames_ok _
  · exact Except.blames_error (.unknownOperator _)

theorem blames_element (collection position : ValueOver C) :
    Except.Blames (collection.element position) := by
  unfold element
  split
  case h_1 =>
      split
      · exact Except.blames_ok _
      · exact Except.blames_ok _
  case h_2 =>
      split
      · exact Except.blames_error (.unhashableKey _)
      · exact Except.blames_ok _
  case h_3 => exact Except.blames_error (.indexNotSupported _)

theorem blames_pairUp (values : List (ValueOver C)) : Except.Blames (pairUp values) := by
  fun_induction pairUp values with
  | case1 key value values hkey => exact Except.blames_error (.unhashableKey _)
  | case2 key value values k hkey ih => exact ih.map _
  | case3 values hshort => exact Except.blames_ok _

end ValueOver

namespace Core

theorem Unary.blames (op : Unary) (value : ValueOver C) : Except.Blames (op.apply value) := by
  cases op with
  | negate => exact value.blames_negate
  | not => exact Except.blames_ok _

theorem Binary.blames (op : Binary) (left right : ValueOver C) :
    Except.Blames (op.apply left right) := by
  cases op with
  | arithmetic op => exact op.blames left right
  | comparison op => exact op.blames left right
  | element => exact left.blames_element right

theorem Collection.blames (kind : Collection) (values : List (ValueOver C)) :
    Except.Blames (kind.apply values) := by
  cases kind with
  | array => exact Except.blames_ok _
  | hash => exact (ValueOver.blames_pairUp values).map _

/-- An evaluation fails only with errors of programs. -/
def Blames (action : Eval α) : Prop :=
  ∀ state error final, action state = .error (.failed error) final → error.OfProgram

theorem Blames.bind {first : Eval α} {next : α → Eval β} (h : Blames first)
    (hn : ∀ value, Blames (next value)) : Blames (first >>= next) := by
  intro state error final heq
  change EStateM.bind first next state = _ at heq
  unfold EStateM.bind at heq
  cases hr : first state with
  | ok value after =>
      rw [hr] at heq
      exact hn value after error final heq
  | error interrupt after =>
      rw [hr] at heq
      cases heq
      exact h state error final hr

theorem blames_pure (value : α) : Blames (pure value : Eval α) :=
  nofun

theorem blames_returned (value : Datum) : Blames (throw (.returned value) : Eval α) :=
  nofun

theorem blames_failed {error : RuntimeError} (h : error.OfProgram) :
    Blames (throw (.failed error) : Eval α) := by
  rintro state _ _ ⟨⟩
  exact h

theorem blames_ofExcept {result : Except RuntimeError Datum} (h : Except.Blames result) :
    Blames (ofExcept result) := by
  cases result with
  | ok value => exact blames_pure value
  | error error => exact blames_failed (h error rfl)

theorem blames_apply {enter : Enter} (he : ∀ fn free arguments, Blames (enter fn free arguments))
    (value : Datum) (arguments : List Datum) : Blames (apply enter value arguments) := by
  unfold apply
  split
  case h_1 =>
      split
      · exact he _ _ _
      · exact blames_failed (.wrongArgumentCount _ _)
  case h_2 builtin arguments =>
      split
      · exact blames_failed (.builtin _ _)
      · exact .bind nofun fun _ => blames_pure _
  case h_3 => exact blames_failed (.notCallable _)

section

variable (enter : Enter)

theorem blames_evalAll {self : Activation} {exprs : List Expr}
    (h : ∀ expr ∈ exprs, ∀ self, Blames (expr.eval enter self)) :
    Blames (Expr.evalAll enter self exprs) := by
  induction exprs with
  | nil => exact blames_pure _
  | cons expr exprs ih =>
      rw [List.forall_mem_cons] at h
      exact .bind (h.1 self) fun _ => .bind (ih h.2) fun _ => blames_pure _

/-- Wholes fail only with errors of programs if their parts do, and if entering functions does. -/
theorem compositional_blames (he : ∀ fn free arguments, Blames (enter fn free arguments)) :
    Compositional (fun expr => ∀ self, Blames (expr.eval enter self))
      (fun stmt => ∀ self, Blames (stmt.exec enter self))
      (fun block => ∀ self, Blames (block.eval enter self)) where
  integer value _ := blames_pure _
  text value _ := blames_pure _
  boolean value _ := blames_pure _
  name symbol _ := .bind nofun fun _ => blames_pure _
  unary op argument h self := .bind (h self) fun value => blames_ofExcept (op.blames value)
  binary op left right hl hr self :=
    .bind (hl self) fun value => .bind (hr self) fun value' => blames_ofExcept (op.blames value value')
  condition test consequent alternative ht hc ha self := by
    refine .bind (ht self) fun value => ?_
    split
    · exact hc self
    · exact ha self
  function name parameters locals captures body _ self := .bind nofun fun _ => blames_pure _
  call callee arguments hc ha self :=
    .bind (hc self) fun value => .bind (blames_evalAll enter ha) fun values =>
      blames_apply he value values
  collect kind elements h self :=
    .bind (blames_evalAll enter h) fun values => blames_ofExcept (kind.blames values)
  store symbol value h self := .bind (h self) fun _ => nofun
  discard value h self := .bind (h self) fun _ => nofun
  returnValue value h self := .bind (h self) fun _ => blames_returned _
  returnNull _ := blames_returned _
  null _ := blames_pure _
  value result h self := h self
  next stmt rest hs hr self := .bind (hs self) fun _ => hr self

end

theorem blames_enter (fuel : Nat) : ∀ fn free arguments, Blames (enter fuel fn free arguments) := by
  induction fuel with
  | zero => exact nofun
  | succ fuel ih =>
      intro fn free arguments state error final heq
      have hbody := (compositional_blames (enter fuel) ih).block fn.code (.call fn free)
        { state with
          locals := arguments ++ List.replicate (fn.locals - arguments.length) .null }
      simp only [enter] at heq
      generalize fn.code.eval _ _ _ = result at heq hbody
      rcases result with _ | ⟨_ | error' | _, final'⟩
      · cases heq
      · cases heq
      · cases heq
        exact hbody error final rfl
      · cases heq

theorem blames_execAll (fuel : Nat) (stmts : List Stmt) :
    Blames (execAll (enter fuel) stmts) := by
  induction stmts with
  | nil => exact blames_pure _
  | cons stmt stmts ih =>
      exact .bind ((compositional_blames _ (blames_enter fuel)).statement stmt .program) fun _ => ih

/-- A program fails only with an error of programs. -/
theorem ofProgram_of_run {fuel : Nat} {stmts : List Stmt} {world after : World}
    {error : RuntimeError} (h : run fuel stmts world = (.failed error, after)) :
    error.OfProgram := by
  have hexec := blames_execAll fuel stmts { world with locals := [] }
  unfold run at h
  generalize execAll (enter fuel) stmts _ = result at h hexec
  rcases result with _ | ⟨_ | error' | _, final⟩
  · cases h
  · cases h
    exact .returnOutsideFunction
  · cases h
    exact hexec error final rfl
  · cases h

end Core

theorem Program.ofProgram_of_meaning {fuel : Nat} {program : Program} {scope : Scope}
    {world after : World} {error : RuntimeError}
    (h : program.meaning fuel scope world = .ok (.failed error, after)) : error.OfProgram := by
  obtain ⟨⟨stmts, later⟩, -, h⟩ := Except.bind_eq_ok_iff.mp h
  exact ofProgram_of_run (Except.ok.inj h)

end StackScript
