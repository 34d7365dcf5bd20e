import StackScript.Proofs.Core.Compositional

/-!
# Symbols that stand for something

A part of a core program fits bounds if every symbol in it stands for a place below them. Functions
have bounds of their own: their local slots, and the values that they capture where they are made.
-/

namespace StackScript

open StackScript.Core

/-- How many globals, locals and captured values there are, and whether a function is running. -/
structure Bounds where
  names : Nat
  locals : Nat
  captures : Nat
  inside : Bool

/-- There is at least as much of everything. -/
structure Bounds.Le (bounds wider : Bounds) : Prop where
  names : bounds.names ≤ wider.names
  locals : bounds.locals ≤ wider.locals
  captures : bounds.captures ≤ wider.captures
  inside : bounds.inside = true → wider.inside = true

/-- The bounds in a function. -/
def Bounds.within (names locals captures : Nat) : Bounds :=
  ⟨names, locals, captures, true⟩

theorem Bounds.within_le {names names' : Nat} (h : names ≤ names') (locals captures : Nat) :
    (within names locals captures).Le (within names' locals captures) :=
  ⟨h, Nat.le_refl locals, Nat.le_refl captures, id⟩

/-- The bounds of a program outside of its functions. -/
def Bounds.outside (names : Nat) : Bounds :=
  ⟨names, 0, 0, false⟩

namespace Symbol

/-- The symbol stands for a place below the bounds. -/
def Fits (symbol : Symbol) (bounds : Bounds) : Prop :=
  match symbol.place with
  | .global => symbol.index < bounds.names
  | .local => symbol.index < bounds.locals
  | .builtin => symbol.index < Builtin.all.length
  | .free => symbol.index < bounds.captures
  | .function => bounds.inside = true

/-- The symbol stands for a slot that a statement may write to. -/
def IsVariable (symbol : Symbol) : Prop :=
  symbol.place = .global ∨ symbol.place = .local

theorem Fits.mono {symbol : Symbol} {bounds wider : Bounds} (h : symbol.Fits bounds)
    (hw : bounds.Le wider) : symbol.Fits wider := by
  unfold Fits at h ⊢
  cases hp : symbol.place with
  | global =>
      simp only [hp] at h
      exact Nat.lt_of_lt_of_le h hw.names
  | «local» =>
      simp only [hp] at h
      exact Nat.lt_of_lt_of_le h hw.locals
  | builtin => simpa only [hp] using h
  | free =>
      simp only [hp] at h
      exact Nat.lt_of_lt_of_le h hw.captures
  | function =>
      simp only [hp] at h
      exact hw.inside h

end Symbol

namespace Core

mutual

/-- Every symbol of an expression fits. -/
def Expr.Fits (expr : Expr) (bounds : Bounds) : Prop :=
  match expr with
  | .integer _ | .text _ | .boolean _ => True
  | .name symbol => symbol.Fits bounds
  | .unary _ argument => argument.Fits bounds
  | .binary _ left right => left.Fits bounds ∧ right.Fits bounds
  | .condition test consequent alternative =>
    test.Fits bounds ∧ consequent.Fits bounds ∧ alternative.Fits bounds
  | .function _ _ locals captures body =>
    (∀ symbol ∈ captures, symbol.Fits bounds) ∧
      body.Fits (.within bounds.names locals captures.length)
  | .call callee arguments => callee.Fits bounds ∧ Expr.AllFit arguments bounds
  | .collect _ elements => Expr.AllFit elements bounds
termination_by structural expr

/-- Every symbol of several expressions fits. -/
def Expr.AllFit (exprs : List Expr) (bounds : Bounds) : Prop :=
  match exprs with
  | [] => True
  | expr :: exprs => expr.Fits bounds ∧ Expr.AllFit exprs bounds

/-- Every symbol of a statement fits, and stands for a variable where it is written to. -/
def Stmt.Fits (stmt : Stmt) (bounds : Bounds) : Prop :=
  match stmt with
  | .store symbol value => symbol.IsVariable ∧ symbol.Fits bounds ∧ value.Fits bounds
  | .discard value | .returnValue value => value.Fits bounds
  | .returnNull => True

/-- Every symbol of a block fits. -/
def Block.Fits (block : Block) (bounds : Bounds) : Prop :=
  match block with
  | .null => True
  | .value result => result.Fits bounds
  | .next stmt rest => stmt.Fits bounds ∧ rest.Fits bounds

end

theorem Expr.allFit_iff {exprs : List Expr} {bounds : Bounds} :
    Expr.AllFit exprs bounds ↔ ∀ expr ∈ exprs, expr.Fits bounds := by
  induction exprs with
  | nil => simp [Expr.AllFit]
  | cons expr exprs ih => simp [Expr.AllFit, ih]

theorem Block.fits_ofStmts {stmts : List Stmt} {bounds : Bounds}
    (h : ∀ stmt ∈ stmts, stmt.Fits bounds) : (Block.ofStmts stmts).Fits bounds := by
  fun_induction Block.ofStmts stmts with
  | case1 => exact trivial
  | case2 last => exact h (.discard last) (by simp)
  | case3 stmt stmts _ ih =>
      rw [List.forall_mem_cons] at h
      exact ⟨h.1, ih h.2⟩

/-- What fits bounds fits wider ones. -/
theorem compositional_mono : Compositional
    (fun expr => ∀ bounds wider : Bounds, bounds.Le wider → expr.Fits bounds → expr.Fits wider)
    (fun stmt => ∀ bounds wider : Bounds, bounds.Le wider → stmt.Fits bounds → stmt.Fits wider)
    (fun block => ∀ bounds wider : Bounds, bounds.Le wider → block.Fits bounds → block.Fits wider)
    where
  integer _ _ _ _ h := h
  text _ _ _ _ h := h
  boolean _ _ _ _ h := h
  name _ _ _ hw h := h.mono hw
  unary _ _ ha bounds wider hw h := ha bounds wider hw h
  binary _ _ _ hl hr bounds wider hw h := ⟨hl bounds wider hw h.1, hr bounds wider hw h.2⟩
  condition _ _ _ ht hc ha bounds wider hw h :=
    ⟨ht bounds wider hw h.1, hc bounds wider hw h.2.1, ha bounds wider hw h.2.2⟩
  function _ _ _ _ _ hb _ _ hw h :=
    ⟨fun symbol hm => (h.1 symbol hm).mono hw, hb _ _ (Bounds.within_le hw.names _ _) h.2⟩
  call _ _ hc ha bounds wider hw h :=
    ⟨hc bounds wider hw h.1, Expr.allFit_iff.mpr fun expr hm =>
      ha expr hm bounds wider hw (Expr.allFit_iff.mp h.2 expr hm)⟩
  collect _ _ he bounds wider hw h := Expr.allFit_iff.mpr fun expr hm =>
    he expr hm bounds wider hw (Expr.allFit_iff.mp h expr hm)
  store _ _ hv bounds wider hw h := ⟨h.1, h.2.1.mono hw, hv bounds wider hw h.2.2⟩
  discard _ hv bounds wider hw h := hv bounds wider hw h
  returnValue _ hv bounds wider hw h := hv bounds wider hw h
  returnNull _ _ _ h := h
  null _ _ _ h := h
  value _ hv bounds wider hw h := hv bounds wider hw h
  next _ _ hs hr bounds wider hw h := ⟨hs bounds wider hw h.1, hr bounds wider hw h.2⟩

theorem Expr.Fits.mono {expr : Expr} {bounds wider : Bounds} (h : expr.Fits bounds)
    (hw : bounds.Le wider) : expr.Fits wider :=
  compositional_mono.expression expr bounds wider hw h

theorem Stmt.Fits.mono {stmt : Stmt} {bounds wider : Bounds} (h : stmt.Fits bounds)
    (hw : bounds.Le wider) : stmt.Fits wider :=
  compositional_mono.statement stmt bounds wider hw h

theorem Block.Fits.mono {block : Block} {bounds wider : Bounds} (h : block.Fits bounds)
    (hw : bounds.Le wider) : block.Fits wider :=
  compositional_mono.block block bounds wider hw h

end Core

end StackScript
