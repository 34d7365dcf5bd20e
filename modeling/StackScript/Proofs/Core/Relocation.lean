import StackScript.Proofs.Core.Sound
import StackScript.Proofs.Machine.Execution

/-!
# Relocation

The code of a program at another offset is the same code with its jumps leading as much further. Its
functions do not change at all.
-/

namespace StackScript

namespace Instruction

/-- An instruction for code that has been moved by an offset. -/
def shift (offset : Nat) (instruction : Instruction) : Instruction :=
  if instruction.Jumps then ⟨instruction.op, instruction.operands.map (offset + ·)⟩ else instruction

variable {offset : Nat} {instruction : Instruction}

theorem shift_of_not_jumps (h : ¬ instruction.Jumps) : instruction.shift offset = instruction :=
  if_neg h

@[simp] theorem op_shift : (instruction.shift offset).op = instruction.op := by
  unfold shift
  split <;> rfl

@[simp] theorem size_shift : (instruction.shift offset).size = instruction.size := by
  rw [size, op_shift, size]

@[simp] theorem sizes_map_shift (instructions : List Instruction) :
    sizes (instructions.map (shift offset)) = sizes instructions := by
  simp [sizes, Function.comp_def]

theorem shift_zero : instruction.shift 0 = instruction := by
  unfold shift
  split <;> simp

/-- A jump leads as much further as the code has been moved. -/
theorem first_shift (offset : Nat) {target : Nat} (h : instruction.target? = some target) :
    instruction.first = target ∧ (instruction.shift offset).first = offset + target := by
  unfold target? at h
  split at h
  · obtain rfl := Option.some.inj h
    exact ⟨rfl, rfl⟩
  · obtain rfl := Option.some.inj h
    exact ⟨rfl, rfl⟩
  · cases h

theorem not_jumps_load (symbol : Symbol) : ¬ symbol.load.Jumps := by
  unfold Symbol.load Jumps
  cases symbol.place <;> simp

theorem not_jumps_store (symbol : Symbol) : ¬ symbol.store.Jumps := by
  unfold Symbol.store Jumps
  split <;> simp

theorem not_reflects_store (symbol : Symbol) : ¬ symbol.store.Reflects := by
  unfold Symbol.store Reflects
  split <;> simp

/-- Outside of functions there is no closure that a symbol could stand for. -/
theorem not_reflects_load {symbol : Symbol} {names : Nat} (h : symbol.Fits (.outside names)) :
    ¬ symbol.load.Reflects := by
  unfold Symbol.Fits at h
  unfold Symbol.load Reflects
  cases hp : symbol.place <;> simp_all [Bounds.outside]

end Instruction

open Instruction

namespace Core

namespace Generator

/-- The code may be moved, and looks at no closure that runs. -/
structure Portable (generator : Generator) : Prop where
  code : ∀ offset start pool, (generator (offset + start) pool).code =
    (generator start pool).code.map (shift offset)
  constants : ∀ offset start pool, (generator (offset + start) pool).constants =
    (generator start pool).constants
  plain : ∀ start pool, ∀ instruction ∈ (generator start pool).code, ¬ instruction.Reflects

variable {first second : Generator}

theorem portable_empty : empty.Portable where
  code _ _ _ := rfl
  constants _ _ _ := rfl
  plain _ _ := List.forall_mem_nil _

/-- One instruction that does neither jump nor look at the closure that runs. -/
theorem portable_single {instruction : Instruction} (hj : ¬ instruction.Jumps)
    (hr : ¬ instruction.Reflects) : (single instruction).Portable where
  code offset _ _ := by simp [single, shift_of_not_jumps hj]
  constants _ _ _ := rfl
  plain _ _ := by simpa [single] using hr

theorem portable_constant (value : Constant) : (constant value).Portable where
  code offset _ pool := by
    have hj : ¬ Instruction.Jumps ⟨.constant, [pool]⟩ := by simp [Jumps]
    simp [constant, shift_of_not_jumps hj]
  constants _ _ _ := rfl
  plain _ _ := by simp [constant, Reflects]

theorem Portable.append (hf : first.Portable) (hs : second.Portable) :
    (first ++ second).Portable where
  code offset start pool := by
    simp only [append_apply, hf.code, hf.constants, sizes_map_shift, Nat.add_assoc, hs.code,
      List.map_append]
  constants offset start pool := by
    simp only [append_apply, hf.code, hf.constants, sizes_map_shift, Nat.add_assoc, hs.constants]
  plain start pool :=
    List.forall_mem_append.mpr ⟨hf.plain start pool, hs.plain _ _⟩

theorem Portable.branches (hf : first.Portable) (hs : second.Portable) :
    (branches first second).Portable where
  code offset start pool := by
    have hunless (target : Nat) : shift offset ⟨.jumpUnless, [target]⟩ =
      ⟨.jumpUnless, [offset + target]⟩ := rfl
    have hjump (target : Nat) : shift offset ⟨.jump, [target]⟩ = ⟨.jump, [offset + target]⟩ := rfl
    simp only [Generator.branches, Nat.add_assoc, hf.code, hf.constants, sizes_map_shift, hs.code,
      List.map_append, List.map_cons, hunless, hjump]
  constants offset start pool := by
    simp only [Generator.branches, Nat.add_assoc, hf.code, hf.constants, sizes_map_shift,
      hs.constants]
  plain start pool := by
    obtain ⟨middle, last, heq, -⟩ := branches_apply first second start pool
    rw [heq]
    simp only [append_apply, single, List.forall_mem_append, List.forall_mem_singleton]
    exact ⟨⟨by simp [Reflects], hf.plain _ _⟩, by simp [Reflects], hs.plain _ _⟩

/-- A closure is made of the same function wherever this is done. -/
theorem portable_closure {name : Option String} {parameters locals names : Nat}
    {captures : List Symbol} (hc : ∀ symbol ∈ captures, symbol.Fits (.outside names))
    (body : Generator) : (closure name parameters locals captures body).Portable where
  code offset start pool := by
    have hloads : (captures.map Symbol.load).map (shift offset) = captures.map Symbol.load := by
      rw [List.map_map]
      exact List.map_congr_left fun symbol _ => shift_of_not_jumps (not_jumps_load symbol)
    have hclosure (operands : List Nat) : shift offset ⟨.closure, operands⟩ = ⟨.closure, operands⟩ :=
      shift_of_not_jumps (by simp [Jumps])
    simp only [closure, List.map_append, hloads, List.map_cons, List.map_nil, hclosure]
  constants _ _ _ := rfl
  plain start pool := by
    refine List.forall_mem_append.mpr ⟨?_, by simp [Reflects]⟩
    rw [List.forall_mem_map]
    exact fun symbol hm => not_reflects_load (hc symbol hm)

end Generator

open Generator

/-- The code of an expression outside of functions is portable. -/
def Expr.Portable (expr : Expr) : Prop :=
  ∀ names, expr.Fits (.outside names) → expr.generate.Portable

/-- The code of a statement outside of functions is portable. -/
def Stmt.Portable (stmt : Stmt) : Prop :=
  ∀ names, stmt.Fits (.outside names) → stmt.generate.Portable

/-- The code of a branch outside of functions is portable. -/
def Block.Portable (block : Block) : Prop :=
  ∀ names, block.Fits (.outside names) → block.generate.Portable

theorem Expr.generateAll_portable {exprs : List Expr} (hs : ∀ expr ∈ exprs, expr.Portable)
    {names : Nat} (h : Expr.AllFit exprs (.outside names)) :
    (Expr.generateAll exprs).Portable := by
  induction exprs with
  | nil => exact portable_empty
  | cons expr exprs ih =>
      rw [List.forall_mem_cons] at hs
      exact (hs.1 names h.1).append (ih hs.2 h.2)

/-- Wholes are portable if their parts are. -/
theorem compositional_portable : Compositional Expr.Portable Stmt.Portable Block.Portable where
  integer _ _ _ := portable_constant _
  text _ _ _ := portable_constant _
  boolean value _ _ := by
    cases value <;> exact portable_single (by simp [Jumps]) (by simp [Reflects])
  name symbol _ h := portable_single (not_jumps_load symbol) (not_reflects_load h)
  unary op argument ha names h := by
    refine (ha names h).append (portable_single ?_ ?_)
    · cases op <;> simp [Jumps, Unary.opcode]
    · cases op <;> simp [Reflects, Unary.opcode]
  binary op left right hl hr names h := by
    refine ((hl names h.1).append (hr names h.2)).append (portable_single ?_ ?_)
    · rcases op with (_ | _ | _ | _) | (_ | _ | _) | _ <;> simp [Jumps, Binary.opcode]
    · rcases op with (_ | _ | _ | _) | (_ | _ | _) | _ <;> simp [Reflects, Binary.opcode]
  condition test consequent alternative ht hc ha names h :=
    (ht names h.1).append ((hc names h.2.1).branches (ha names h.2.2))
  function name parameters locals captures body _ names h := portable_closure h.1 _
  call callee arguments hc ha names h :=
    ((hc names h.1).append (Expr.generateAll_portable ha h.2)).append
      (portable_single (by simp [Jumps]) (by simp [Reflects]))
  collect kind elements he names h := by
    refine (Expr.generateAll_portable he h).append (portable_single ?_ ?_)
    · cases kind <;> simp [Jumps, Collection.opcode]
    · cases kind <;> simp [Reflects, Collection.opcode]
  store symbol value hv names h :=
    (hv names h.2.2).append (portable_single (not_jumps_store symbol) (not_reflects_store symbol))
  discard value hv names h :=
    (hv names h).append (portable_single (by simp [Jumps]) (by simp [Reflects]))
  returnValue value hv names h :=
    (hv names h).append (portable_single (by simp [Jumps]) (by simp [Reflects]))
  returnNull _ _ := portable_single (by simp [Jumps]) (by simp [Reflects])
  null _ _ := portable_single (by simp [Jumps]) (by simp [Reflects])
  value result hr names h := hr names h
  next stmt rest hs hr names h := (hs names h.1).append (hr names h.2)

/-- The code of statements outside of functions is portable. -/
theorem Stmt.generateAll_portable {stmts : List Stmt} {names : Nat}
    (h : ∀ stmt ∈ stmts, stmt.Fits (.outside names)) : (Stmt.generateAll stmts).Portable := by
  induction stmts with
  | nil => exact portable_empty
  | cons stmt stmts ih =>
      rw [List.forall_mem_cons] at h
      exact (compositional_portable.statement stmt names h.1).append (ih h.2)

end Core

end StackScript
