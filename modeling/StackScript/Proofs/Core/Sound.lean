import StackScript.Proofs.Core.Fit
import StackScript.Proofs.Core.Generate

/-!
# Generated code refers to what there is

Jumps lead forward to other instructions, and the operands of all other instructions stay below the
bounds and inside the pool. Every function of the pool is named by one instruction alone: the one
that is generated with it.
-/

namespace StackScript

open StackScript.Core Instruction

/-- Some constants are in the pool from an index on. -/
def Held (constants : Array Value) (pool : Nat) (added : List Constant) : Prop :=
  ∀ (k : Nat) (constant : Constant), added[k]? = some constant →
    constants[pool + k]? = some constant.toValue

theorem Held.left {constants : Array Value} {pool : Nat} {front back : List Constant}
    (h : Held constants pool (front ++ back)) : Held constants pool front := by
  intro k constant hk
  apply h
  rw [List.getElem?_append_left (List.getElem?_eq_some_iff.mp hk).1, hk]

theorem Held.right {constants : Array Value} {pool : Nat} {front back : List Constant}
    (h : Held constants pool (front ++ back)) : Held constants (pool + front.length) back := by
  intro k constant hk
  rw [Nat.add_assoc]
  apply h
  rw [List.getElem?_append_right (by omega), Nat.add_sub_cancel_left, hk]

/-- Constants behind others are in the pool from the end of the others on. -/
theorem held_append (constants : Array Value) (added : List Constant) :
    Held (constants ++ (added.map Constant.toValue).toArray) constants.size added := by
  intro k constant hk
  rw [Array.getElem?_append_right (Nat.le_add_right _ _), Nat.add_sub_cancel_left]
  simp [hk]

namespace Opcode

/-- The number that the operand of an instruction lies below, if it refers to something. -/
def limit? (bounds : Bounds) (constants : Nat) : Opcode → Option Nat
  | constant => some constants
  | getGlobal | setGlobal => some bounds.names
  | getLocal | setLocal => some bounds.locals
  | getBuiltin => some Builtin.all.length
  | getFree => some bounds.captures
  | _ => none

theorem limit?_mono {bounds wider : Bounds} {constants more : Nat} (hw : bounds.Le wider)
    (hm : constants ≤ more) {op : Opcode} {limit : Nat} (h : limit ∈ op.limit? wider more) :
    ∃ limit', limit' ∈ op.limit? bounds constants ∧ limit' ≤ limit := by
  unfold limit? at h ⊢
  cases op
  case constant =>
      obtain rfl : more = limit := by simpa using h
      exact ⟨constants, rfl, hm⟩
  case getGlobal | setGlobal =>
      obtain rfl : wider.names = limit := by simpa using h
      exact ⟨bounds.names, rfl, hw.names⟩
  case getLocal | setLocal =>
      obtain rfl : wider.locals = limit := by simpa using h
      exact ⟨bounds.locals, rfl, hw.locals⟩
  case getBuiltin => exact ⟨limit, h, Nat.le_refl limit⟩
  case getFree =>
      obtain rfl : wider.captures = limit := by simpa using h
      exact ⟨bounds.captures, rfl, hw.captures⟩
  all_goals simp at h

end Opcode

/-- The second pool starts with the constants of the first one. -/
def Extends (constants more : Array Value) : Prop :=
  ∀ (k : Nat) (value : Value), constants[k]? = some value → more[k]? = some value

theorem Extends.size_le {constants more : Array Value} (h : Extends constants more) :
    constants.size ≤ more.size := by
  apply Nat.le_of_not_lt
  intro hlt
  have hsome := h more.size _ (Array.getElem?_eq_getElem hlt)
  simp at hsome

theorem extends_append (constants added : Array Value) : Extends constants (constants ++ added) := by
  intro k value hk
  rw [Array.getElem?_append_left (Array.getElem?_eq_some_iff.mp hk).1, hk]

namespace Instruction

/-- Where an instruction may jump to. -/
def target? : Instruction → Option Nat
  | ⟨.jump, [target]⟩ | ⟨.jumpUnless, [target]⟩ => some target
  | _ => none

theorem target?_nil (op : Opcode) : target? ⟨op, []⟩ = none := by
  cases op <;> rfl

/-- A jump that has bytes has a target. -/
theorem exists_target?_of_encodable {instruction : Instruction} (he : instruction.Encodable)
    (h : instruction.op = .jump ∨ instruction.op = .jumpUnless) :
    ∃ target, instruction.target? = some target ∧ instruction.operands = [target] := by
  obtain ⟨op, operands⟩ := instruction
  have hlen : operands.length = 1 := by
    have hwidths : op.widths.length = 1 := by rcases h with rfl | rfl <;> rfl
    rw [← hwidths]
    exact he.length_operands
  obtain ⟨target, rfl⟩ := List.length_eq_one_iff.mp hlen
  rcases h with rfl | rfl <;> exact ⟨target, rfl, rfl⟩

/-- Every jump leads to an instruction behind it. -/
def Forward : (start : Nat) → List Instruction → Prop
  | _, [] => True
  | start, instruction :: rest =>
    (∀ target ∈ instruction.target?, ∃ front back, rest = front ++ back ∧ back ≠ [] ∧
      target = start + instruction.size + sizes front) ∧
    Forward (start + instruction.size) rest

/-- The operands of an instruction refer to things that there are. A function captures as many
values as its code takes. -/
structure Refers (bounds : Bounds) (constants : Array Value) (instruction : Instruction) : Prop where
  below : ∀ limit ∈ instruction.op.limit? bounds constants.size,
    ∃ index, instruction.operands = [index] ∧ index < limit
  closure : instruction.op = .closure → ∃ index count fn, instruction.operands = [index, count] ∧
    constants[index]? = some (.function (assembled fn)) ∧
    (∀ other ∈ fn.code, other.Encodable) ∧
    ∀ other ∈ fn.code, other.op = .getFree → ∀ free ∈ other.operands, free < count

/-- How many instructions make closures of the function with an index. -/
def namings (index : Nat) (instructions : List Instruction) : Nat :=
  instructions.countP fun instruction =>
    instruction.op == .closure && instruction.operands.head? == some index

@[simp] theorem namings_append (index : Nat) (front back : List Instruction) :
    namings index (front ++ back) = namings index front + namings index back :=
  List.countP_append

/-- A pool with more constants and wider bounds have all that an instruction refers to. -/
theorem Refers.mono {bounds wider : Bounds} {constants more : Array Value}
    {instruction : Instruction} (h : instruction.Refers bounds constants) (hw : bounds.Le wider)
    (hm : Extends constants more) : instruction.Refers wider more where
  below limit hl := by
    obtain ⟨limit', hl', hle⟩ := Opcode.limit?_mono hw hm.size_le hl
    obtain ⟨index, hoperands, hlt⟩ := h.below limit' hl'
    exact ⟨index, hoperands, Nat.lt_of_lt_of_le hlt hle⟩
  closure hop := by
    obtain ⟨index, count, fn, hoperands, hfn, hrest⟩ := h.closure hop
    exact ⟨index, count, fn, hoperands, hm index _ hfn, hrest⟩

/-- An instruction without limits on its operands refers to nothing. -/
theorem refers_of_none {bounds : Bounds} {constants : Array Value} {instruction : Instruction}
    (hl : instruction.op.limit? bounds constants.size = none) (hc : instruction.op ≠ .closure) :
    instruction.Refers bounds constants where
  below limit hm := by simp [hl] at hm
  closure hop := absurd hop hc

/-- An instruction whose only operand is below its limit refers to what it should. -/
theorem refers_of_lt {bounds : Bounds} {constants : Array Value} {op : Opcode} {index limit : Nat}
    (hl : op.limit? bounds constants.size = some limit) (hlt : index < limit) :
    Refers bounds constants ⟨op, [index]⟩ where
  below limit' hm := by
    obtain rfl : limit = limit' := by simpa [hl] using hm
    exact ⟨index, rfl, hlt⟩
  closure hop := by
    obtain rfl : op = .closure := hop
    simp [Opcode.limit?] at hl

/-- Jumps over what is put in front of a stream are not affected. -/
theorem Forward.cons {start : Nat} {instruction : Instruction} {rest : List Instruction}
    (h : Forward (start + instruction.size) rest) (ht : instruction.target? = none) :
    Forward start (instruction :: rest) :=
  ⟨by simp [ht], h⟩

/-- Instructions that are no jumps in front of jumps that lead forward. -/
theorem Forward.append {start : Nat} {front tail : List Instruction}
    (h : Forward (start + sizes front) tail)
    (ht : ∀ instruction ∈ front, instruction.target? = none) : Forward start (front ++ tail) := by
  induction front generalizing start with
  | nil => exact h
  | cons instruction front ih =>
      rw [List.forall_mem_cons] at ht
      rw [sizes_cons, ← Nat.add_assoc] at h
      exact (ih h ht.2).cons ht.1

end Instruction

namespace Symbol

/-- A symbol that fits is loaded by an instruction that refers to what there is. -/
theorem Fits.load {symbol : Symbol} {bounds : Bounds} (h : symbol.Fits bounds)
    (constants : Array Value) : symbol.load.Refers bounds constants := by
  unfold Fits at h
  unfold Symbol.load
  cases hp : symbol.place with
  | global => exact refers_of_lt rfl (by simpa [hp] using h)
  | «local» => exact refers_of_lt rfl (by simpa [hp] using h)
  | builtin => exact refers_of_lt rfl (by simpa [hp] using h)
  | free => exact refers_of_lt rfl (by simpa [hp] using h)
  | function => exact refers_of_none rfl (by simp)

/-- A variable that fits is stored by an instruction that refers to what there is. -/
theorem Fits.store {symbol : Symbol} {bounds : Bounds} (h : symbol.Fits bounds)
    (hv : symbol.IsVariable) (constants : Array Value) :
    symbol.store.Refers bounds constants := by
  unfold Fits at h
  unfold Symbol.store
  rcases hv with hp | hp
  · rw [if_pos hp]
    exact refers_of_lt rfl (by simpa [hp] using h)
  · rw [if_neg (by simp [hp])]
    exact refers_of_lt rfl (by simpa [hp] using h)

theorem target?_store (symbol : Symbol) : symbol.store.target? = none := by
  unfold Symbol.store
  split <;> rfl

theorem op_store_ne (symbol : Symbol) : symbol.store.op ≠ .closure := by
  unfold Symbol.store
  split <;> simp

theorem target?_load (symbol : Symbol) : symbol.load.target? = none := by
  unfold Symbol.load
  cases symbol.place <;> rfl

theorem op_load_ne (symbol : Symbol) : symbol.load.op ≠ .closure := by
  unfold Symbol.load
  cases symbol.place <;> simp

end Symbol

namespace Core

/-- A constant is a function. -/
def Constant.isFunction : Constant → Bool
  | function _ => true
  | integer _ | text _ => false

/-- How many instructions of a constant make closures of the function with an index. -/
def Constant.namings (index : Nat) : Constant → Nat
  | function fn => Instruction.namings index fn.code
  | integer _ | text _ => 0

/-- How many functions with an index there are among constants from another index on: one or
none. -/
def functionsAt (index pool : Nat) (constants : List Constant) : Nat :=
  (constants.zipIdx pool).countP fun (constant, at') => constant.isFunction && at' == index

theorem functionsAt_append (index pool : Nat) (front back : List Constant) :
    functionsAt index pool (front ++ back) =
      functionsAt index pool front + functionsAt index (pool + front.length) back := by
  simp [functionsAt, List.zipIdx_append]

/-- How many instructions of a fragment make closures of the function with an index. -/
def Fragment.namings (index : Nat) (fragment : Fragment) : Nat :=
  Instruction.namings index fragment.code +
    (fragment.constants.map (Constant.namings index)).sum

/-- The code of a function does its part: its jumps lead forward, it ends with a return, and it
refers to what there is. -/
structure Wellmade (names : Nat) (constants : Array Value)
    (fn : FunctionOver (List Instruction)) : Prop where
  forward : Forward 0 fn.code
  ends : ∃ init last, fn.code = init ++ [last] ∧ (last.op = .returnValue ∨ last.op = .returnNull)
  refers : ∃ captures, ∀ instruction ∈ fn.code,
    instruction.Refers (.within names fn.locals captures) constants

theorem Wellmade.mono {names wider : Nat} {constants more : Array Value}
    {fn : FunctionOver (List Instruction)} (h : Wellmade names constants fn)
    (hw : names ≤ wider) (hm : Extends constants more) : Wellmade wider more fn where
  forward := h.forward
  ends := h.ends
  refers := by
    obtain ⟨captures, hrefers⟩ := h.refers
    exact ⟨captures, fun instruction hi =>
      (hrefers instruction hi).mono (Bounds.within_le hw _ _) hm⟩

/-- No two constants have the same index. -/
theorem functionsAt_le_one (index pool : Nat) (constants : List Constant) :
    functionsAt index pool constants ≤ 1 := by
  have hcount : functionsAt index pool constants ≤
      (((constants.zipIdx pool).map Prod.snd).count index) := by
    rw [List.count_eq_countP, List.countP_map]
    refine List.countP_mono_left fun pair _ h => ?_
    simpa using (Bool.and_eq_true_iff.mp h).2
  have hnodup : ((constants.zipIdx pool).map Prod.snd).Nodup := by
    rw [List.zipIdx_map_snd]
    exact List.nodup_range'
  exact Nat.le_trans hcount (List.nodup_iff_count.mp hnodup index)

namespace Generator

/-- The code refers to what there is, wherever it stands and whatever constants come before, and
each of its functions is named once. -/
structure Sound (bounds : Bounds) (generator : Generator) : Prop where
  refers : ∀ start pool constants, (generator start pool).Encodable →
    Held constants pool (generator start pool).constants →
      ∀ instruction ∈ (generator start pool).code, instruction.Refers bounds constants
  functions : ∀ start pool constants, (generator start pool).Encodable →
    Held constants pool (generator start pool).constants →
      ∀ fn, .function fn ∈ (generator start pool).constants → Wellmade bounds.names constants fn
  named : ∀ start pool index, (generator start pool).namings index =
    functionsAt index pool (generator start pool).constants

/-- The jumps lead forward, if an instruction follows. -/
def Open (generator : Generator) : Prop :=
  ∀ start pool tail, tail ≠ [] → Forward (start + sizes (generator start pool).code) tail →
    Forward start ((generator start pool).code ++ tail)

/-- The jumps lead forward, whether an instruction follows or not. -/
def Closed (generator : Generator) : Prop :=
  ∀ start pool tail, Forward (start + sizes (generator start pool).code) tail →
    Forward start ((generator start pool).code ++ tail)

variable {bounds : Bounds} {first second : Generator}

theorem Sound.append (hf : first.Sound bounds) (hs : second.Sound bounds) :
    (first ++ second).Sound bounds where
  refers start pool constants he hk := by
    rw [append_apply] at he hk ⊢
    exact List.forall_mem_append.mpr ⟨hf.refers start pool constants he.left hk.left,
      hs.refers _ _ constants he.right hk.right⟩
  functions start pool constants he hk fn hm := by
    rw [append_apply] at he hk hm
    rcases List.mem_append.mp hm with hm | hm
    · exact hf.functions start pool constants he.left hk.left fn hm
    · exact hs.functions _ _ constants he.right hk.right fn hm
  named start pool index := by
    have hfirst := hf.named start pool index
    have hsecond := hs.named (start + sizes (first start pool).code)
      (pool + (first start pool).constants.length) index
    simp only [Fragment.namings] at hfirst hsecond
    simp only [append_apply, functionsAt_append, Fragment.namings, namings_append, List.map_append,
      List.sum_append]
    omega

theorem Open.append (hf : first.Open) (hs : second.Open) : (first ++ second).Open := by
  intro start pool tail ht h
  rw [append_apply] at h ⊢
  rw [List.append_assoc]
  refine hf start pool _ (by simp [ht]) (hs _ _ tail ht ?_)
  simpa [Nat.add_assoc] using h

theorem Closed.append (hf : first.Closed) (hs : second.Closed) : (first ++ second).Closed := by
  intro start pool tail h
  rw [append_apply] at h ⊢
  rw [List.append_assoc]
  refine hf start pool _ (hs _ _ tail ?_)
  simpa [Nat.add_assoc] using h

theorem Closed.open (h : first.Closed) : first.Open :=
  fun start pool tail _ => h start pool tail

theorem closed_empty : empty.Closed :=
  fun _ _ _ h => h

/-- One instruction that is no jump. -/
theorem closed_single {instruction : Instruction} (h : instruction.target? = none) :
    (single instruction).Closed := by
  intro start pool tail ht
  exact Forward.cons (by simpa [single] using ht) h

theorem closed_constant (value : Constant) : (constant value).Closed := by
  intro start pool tail ht
  exact Forward.cons (by simpa [constant] using ht) rfl

/-- An instruction that is no jump behind jumps that may lead to it. -/
theorem Open.append_single {instruction : Instruction} (hf : first.Open)
    (h : instruction.target? = none) : (first ++ single instruction).Closed := by
  intro start pool tail ht
  rw [append_apply] at ht ⊢
  rw [List.append_assoc]
  refine hf start pool _ (by simp [single]) (Forward.cons ?_ h)
  simpa [single, Nat.add_assoc] using ht

theorem sound_empty : empty.Sound bounds where
  refers _ _ _ _ _ := List.forall_mem_nil _
  functions _ _ _ _ _ _ hm := by simp [empty] at hm
  named _ _ _ := rfl

/-- One instruction that refers to what there is. -/
theorem sound_single {instruction : Instruction}
    (hr : ∀ constants, instruction.Refers bounds constants) (hc : instruction.op ≠ .closure) :
    (single instruction).Sound bounds where
  refers _ _ constants _ _ := by simpa [single] using hr constants
  functions _ _ _ _ _ _ hm := by simp [single] at hm
  named _ _ _ := by simp [single, Fragment.namings, Instruction.namings, functionsAt, hc]

/-- One instruction whose operands are not limited. -/
theorem sound_of_none {op : Opcode} (operands : List Nat)
    (hl : ∀ bounds constants, op.limit? bounds constants = none) (hc : op ≠ .closure) :
    (single ⟨op, operands⟩).Sound bounds :=
  sound_single (fun _ => refers_of_none (hl _ _) hc) hc

/-- A constant that is no function. -/
theorem sound_constant {value : Constant} (h : value.isFunction = false) :
    (constant value).Sound bounds where
  refers _ pool constants _ hk := by
    have hvalue : constants[pool]? = some value.toValue := hk 0 value rfl
    have hlt : pool < constants.size := (Array.getElem?_eq_some_iff.mp hvalue).1
    simpa [constant] using refers_of_lt rfl hlt
  functions _ _ _ _ _ fn hm := by
    obtain rfl : .function fn = value := by simpa [constant] using hm
    simp [Constant.isFunction] at h
  named _ pool index := by
    have hn : value.namings index = 0 := by
      cases value with
      | integer value => rfl
      | text value => rfl
      | function fn => simp [Constant.isFunction] at h
    simp [constant, Fragment.namings, Instruction.namings, functionsAt, h, hn]

/-- Two branches, and the jumps around them. -/
theorem Sound.branches (hf : first.Sound bounds) (hs : second.Sound bounds) :
    (branches first second).Sound bounds := by
  have hparts (middle last : Nat) : Sound bounds
      ((single ⟨.jumpUnless, [middle]⟩ ++ first) ++ (single ⟨.jump, [last]⟩ ++ second)) := by
    have hunless : Sound bounds (single ⟨.jumpUnless, [middle]⟩) :=
      sound_of_none _ (fun _ _ => rfl) (by simp)
    have hjump : Sound bounds (single ⟨.jump, [last]⟩) :=
      sound_of_none _ (fun _ _ => rfl) (by simp)
    exact (hunless.append hf).append (hjump.append hs)
  constructor
  · intro start pool constants
    obtain ⟨middle, last, heq, -⟩ := branches_apply first second start pool
    rw [heq]
    exact (hparts middle last).refers start pool constants
  · intro start pool constants
    obtain ⟨middle, last, heq, -⟩ := branches_apply first second start pool
    rw [heq]
    exact (hparts middle last).functions start pool constants
  · intro start pool index
    obtain ⟨middle, last, heq, -⟩ := branches_apply first second start pool
    rw [heq]
    exact (hparts middle last).named start pool index

theorem Open.branches (hf : first.Open) (hs : second.Open) : (branches first second).Open := by
  intro start pool tail ht h
  obtain ⟨middle, last, heq, hmiddle, hlast⟩ := branches_apply first second start pool
  have hunless : Instruction.size ⟨.jumpUnless, [middle]⟩ = 3 := rfl
  have hjump : Instruction.size ⟨.jump, [last]⟩ = 3 := rfl
  rw [heq] at h ⊢
  simp only [append_apply, single, sizes_append, sizes_cons, sizes_nil, hunless, hjump,
    List.length_nil, Nat.add_zero, ← Nat.add_assoc, ← hmiddle, List.append_assoc,
    List.singleton_append, List.nil_append] at h ⊢
  have hsecond := hs middle (pool + (first (start + 3) pool).constants.length) tail ht h
  -- Behind the first branch stands the jump over the second one.
  have hbehind : Forward (start + 3 + sizes (first (start + 3) pool).code)
      (⟨.jump, [last]⟩ :: ((second middle (pool + (first (start + 3) pool).constants.length)).code ++
        tail)) := by
    refine ⟨?_, by rwa [hjump, ← hmiddle]⟩
    rintro target ⟨⟩
    refine ⟨_, tail, rfl, ht, ?_⟩
    rw [hjump, ← hmiddle, hlast]
  refine ⟨?_, by rw [hunless]; exact hf _ _ _ (by simp) hbehind⟩
  rintro target ⟨⟩
  refine ⟨(first (start + 3) pool).code ++ [⟨.jump, [last]⟩],
    (second middle (pool + (first (start + 3) pool).constants.length)).code ++ tail,
    by simp, by simp [ht], ?_⟩
  rw [hunless, sizes_append, sizes_cons, hjump, hmiddle]
  simp [Nat.add_assoc]

/-- The code ends with an instruction that returns. -/
def Ends (generator : Generator) : Prop :=
  ∀ start pool, ∃ init last, (generator start pool).code = init ++ [last] ∧
    (last.op = .returnValue ∨ last.op = .returnNull)

theorem ends_append_single (generator : Generator) {instruction : Instruction}
    (h : instruction.op = .returnValue ∨ instruction.op = .returnNull) :
    (generator ++ single instruction).Ends :=
  fun start pool => ⟨(generator start pool).code, instruction, rfl, h⟩

theorem Ends.append (h : second.Ends) : (first ++ second).Ends := by
  intro start pool
  obtain ⟨init, last, hcode, hop⟩ := h (start + sizes (first start pool).code)
    (pool + (first start pool).constants.length)
  refine ⟨(first start pool).code ++ init, last, ?_, hop⟩
  rw [append_apply, hcode, List.append_assoc]

variable {name : Option String} {parameters locals : Nat} {captures : List Symbol}

/-- The code of a function has bytes if the instructions that make a closure of it do. -/
theorem encodable_body {start pool : Nat}
    (h : (closure name parameters locals captures first start pool).Encodable) :
    (first 0 pool).Encodable :=
  ⟨h.functions _ (List.mem_append_right _ (List.mem_singleton_self _)),
    fun fn hm => h.functions fn (List.mem_append_left _ hm)⟩

theorem closed_closure : (closure name parameters locals captures first).Closed := by
  intro start pool tail h
  apply h.append
  intro instruction hm
  rcases List.mem_append.mp hm with hm | hm
  · obtain ⟨symbol, -, rfl⟩ := List.mem_map.mp hm
    exact symbol.target?_load
  · obtain rfl := List.mem_singleton.mp hm
    rfl

/-- A function that captures what fits, and whose code does its part. -/
theorem Sound.closure (hc : ∀ symbol ∈ captures, symbol.Fits bounds)
    (hs : first.Sound (.within bounds.names locals captures.length)) (hf : first.Closed)
    (he : first.Ends) : (closure name parameters locals captures first).Sound bounds := by
  constructor
  · intro start pool constants henc hk instruction hm
    rcases List.mem_append.mp hm with hm | hm
    · obtain ⟨symbol, hsymbol, rfl⟩ := List.mem_map.mp hm
      exact (hc symbol hsymbol).load constants
    · obtain rfl := List.mem_singleton.mp hm
      refine ⟨by simp [Opcode.limit?], fun _ => ⟨_, _, _, rfl, hk.right 0 _ rfl,
        (encodable_body henc).code, ?_⟩⟩
      intro other hm hop free hfree
      obtain ⟨index, hoperands, hlt⟩ :=
        (hs.refers 0 pool constants (encodable_body henc) hk.left other hm).below captures.length
          (by simp [hop, Opcode.limit?, Bounds.within])
      obtain rfl : free = index := by simpa [hoperands] using hfree
      exact hlt
  · intro start pool constants henc hk fn hm
    rcases List.mem_append.mp hm with hm | hm
    · exact hs.functions 0 pool constants (encodable_body henc) hk.left fn hm
    · obtain ⟨⟩ := List.mem_singleton.mp hm
      refine ⟨?_, he 0 pool, captures.length,
        hs.refers 0 pool constants (encodable_body henc) hk.left⟩
      simpa using hf 0 pool [] trivial
  · intro start pool index
    have hnamed := hs.named 0 pool index
    have hloads : Instruction.namings index (captures.map Symbol.load) = 0 := by
      rw [Instruction.namings, List.countP_eq_zero]
      intro instruction hm
      obtain ⟨symbol, -, rfl⟩ := List.mem_map.mp hm
      simp [symbol.op_load_ne]
    simp only [Fragment.namings] at hnamed
    simp only [Generator.closure, Fragment.namings, namings_append, functionsAt_append, hloads,
      List.map_append, List.sum_append, ← hnamed]
    simp [Instruction.namings, functionsAt, Constant.isFunction, Constant.namings]
    omega

end Generator

/-- The code of an expression that fits is sound, and its jumps may lead to what follows. -/
def Expr.Sound (expr : Expr) : Prop :=
  ∀ bounds, expr.Fits bounds → expr.generate.Sound bounds ∧ expr.generate.Open

/-- The code of a statement that fits is sound, and no jump leads out of it. -/
def Stmt.Sound (stmt : Stmt) : Prop :=
  ∀ bounds, stmt.Fits bounds → stmt.generate.Sound bounds ∧ stmt.generate.Closed

/-- The code of a block that fits is sound, as a branch and as a body. -/
def Block.Sound (block : Block) : Prop :=
  ∀ bounds, block.Fits bounds → (block.generate.Sound bounds ∧ block.generate.Open) ∧
    block.generateBody.Sound bounds ∧ block.generateBody.Closed ∧ block.generateBody.Ends

open Generator

theorem Stmt.ends_of_returns {stmt : Stmt} (h : stmt.returns = true) : stmt.generate.Ends := by
  cases stmt with
  | store symbol value => simp [Stmt.returns] at h
  | discard value => simp [Stmt.returns] at h
  | returnValue value => exact ends_append_single _ (.inl rfl)
  | returnNull => exact fun _ _ => ⟨[], _, rfl, .inr rfl⟩

theorem Expr.generateAll_sound {exprs : List Expr} (hs : ∀ expr ∈ exprs, expr.Sound)
    {bounds : Bounds} (h : Expr.AllFit exprs bounds) :
    (Expr.generateAll exprs).Sound bounds ∧ (Expr.generateAll exprs).Open := by
  induction exprs with
  | nil => exact ⟨sound_empty, closed_empty.open⟩
  | cons expr exprs ih =>
      rw [List.forall_mem_cons] at hs
      obtain ⟨hfirst, hopen⟩ := hs.1 bounds h.1
      obtain ⟨hrest, hopen'⟩ := ih hs.2 h.2
      exact ⟨hfirst.append hrest, hopen.append hopen'⟩

/-- An operand, and an instruction that takes its value. -/
theorem Expr.Sound.append_single {expr : Expr} (hs : expr.Sound) {bounds : Bounds}
    (h : expr.Fits bounds) {op : Opcode} (hop : ∀ bounds constants, op.limit? bounds constants = none)
    (hc : op ≠ .closure) :
    (expr.generate ++ single ⟨op, []⟩).Sound bounds ∧
      (expr.generate ++ single ⟨op, []⟩).Closed := by
  obtain ⟨hsound, hopen⟩ := hs bounds h
  exact ⟨hsound.append (sound_of_none _ hop hc), hopen.append_single (target?_nil op)⟩

/-- Wholes generate sound code if their parts do. -/
theorem compositional_sound : Compositional Expr.Sound Stmt.Sound Block.Sound where
  integer _ _ _ := ⟨sound_constant rfl, (closed_constant _).open⟩
  text _ _ _ := ⟨sound_constant rfl, (closed_constant _).open⟩
  boolean value _ _ := by
    cases value with
    | true => exact ⟨sound_of_none _ (fun _ _ => rfl) (by simp), (closed_single rfl).open⟩
    | false => exact ⟨sound_of_none _ (fun _ _ => rfl) (by simp), (closed_single rfl).open⟩
  name symbol bounds h :=
    ⟨sound_single (Symbol.Fits.load h) symbol.op_load_ne, (closed_single symbol.target?_load).open⟩
  unary op argument ha bounds h := by
    have hop : ∀ bounds constants, op.opcode.limit? bounds constants = none := by
      cases op <;> exact fun _ _ => rfl
    have hc : op.opcode ≠ .closure := by cases op <;> simp [Unary.opcode]
    obtain ⟨hsound, hclosed⟩ := Expr.Sound.append_single ha h hop hc
    exact ⟨hsound, hclosed.open⟩
  binary op left right hl hr bounds h := by
    have hop : ∀ bounds constants, op.opcode.limit? bounds constants = none := by
      rcases op with (_ | _ | _ | _) | (_ | _ | _) | _ <;> exact fun _ _ => rfl
    have hc : op.opcode ≠ .closure := by
      rcases op with (_ | _ | _ | _) | (_ | _ | _) | _ <;> simp [Binary.opcode]
    obtain ⟨hsound, hopen⟩ := hl bounds h.1
    obtain ⟨hsound', hopen'⟩ := hr bounds h.2
    exact ⟨(hsound.append hsound').append (sound_of_none _ hop hc),
      ((hopen.append hopen').append_single (target?_nil _)).open⟩
  condition test consequent alternative ht hc ha bounds h := by
    obtain ⟨hsound, hopen⟩ := ht bounds h.1
    obtain ⟨⟨hsound', hopen'⟩, -⟩ := hc bounds h.2.1
    obtain ⟨⟨hsound'', hopen''⟩, -⟩ := ha bounds h.2.2
    exact ⟨hsound.append (hsound'.branches hsound''), hopen.append (hopen'.branches hopen'')⟩
  function name parameters locals captures body hb bounds h := by
    obtain ⟨-, hsound, hclosed, hends⟩ := hb _ h.2
    exact ⟨Sound.closure h.1 hsound hclosed hends, closed_closure.open⟩
  call callee arguments hc ha bounds h := by
    obtain ⟨hsound, hopen⟩ := hc bounds h.1
    obtain ⟨hsound', hopen'⟩ := Expr.generateAll_sound ha h.2
    exact ⟨(hsound.append hsound').append (sound_of_none _ (fun _ _ => rfl) (by simp)),
      ((hopen.append hopen').append_single rfl).open⟩
  collect kind elements he bounds h := by
    have hop : ∀ bounds constants, kind.opcode.limit? bounds constants = none := by
      cases kind <;> exact fun _ _ => rfl
    have hc : kind.opcode ≠ .closure := by cases kind <;> simp [Collection.opcode]
    have ht : target? ⟨kind.opcode, [elements.length]⟩ = none := by cases kind <;> rfl
    obtain ⟨hsound, hopen⟩ := Expr.generateAll_sound he h
    exact ⟨hsound.append (sound_of_none _ hop hc), (hopen.append_single ht).open⟩
  store symbol value hv bounds h := by
    obtain ⟨hsound, hopen⟩ := hv bounds h.2.2
    exact ⟨hsound.append (sound_single (h.2.1.store h.1) symbol.op_store_ne),
      hopen.append_single symbol.target?_store⟩
  discard value hv bounds h := Expr.Sound.append_single hv h (fun _ _ => rfl) (by simp)
  returnValue value hv bounds h := Expr.Sound.append_single hv h (fun _ _ => rfl) (by simp)
  returnNull _ _ := ⟨sound_of_none _ (fun _ _ => rfl) (by simp), closed_single rfl⟩
  null bounds _ := by
    refine ⟨⟨sound_of_none _ (fun _ _ => rfl) (by simp), (closed_single rfl).open⟩,
      sound_of_none _ (fun _ _ => rfl) (by simp), closed_single rfl, ?_⟩
    exact fun _ _ => ⟨[], _, rfl, .inr rfl⟩
  value result hr bounds h := by
    have hc : Opcode.returnValue ≠ .closure := by simp
    obtain ⟨hsound, hclosed⟩ := Expr.Sound.append_single hr h (fun _ _ => rfl) hc
    exact ⟨hr bounds h, hsound, hclosed, ends_append_single _ (.inl rfl)⟩
  next stmt rest hs hr bounds h := by
    obtain ⟨hsound, hclosed⟩ := hs bounds h.1
    obtain ⟨⟨hsound', hopen⟩, hbody, hclosed', hends⟩ := hr bounds h.2
    refine ⟨⟨hsound.append hsound', hclosed.open.append hopen⟩, ?_⟩
    rw [Block.generateBody]
    split
    case isTrue hreturns => exact ⟨hsound, hclosed, stmt.ends_of_returns (by simp_all)⟩
    case isFalse => exact ⟨hsound.append hbody, hclosed.append hclosed', hends.append⟩

/-- The code of statements that fit is sound. -/
theorem Stmt.generateAll_sound {stmts : List Stmt} {bounds : Bounds}
    (h : ∀ stmt ∈ stmts, stmt.Fits bounds) :
    (Stmt.generateAll stmts).Sound bounds ∧ (Stmt.generateAll stmts).Closed := by
  induction stmts with
  | nil => exact ⟨sound_empty, closed_empty⟩
  | cons stmt stmts ih =>
      rw [List.forall_mem_cons] at h
      obtain ⟨hsound, hclosed⟩ := compositional_sound.statement stmt bounds h.1
      obtain ⟨hsound', hclosed'⟩ := ih h.2
      exact ⟨hsound.append hsound', hclosed.append hclosed'⟩

end Core
end StackScript
