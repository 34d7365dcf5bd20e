import StackScript.Proofs.Assembly.Generation
import StackScript.Proofs.Core.ResolveFit
import StackScript.Proofs.Core.Sound

/-!
# Compiled code is well formed

Programs that are compiled one after the other share a pool of constants and the names of the
outermost table. All their streams, and those of the functions in the pool, decode from start to
end, jump forward to instructions of their own, and refer to nothing that is not there.
-/

namespace StackScript

open StackScript.Core Instruction

/-- The bytecodes of programs that are compiled one after the other, and the assembly that the last
one leaves. -/
def Program.compileEach : List Program → Assembly → Except CompileError (List Bytecode × Assembly)
  | [], assembly => .ok ([], assembly)
  | program :: programs, assembly => do
    let (bytecode, assembly) ← program.compile assembly
    let (bytecodes, assembly) ← compileEach programs assembly
    return (bytecode :: bytecodes, assembly)

theorem Program.compileEach_cons_eq_ok_iff {program : Program} {programs : List Program}
    {before after : Assembly} {bytecodes : List Bytecode} :
    compileEach (program :: programs) before = .ok (bytecodes, after) ↔
      ∃ bytecode middle rest, program.compile before = .ok (bytecode, middle) ∧
        compileEach programs middle = .ok (rest, after) ∧ bytecodes = bytecode :: rest := by
  constructor
  · intro h
    obtain ⟨⟨bytecode, middle⟩, hfirst, h⟩ := Except.bind_eq_ok_iff.mp h
    obtain ⟨⟨rest, last⟩, hrest, h⟩ := Except.bind_eq_ok_iff.mp h
    obtain ⟨rfl, rfl⟩ := Prod.mk.inj (Except.ok.inj h)
    exact ⟨bytecode, middle, rest, hfirst, hrest, rfl⟩
  · rintro ⟨bytecode, middle, rest, hfirst, hrest, rfl⟩
    rw [compileEach, hfirst]
    simp only [bind, Except.bind, hrest]
    rfl

/-! ## Streams of bytes -/

/-- An instruction of a stream refers to what there is: its operand is below its limit, a jump leads
to an instruction behind it, and a closure has a function that takes what it captures. -/
structure Located.Refers (stream : List Located) (bounds : Bounds) (pool : Array Value)
    (located : Located) : Prop where
  below : ∀ limit ∈ located.instruction.op.limit? bounds pool.size,
    ∃ index, located.instruction.operands = [index] ∧ index < limit
  jump : located.instruction.op = .jump ∨ located.instruction.op = .jumpUnless →
    ∃ target ∈ stream, located.instruction.operands = [target.offset] ∧
      located.offset < target.offset
  closure : located.instruction.op = .closure →
    ∃ index count fn, located.instruction.operands = [index, count] ∧
      pool[index]? = some (.function fn) ∧
      ∀ other ∈ fn.code.sweep.1, other.instruction.op = .getFree →
        ∀ free ∈ other.instruction.operands, free < count

namespace Code

/-- A stream decodes from its start to exactly its end into instructions that refer to what there
is. -/
structure WellFormed (bounds : Bounds) (pool : Array Value) (code : Code) : Prop where
  decodes : ∃ instructions, code.sweep = (located 0 instructions, none) ∧
    sizes instructions = code.size
  refers : ∀ located ∈ code.sweep.1, located.Refers code.sweep.1 bounds pool

/-- The last instruction of a stream returns. -/
def EndsInReturn (code : Code) : Prop :=
  ∃ last ∈ code.sweep.1.getLast?,
    last.instruction.op = .returnValue ∨ last.instruction.op = .returnNull

/-- How many instructions of a stream make closures of the function with an index. -/
def namings (index : Nat) (code : Code) : Nat :=
  Instruction.namings index (code.sweep.1.map Located.instruction)

end Code

/-- The streams of the functions in a pool. -/
def functionCodes (pool : Array Value) : List Code :=
  pool.toList.filterMap fun
    | .function fn => some fn.code
    | _ => none

/-- The streams of some programs, and a pool that they share, are well formed. No local slot is used
outside of functions. -/
structure WellFormed (names : Nat) (streams : List Code) (pool : Array Value) : Prop where
  mains : ∀ code ∈ streams, code.WellFormed (.outside names) pool
  functions : ∀ fn, .function fn ∈ pool →
    (∃ captures, fn.code.WellFormed (.within names fn.locals captures) pool) ∧ fn.code.EndsInReturn
  named : ∀ index, ((streams ++ functionCodes pool).map (Code.namings index)).sum ≤ 1

namespace Code

/-- An instruction of a stream stands behind those in front of it. -/
theorem mem_located (start : Nat) (front : List Instruction) (instruction : Instruction)
    (back : List Instruction) :
    ⟨start + sizes front, instruction⟩ ∈ located start (front ++ instruction :: back) := by
  induction front generalizing start with
  | nil => exact List.mem_cons_self
  | cons first front ih =>
      rw [sizes_cons, ← Nat.add_assoc]
      exact List.mem_cons_of_mem _ (ih (start + first.size))

/-- Jumps that lead forward lead to instructions of the stream. -/
theorem exists_target_of_forward {start : Nat} {instructions : List Instruction}
    (h : Forward start instructions) {found : Located} (hm : found ∈ located start instructions)
    {target : Nat} (ht : found.instruction.target? = some target) :
    ∃ other ∈ located start instructions, other.offset = target ∧ found.offset < target := by
  induction instructions generalizing start with
  | nil => cases hm
  | cons instruction rest ih =>
      rcases List.mem_cons.mp hm with rfl | hm
      · obtain ⟨front, back, rfl, hback, rfl⟩ := h.1 target ht
        obtain ⟨next, back, rfl⟩ := List.exists_cons_of_ne_nil hback
        refine ⟨_, List.mem_cons_of_mem _ (mem_located _ front next back), rfl, ?_⟩
        have := instruction.size_pos
        simp only
        omega
      · obtain ⟨other, hother, hoffset⟩ := ih h.2 hm
        exact ⟨other, List.mem_cons_of_mem _ hother, hoffset⟩

theorem map_instruction_located (start : Nat) (instructions : List Instruction) :
    (located start instructions).map Located.instruction = instructions := by
  induction instructions generalizing start with
  | nil => rfl
  | cons instruction rest ih => rw [located, List.map_cons, ih]

theorem instruction_mem_of_mem_located {start : Nat} {instructions : List Instruction}
    {found : Located} (hm : found ∈ located start instructions) :
    found.instruction ∈ instructions := by
  rw [← map_instruction_located start instructions]
  exact List.mem_map_of_mem hm

/-- The stream of instructions that refer to what there is, and whose jumps lead forward, is well
formed. -/
theorem wellFormed_ofInstructions {bounds : Bounds} {pool : Array Value}
    {instructions : List Instruction} (he : ∀ instruction ∈ instructions, instruction.Encodable)
    (hf : Forward 0 instructions)
    (hr : ∀ instruction ∈ instructions, instruction.Refers bounds pool) :
    (ofInstructions instructions).WellFormed bounds pool where
  decodes := ⟨instructions, sweep_ofInstructions he, (size_ofInstructions he).symm⟩
  refers found hm := by
    rw [sweep_ofInstructions he] at hm ⊢
    have hmem := instruction_mem_of_mem_located hm
    have hrefers := hr _ hmem
    refine ⟨hrefers.below, ?_, ?_⟩
    · intro hop
      obtain ⟨target, ht, hoperands⟩ := exists_target?_of_encodable (he _ hmem) hop
      obtain ⟨other, hother, rfl, hlt⟩ := exists_target_of_forward hf hm ht
      exact ⟨other, hother, hoperands, hlt⟩
    · intro hop
      obtain ⟨index, count, fn, hoperands, hfn, henc, hfree⟩ := hrefers.closure hop
      refine ⟨index, count, assembled fn, hoperands, hfn, ?_⟩
      intro other hother
      simp only [assembled, sweep_ofInstructions henc] at hother
      exact hfree _ (instruction_mem_of_mem_located hother)

theorem namings_ofInstructions {instructions : List Instruction}
    (he : ∀ instruction ∈ instructions, instruction.Encodable) (index : Nat) :
    (ofInstructions instructions).namings index = Instruction.namings index instructions := by
  rw [namings, sweep_ofInstructions he, map_instruction_located]

theorem endsInReturn_ofInstructions {init : List Instruction} {last : Instruction}
    (he : ∀ instruction ∈ init ++ [last], instruction.Encodable)
    (hop : last.op = .returnValue ∨ last.op = .returnNull) :
    (ofInstructions (init ++ [last])).EndsInReturn := by
  have hlast : ((located 0 (init ++ [last])).getLast?.map Located.instruction) = some last := by
    rw [← List.getLast?_map, map_instruction_located, List.getLast?_concat]
  obtain ⟨found, hfound, rfl⟩ := Option.map_eq_some_iff.mp hlast
  refine ⟨found, ?_, hop⟩
  rw [sweep_ofInstructions he]
  exact hfound

end Code

/-! ## Programs one after the other -/

namespace Assembly

/-- A program can be compiled: no function is being compiled, and every symbol fits. -/
structure Ready (assembly : Assembly) : Prop where
  valid : assembly.scope.Valid
  outermost : assembly.scope.outer = []
  empty : assembly.buffer = {}

theorem Ready.bounds_eq {assembly : Assembly} (h : assembly.Ready) :
    assembly.scope.bounds = .outside assembly.scope.table.definitions := by
  rw [Scope.bounds, h.outermost]
  rfl

/-- The names of a program that is compiled fit what it defines. -/
theorem Ready.resolve_fits {before : Assembly} {program : Program} {stmts : List Core.Stmt}
    {scope : Scope} (hr : before.Ready)
    (h : Stmt.resolveAll program before.scope = .ok (stmts, scope)) :
    Ready { before with scope } ∧
      before.scope.table.definitions ≤ scope.table.definitions ∧
      ∀ stmt ∈ stmts, stmt.Fits (.outside scope.table.definitions) := by
  obtain ⟨hvalid, hgrows, hfits⟩ := Program.resolve_fits hr.valid h
  obtain ⟨htable, houter⟩ := List.forall₂_cons.mp hgrows
  have hready : Ready { before with scope } := by
    refine ⟨hvalid, ?_, hr.empty⟩
    rw [hr.outermost] at houter
    exact List.forall₂_nil_left_iff.mp houter
  have hbounds := hready.bounds_eq
  rw [hbounds] at hfits
  exact ⟨hready, htable.definitions, hfits⟩

/-- The second assembly comes from the first one by the streams of some programs, which have added
constants. -/
structure Links (before : Assembly) (streams : List (List Instruction)) (added : List Constant)
    (after : Assembly) : Prop where
  ready : after.Ready
  grows : before.scope.table.definitions ≤ after.scope.table.definitions
  constants : after.constants = before.constants ++ (added.map Constant.toValue).toArray
  encodable : ∀ code ∈ streams, ∀ instruction ∈ code, instruction.Encodable
  forward : ∀ code ∈ streams, Forward 0 code
  refers : ∀ code ∈ streams, ∀ instruction ∈ code,
    instruction.Refers (.outside after.scope.table.definitions) after.constants
  functions : ∀ fn, .function fn ∈ added → (∀ instruction ∈ fn.code, instruction.Encodable) ∧
    Wellmade after.scope.table.definitions after.constants fn
  named : ∀ index, (streams.map (Instruction.namings index)).sum +
    (added.map (Constant.namings index)).sum = functionsAt index before.constants.size added

theorem Links.refl {assembly : Assembly} (h : assembly.Ready) : assembly.Links [] [] assembly where
  ready := h
  grows := Nat.le_refl _
  constants := by simp
  encodable _ hm := by cases hm
  forward _ hm := by cases hm
  refers _ hm := by cases hm
  functions _ hm := by cases hm
  named _ := rfl

/-- What comes from one assembly by way of another. -/
theorem Links.append {first second third : Assembly} {streams streams' : List (List Instruction)}
    {added added' : List Constant} (h : first.Links streams added second)
    (h' : second.Links streams' added' third) :
    first.Links (streams ++ streams') (added ++ added') third := by
  have hextends : Extends second.constants third.constants := by
    rw [h'.constants]
    exact extends_append _ _
  have hwider : (Bounds.outside second.scope.table.definitions).Le
      (.outside third.scope.table.definitions) := ⟨h'.grows, Nat.le_refl 0, Nat.le_refl 0, id⟩
  have hsize : second.constants.size = first.constants.size + added.length := by
    simp [h.constants]
  refine ⟨h'.ready, Nat.le_trans h.grows h'.grows, ?_,
    List.forall_mem_append.mpr ⟨h.encodable, h'.encodable⟩,
    List.forall_mem_append.mpr ⟨h.forward, h'.forward⟩,
    List.forall_mem_append.mpr ⟨?_, h'.refers⟩, ?_, ?_⟩
  · rw [h'.constants, h.constants]
    simp
  · exact fun code hm instruction hi => (h.refers code hm instruction hi).mono hwider hextends
  · intro fn hm
    rcases List.mem_append.mp hm with hm | hm
    · obtain ⟨henc, hwellmade⟩ := h.functions fn hm
      exact ⟨henc, hwellmade.mono h'.grows hextends⟩
    · exact h'.functions fn hm
  · intro index
    have hnamed := h.named index
    have hnamed' := h'.named index
    rw [hsize] at hnamed'
    rw [functionsAt_append, ← hnamed, ← hnamed']
    simp only [List.map_append, List.sum_append]
    omega

/-- A program that is compiled in an assembly that is ready leaves one that is. -/
theorem Ready.links_of_compile {before after : Assembly} {program : Program} {bytecode : Bytecode}
    (hr : before.Ready) (h : program.compile before = .ok (bytecode, after)) :
    ∃ code added, before.Links [code] added after ∧ bytecode.code = Code.ofInstructions code ∧
      bytecode.constants = after.constants := by
  obtain ⟨stmts, hresolve, henc, hcode, hconstants, hafter⟩ := Program.compile_generates hr.empty h
  obtain ⟨hready, hgrows, hfits⟩ := hr.resolve_fits hresolve
  obtain ⟨hsound, hclosed⟩ := Stmt.generateAll_sound hfits
  have hafter' : after.constants = bytecode.constants := by rw [hafter]
  rw [hconstants] at hafter'
  have hheld : Held after.constants before.constants.size
      (Core.Stmt.generateAll stmts 0 before.constants.size).constants := by
    rw [hafter']
    exact held_append _ _
  refine ⟨_, _, ⟨⟨hready.valid, hready.outermost, by rw [hafter]⟩, hgrows, hafter', ?_, ?_, ?_, ?_,
    ?_⟩, hcode, by rw [hafter', hconstants]⟩
  · simpa using henc.code
  · simpa using hclosed 0 before.constants.size [] trivial
  · simpa using hsound.refers 0 before.constants.size _ henc hheld
  · exact fun fn hm => ⟨henc.functions fn hm, hsound.functions 0 _ _ henc hheld fn hm⟩
  · intro index
    simpa [Fragment.namings] using hsound.named 0 before.constants.size index

/-- Programs that are compiled one after the other leave an assembly that is ready. -/
theorem Ready.links_of_compileEach {programs : List Program} {before after : Assembly}
    {bytecodes : List Bytecode} (hr : before.Ready)
    (h : Program.compileEach programs before = .ok (bytecodes, after)) :
    ∃ streams added, before.Links streams added after ∧
      bytecodes.map Bytecode.code = streams.map Code.ofInstructions ∧
      ∀ last ∈ bytecodes.getLast?, last.constants = after.constants := by
  induction programs generalizing before bytecodes with
  | nil =>
      obtain ⟨rfl, rfl⟩ := Prod.mk.inj (Except.ok.inj h)
      exact ⟨[], [], .refl hr, rfl, by simp⟩
  | cons program programs ih =>
      obtain ⟨bytecode, middle, rest, hfirst, hrest, rfl⟩ := Program.compileEach_cons_eq_ok_iff.mp h
      obtain ⟨code, added, hlinks, hcode, hconstants⟩ := hr.links_of_compile hfirst
      obtain ⟨streams, added', hlinks', hcodes, hlast⟩ := ih hlinks.ready hrest
      refine ⟨code :: streams, added ++ added', hlinks.append hlinks', ?_, ?_⟩
      · rw [List.map_cons, List.map_cons, hcode, hcodes]
      · cases programs with
        | nil =>
            obtain ⟨rfl, rfl⟩ := Prod.mk.inj (Except.ok.inj hrest)
            simpa using hconstants
        | cons next programs =>
            obtain ⟨_, _, _, -, -, rfl⟩ := Program.compileEach_cons_eq_ok_iff.mp hrest
            rwa [List.getLast?_cons_cons]

theorem ready_initial : initial.Ready where
  valid := by
    have hempty : Scope.Valid {} := ⟨List.forall_mem_nil _, trivial⟩
    exact (Scope.defineBuiltins_fits hempty Builtin.all).1
  outermost := rfl
  empty := rfl

end Assembly

/-- The functions that constants become keep what they name. -/
theorem sum_namings_functionCodes {constants : List Constant}
    (he : ∀ fn, .function fn ∈ constants → ∀ instruction ∈ fn.code, instruction.Encodable)
    (index : Nat) :
    ((functionCodes (constants.map Constant.toValue).toArray).map (Code.namings index)).sum =
      (constants.map (Constant.namings index)).sum := by
  induction constants with
  | nil => rfl
  | cons constant constants ih =>
      have hrest := ih fun fn hm => he fn (List.mem_cons_of_mem _ hm)
      simp only [functionCodes] at hrest ⊢
      cases constant with
      | integer value => simpa [Constant.toValue, Constant.namings] using hrest
      | text value => simpa [Constant.toValue, Constant.namings] using hrest
      | function fn =>
          have hcode := Code.namings_ofInstructions (he fn List.mem_cons_self) index
          simp [Constant.toValue, Constant.namings, assembled, hcode]
          simpa using hrest

/-- All streams of programs that are compiled one after the other by one compiler, and the pool that
the last one of them has, are well formed. -/
theorem compileEach_wellFormed {programs : List Program} {bytecodes : List Bytecode}
    {assembly : Assembly}
    (h : Program.compileEach programs Assembly.initial = .ok (bytecodes, assembly)) :
    WellFormed assembly.scope.table.definitions (bytecodes.map Bytecode.code) assembly.constants ∧
      ∀ last ∈ bytecodes.getLast?, last.constants = assembly.constants := by
  obtain ⟨streams, added, hlinks, hcodes, hlast⟩ := Assembly.ready_initial.links_of_compileEach h
  have hpool : assembly.constants = (added.map Constant.toValue).toArray := by
    simpa [Assembly.initial] using hlinks.constants
  have hfunctions : ∀ fn, .function fn ∈ assembly.constants →
      ∃ original, .function original ∈ added ∧ fn = assembled original := by
    intro fn hm
    rw [hpool] at hm
    obtain ⟨constant, hm, hvalue⟩ : ∃ constant ∈ added, constant.toValue = .function fn := by
      simpa using hm
    cases constant with
    | integer value => cases hvalue
    | text value => cases hvalue
    | function original => exact ⟨original, hm, by simpa [Constant.toValue] using hvalue.symm⟩
  refine ⟨⟨?_, ?_, ?_⟩, hlast⟩
  · rw [hcodes]
    intro code hm
    obtain ⟨stream, hstream, rfl⟩ := List.mem_map.mp hm
    exact Code.wellFormed_ofInstructions (hlinks.encodable stream hstream)
      (hlinks.forward stream hstream) (hlinks.refers stream hstream)
  · intro fn hm
    obtain ⟨original, horiginal, rfl⟩ := hfunctions fn hm
    obtain ⟨henc, hwellmade⟩ := hlinks.functions original horiginal
    obtain ⟨captures, hrefers⟩ := hwellmade.refers
    refine ⟨⟨captures, Code.wellFormed_ofInstructions henc hwellmade.forward hrefers⟩, ?_⟩
    obtain ⟨init, last, hcode, hop⟩ := hwellmade.ends
    rw [assembled, hcode]
    rw [hcode] at henc
    exact Code.endsInReturn_ofInstructions henc hop
  · intro index
    have hnamings : ∀ stream ∈ streams, (Code.namings index ∘ Code.ofInstructions) stream =
        Instruction.namings index stream := fun stream hm =>
      Code.namings_ofInstructions (hlinks.encodable stream hm) index
    calc
      ((bytecodes.map Bytecode.code ++ functionCodes assembly.constants).map
          (Code.namings index)).sum
          = (streams.map (Instruction.namings index)).sum +
              (added.map (Constant.namings index)).sum := by
            rw [hcodes, List.map_append, List.sum_append, hpool,
              sum_namings_functionCodes (fun fn hm => (hlinks.functions fn hm).1), List.map_map,
              List.map_congr_left hnamings]
      _ = functionsAt index Assembly.initial.constants.size added := hlinks.named index
      _ ≤ 1 := functionsAt_le_one _ _ _

/-- Two programs, the second of which calls a recursive function of the first. -/
theorem compileEach_wellFormed_recursive :
    ∃ bytecodes assembly, Program.compileEach
        [[.binding "f" (.function (some "f") ["x"]
            [.expr (.condition (.name "x") [.expr (.call (.name "f") [.boolean false])] none)])],
          [.expr (.call (.name "f") [.integer 1])]] Assembly.initial = .ok (bytecodes, assembly) ∧
      WellFormed assembly.scope.table.definitions (bytecodes.map Bytecode.code)
        assembly.constants := by
  have hok : (Program.compileEach
      [[.binding "f" (.function (some "f") ["x"]
          [.expr (.condition (.name "x") [.expr (.call (.name "f") [.boolean false])] none)])],
        [.expr (.call (.name "f") [.integer 1])]] Assembly.initial).isOk = true := by
    decide +kernel
  obtain ⟨⟨bytecodes, assembly⟩, h⟩ := Except.exists_of_isOk hok
  exact ⟨bytecodes, assembly, h, (compileEach_wellFormed h).1⟩

end StackScript
