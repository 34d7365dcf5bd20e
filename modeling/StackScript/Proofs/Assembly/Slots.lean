import StackScript.Proofs.Assembly.Bookkeeping
import StackScript.Proofs.Assembly.WellFormed
import StackScript.Proofs.Scope.Chain
import StackScript.Proofs.Scope.Evolution

/-!
# Names keep their slots

Compiling a program changes the outermost table in one way only: it defines names there that the
program binds outside of its functions. A name that is defined keeps the slot that it has, or gets
the next one. So the globals of a session stay where they are, whatever is compiled later.
-/

namespace StackScript

/-! ## Tables -/

namespace Table

/-- The table with a global of some name. -/
def defineGlobal (table : Table) (name : String) : Table :=
  (table.define .global name).2

/-- Globals have slots of their own, below the number of definitions. -/
structure Numbered (table : Table) : Prop where
  below : ∀ name symbol, table.find? name = some symbol → symbol.place = .global →
    symbol.index < table.definitions
  distinct : ∀ name name' symbol symbol', table.find? name = some symbol →
    table.find? name' = some symbol' → symbol.place = .global → symbol'.place = .global →
    symbol.index = symbol'.index → name = name'

/-- Defining a global changes nothing if there is one of this name, and otherwise gives it the next
slot. -/
theorem defineGlobal_cases (table : Table) (name : String) :
    (∃ symbol, table.find? name = some symbol ∧ symbol.place = .global ∧
      table.defineGlobal name = table) ∨
    ((∀ symbol, table.find? name = some symbol → symbol.place ≠ .global) ∧
      table.defineGlobal name =
        { table.bind ⟨name, .global, table.definitions⟩ with
          definitions := table.definitions + 1 }) := by
  obtain ⟨symbol, hfind, hplace, heq⟩ | ⟨hfree, heq⟩ := table.define_cases .global name
  · exact .inl ⟨symbol, hfind, hplace, by rw [defineGlobal, heq]⟩
  · exact .inr ⟨hfree, by rw [defineGlobal, heq]⟩

/-- Defining a global leaves other names alone. -/
theorem find?_defineGlobal_of_ne (table : Table) {name other : String} (h : name ≠ other) :
    (table.defineGlobal name).find? other = table.find? other := by
  obtain ⟨symbol, -, -, heq⟩ | ⟨-, heq⟩ := table.defineGlobal_cases name
  · rw [heq]
  · rw [heq]
    exact (find?_bind table _ other).trans (if_neg h)

/-- Defining a global leaves the globals alone that there are. -/
theorem find?_defineGlobal_of_global {table : Table} {name other : String} {symbol : Symbol}
    (h : table.find? other = some symbol) (hg : symbol.place = .global) :
    (table.defineGlobal name).find? other = some symbol := by
  obtain ⟨-, -, -, heq⟩ | ⟨hfree, heq⟩ := table.defineGlobal_cases name
  · rw [heq, h]
  · have hne : name ≠ other := by
      rintro rfl
      exact hfree symbol h hg
    rw [find?_defineGlobal_of_ne table hne, h]

theorem free_defineGlobal (table : Table) (name : String) :
    (table.defineGlobal name).free = table.free := by
  obtain ⟨-, -, -, heq⟩ | ⟨-, heq⟩ := table.defineGlobal_cases name
  · rw [heq]
  · rw [heq]
    rfl

theorem Numbered.defineGlobal {table : Table} (h : table.Numbered) (name : String) :
    (table.defineGlobal name).Numbered := by
  obtain ⟨-, -, -, heq⟩ | ⟨hfree, heq⟩ := table.defineGlobal_cases name
  · rwa [heq]
  -- A global is the new one in the last slot, or one that there was in a lower slot.
  have hcases : ∀ other symbol, (table.defineGlobal name).find? other = some symbol →
      symbol.place = .global →
      (name = other ∧ symbol.index = table.definitions) ∨
        (table.find? other = some symbol ∧ symbol.index < table.definitions) := by
    intro other symbol hfind hglobal
    by_cases hname : name = other
    · rw [heq] at hfind
      have hnew := (find?_bind table _ other).symm.trans hfind
      rw [if_pos hname] at hnew
      cases hnew
      exact .inl ⟨hname, rfl⟩
    · rw [find?_defineGlobal_of_ne table hname] at hfind
      exact .inr ⟨hfind, h.below other symbol hfind hglobal⟩
  constructor
  · intro other symbol hfind hglobal
    have hdefinitions : (table.defineGlobal name).definitions = table.definitions + 1 := by rw [heq]
    obtain ⟨-, hindex⟩ | ⟨-, hindex⟩ := hcases other symbol hfind hglobal <;> omega
  · intro first second symbol symbol' hfind hfind' hglobal hglobal' hsame
    obtain ⟨rfl, hindex⟩ | ⟨hold, hindex⟩ := hcases first symbol hfind hglobal
    · obtain ⟨rfl, -⟩ | ⟨-, hindex'⟩ := hcases second symbol' hfind' hglobal'
      · rfl
      · omega
    · obtain ⟨rfl, hindex'⟩ | ⟨hold', -⟩ := hcases second symbol' hfind' hglobal'
      · omega
      · exact h.distinct first second symbol symbol' hold hold' hglobal hglobal' hsame

/-- The table with globals of some names, defined one after the other. -/
def defineGlobals (table : Table) (names : List String) : Table :=
  names.foldl defineGlobal table

variable {table : Table} {names : List String}

theorem find?_defineGlobals_of_not_mem {other : String} (h : other ∉ names) :
    (table.defineGlobals names).find? other = table.find? other := by
  induction names generalizing table with
  | nil => rfl
  | cons name names ih =>
      rw [List.mem_cons, not_or] at h
      exact (ih h.2).trans (table.find?_defineGlobal_of_ne (Ne.symm h.1))

theorem find?_defineGlobals_of_global {other : String} {symbol : Symbol}
    (h : table.find? other = some symbol) (hg : symbol.place = .global) :
    (table.defineGlobals names).find? other = some symbol := by
  induction names generalizing table with
  | nil => exact h
  | cons name names ih => exact ih (find?_defineGlobal_of_global h hg)

theorem free_defineGlobals : (table.defineGlobals names).free = table.free := by
  induction names generalizing table with
  | nil => rfl
  | cons name names ih => exact ih.trans (table.free_defineGlobal name)

theorem Numbered.defineGlobals (h : table.Numbered) : (table.defineGlobals names).Numbered := by
  induction names generalizing table with
  | nil => exact h
  | cons name names ih => exact ih (h.defineGlobal name)

end Table

/-! ## Scopes -/

namespace Scope

/-- The outermost table. -/
def outermost (scope : Scope) : Table :=
  scope.outer.getLast?.getD scope.table

/-- The second scope has as many tables as the first one, and its outermost table is that of the first
one with globals of some names more, which are defined only outside of all functions. -/
structure Follows (names : List String) (scope later : Scope) : Prop where
  depth : later.outer.length = scope.outer.length
  defines : ∃ defined : List String, (∀ name ∈ defined, scope.outer = [] ∧ name ∈ names) ∧
    later.outermost = scope.outermost.defineGlobals defined

variable {names : List String}

theorem Follows.of_outermost_eq {scope later : Scope}
    (hd : later.outer.length = scope.outer.length) (ho : later.outermost = scope.outermost) :
    scope.Follows names later :=
  ⟨hd, [], List.forall_mem_nil _, ho⟩

theorem Follows.refl (scope : Scope) : scope.Follows names scope :=
  .of_outermost_eq rfl rfl

theorem Follows.trans {first second third : Scope} (h : first.Follows names second)
    (h' : second.Follows names third) : first.Follows names third := by
  obtain ⟨defined, hdefined, heq⟩ := h.defines
  obtain ⟨defined', hdefined', heq'⟩ := h'.defines
  refine ⟨h'.depth.trans h.depth, defined ++ defined', ?_, ?_⟩
  · rw [List.forall_mem_append]
    refine ⟨hdefined, fun name hm => ⟨?_, (hdefined' name hm).2⟩⟩
    have hdepth := h.depth
    rw [(hdefined' name hm).1] at hdepth
    exact List.length_eq_zero_iff.mp hdepth.symm
  · rw [heq', heq]
    exact (List.foldl_append ..).symm

/-- The outermost table is the same from the next table outwards. -/
theorem outermost_cons (table next : Table) (rest : List Table) :
    outermost ⟨table, next :: rest⟩ = outermost ⟨next, rest⟩ := by
  simp [outermost, List.getLast?_cons]

/-- Looking a name up leaves the outermost table alone: nothing is captured there. -/
theorem outermost_resolveIn (name : String) (table : Table) (outer : List Table) :
    (resolveIn name table outer).2.outermost = outermost ⟨table, outer⟩ := by
  induction outer generalizing table with
  | nil => unfold resolveIn; split <;> rfl
  | cons next rest ih =>
      unfold resolveIn
      split
      case h_1 => rfl
      case h_2 =>
          dsimp only
          have hnext := ih next
          generalize resolveIn name next rest = enclosing at hnext ⊢
          obtain ⟨resolution, ⟨next', rest'⟩⟩ := enclosing
          -- The innermost table may capture the name. Those around it are as the lookup leaves them.
          have hkept : ∀ table' : Table,
              outermost ⟨table', next' :: rest'⟩ = outermost ⟨table, next :: rest⟩ := by
            intro table'
            rw [outermost_cons, outermost_cons]
            exact hnext
          repeat' split
          all_goals exact hkept _

theorem follows_find {scope later : Scope} {name : String} {symbol : Symbol}
    (h : scope.find name = .ok (symbol, later)) : scope.Follows names later := by
  rw [← resolveIn_of_find h]
  exact .of_outermost_eq (length_outer_resolveIn name scope.table scope.outer)
    (outermost_resolveIn name scope.table scope.outer)

/-- A name that gets a slot gets one in the outermost table only if there is no other. -/
theorem follows_define (scope : Scope) {name : String} (hm : name ∈ names) :
    scope.Follows names (scope.define name).2 := by
  obtain ⟨table, outer⟩ := scope
  cases outer with
  | nil => exact ⟨rfl, [name], by simpa using hm, rfl⟩
  | cons next rest =>
      refine .of_outermost_eq rfl ?_
      exact (outermost_cons _ next rest).trans (outermost_cons table next rest).symm

/-- The body of a function starts inside of the scope around it. -/
theorem outer_enterFunction (scope : Scope) (name : Option String) (params : List String) :
    (scope.enterFunction name params).outer = scope.table :: scope.outer := by
  have hparams : ∀ inner : Scope,
      (params.foldl (fun scope param => (scope.define param).2) inner).outer = inner.outer := by
    induction params with
    | nil => exact fun _ => rfl
    | cons param params ih => exact fun inner => ih (inner.define param).2
  cases name with
  | none => exact hparams _
  | some name => exact hparams _

/-- A function leaves the scope around it with the outermost table that was there. -/
theorem Follows.leave {inside : List String} {scope inner later : Scope}
    (hi : inner.outer = scope.table :: scope.outer) (h : inner.Follows inside later) :
    scope.Follows names (later.leave?.getD later) := by
  obtain ⟨table, outer⟩ := scope
  obtain ⟨table', outer'⟩ := inner
  obtain ⟨table'', outer''⟩ := later
  obtain rfl : outer' = table :: outer := hi
  obtain ⟨defined, hdefined, houtermost⟩ := h.defines
  obtain rfl : defined = [] := List.eq_nil_iff_forall_not_mem.mpr fun name hm =>
    List.cons_ne_nil _ _ (hdefined name hm).1
  cases outer'' with
  | nil => exact absurd h.depth (by simp)
  | cons next rest =>
      refine .of_outermost_eq (by simpa [leave?] using h.depth) ?_
      calc
        outermost ⟨next, rest⟩ = outermost ⟨table'', next :: rest⟩ := (outermost_cons _ _ _).symm
        _ = outermost ⟨table', table :: outer⟩ := houtermost
        _ = outermost ⟨table, outer⟩ := outermost_cons _ _ _

/-- Following is kept by all that resolving does to a scope. -/
def followsEvolution : Evolution where
  follows := Follows
  refl _ := Follows.refl
  trans := Follows.trans
  find := follows_find
  define scope hm := scope.follows_define hm
  leave := Follows.leave (outer_enterFunction _ _ _)

end Scope

/-- A program defines globals of some of the names that it binds, and leaves the table otherwise as it
is. -/
theorem Program.resolve_defines {program : Program} {table : Table} {later : Scope}
    {stmts : List Core.Stmt} (h : Stmt.resolveAll program ⟨table, []⟩ = .ok (stmts, later)) :
    ∃ defined, defined ⊆ Stmt.allBindings program ∧ later = ⟨table.defineGlobals defined, []⟩ := by
  have hfollows : Scope.Follows (Stmt.allBindings program) ⟨table, []⟩ later :=
    Scope.followsEvolution.of_resolveAll h
  obtain ⟨table', outer'⟩ := later
  obtain rfl : outer' = [] := List.length_eq_zero_iff.mp hfollows.depth
  obtain ⟨defined, hdefined, houtermost⟩ := hfollows.defines
  obtain rfl : table' = table.defineGlobals defined := houtermost
  exact ⟨defined, fun name hm => (hdefined name hm).2, rfl⟩

/-! ## Programs one after the other -/

namespace Bench

variable {assembly : Assembly}

/-- Step by step, a program comes to what compiling gives. The buffers of its functions have been put
aside and taken back by then. -/
theorem proceeds_program_iff (hb : assembly.buffer = {}) {program : Program} {after : Bench} :
    Proceeds (fun _ => True) (program.map .statement) ⟨assembly, []⟩ (.ok after) ↔
      ∃ later, Stmt.compileAll program assembly = .ok later ∧ after = ⟨later, []⟩ := by
  have hprogram := amounts_program program _ (tidy_of_empty hb)
  constructor
  · intro h
    have hafter := h.unique hprogram
    cases hlater : Stmt.compileAll program assembly with
    | error error =>
        rw [hlater] at hafter
        cases hafter
    | ok later =>
        rw [hlater] at hafter
        exact ⟨later, rfl, Except.ok.inj hafter⟩
  · rintro ⟨later, hlater, rfl⟩
    rw [hlater] at hprogram
    exact hprogram.mono fun _ _ => trivial

/-- Step by step, programs leave what compiling them one after the other leaves, and nothing is put
aside. -/
theorem leaves_iff (hb : assembly.buffer = {}) {programs : List Program} {last : Bench} :
    Leaves programs ⟨assembly, []⟩ last ↔ ∃ bytecodes after,
      Program.compileEach programs assembly = .ok (bytecodes, after) ∧ last = ⟨after, []⟩ := by
  induction programs generalizing assembly with
  | nil =>
      rw [leaves_nil_iff]
      constructor
      · rintro rfl
        exact ⟨[], assembly, rfl, rfl⟩
      · rintro ⟨bytecodes, after, h, rfl⟩
        obtain ⟨-, rfl⟩ := Prod.mk.inj (Except.ok.inj h)
        rfl
  | cons program programs ih =>
      constructor
      · intro h
        obtain _ | ⟨hfirst, hrest⟩ := h
        obtain ⟨later, hlater, rfl⟩ := (proceeds_program_iff hb).mp hfirst
        obtain ⟨rest, after, heach, rfl⟩ := (ih rfl).mp hrest
        have hcompile := Program.compile_eq_ok_iff.mpr ⟨later, hlater, rfl, rfl⟩
        exact ⟨_, after, Program.compileEach_cons_eq_ok_iff.mpr ⟨_, _, rest, hcompile, heach, rfl⟩, rfl⟩
      · rintro ⟨bytecodes, after, h, rfl⟩
        obtain ⟨bytecode, middle, rest, hfirst, hrest, rfl⟩ :=
          Program.compileEach_cons_eq_ok_iff.mp h
        obtain ⟨later, hlater, rfl, rfl⟩ := Program.compile_eq_ok_iff.mp hfirst
        exact .cons ((proceeds_program_iff hb).mpr ⟨later, hlater, rfl⟩)
          ((ih rfl).mpr ⟨rest, after, hrest, rfl⟩)

end Bench

namespace Assembly

/-- What a program leaves for the next one, if these are the programs so far: the outermost table,
which captures nothing and whose globals have slots of their own, no code, and no buffer of an
enclosing function. A builtin is bound to its name if no program binds this name outside of its
functions. -/
structure Settled (programs : List Program) (assembly : Assembly) : Prop where
  outermost : assembly.scope.outer = []
  uncaptured : assembly.scope.table.free = []
  empty : assembly.buffer = {}
  unenclosed : ∀ last, Bench.Leaves programs ⟨initial, []⟩ last ↔ last = ⟨assembly, []⟩
  numbered : assembly.scope.table.Numbered
  builtins : ∀ builtin : Builtin,
    (∀ program ∈ programs, builtin.name ∉ Stmt.allBindings program) →
      assembly.scope.table.find? builtin.name = some ⟨builtin.name, .builtin, builtin.index⟩

/-- The later assembly has the globals and the constants of the earlier one. -/
structure Keeps (assembly later : Assembly) : Prop where
  globals : ∀ name symbol, assembly.scope.table.find? name = some symbol →
    symbol.place = .global → later.scope.table.find? name = some symbol
  constants : ∃ added, later.constants = assembly.constants ++ added

theorem Keeps.refl (assembly : Assembly) : assembly.Keeps assembly :=
  ⟨fun _ _ h _ => h, #[], Array.append_empty.symm⟩

theorem Keeps.trans {first second third : Assembly} (h : first.Keeps second)
    (h' : second.Keeps third) : first.Keeps third := by
  obtain ⟨added, hadded⟩ := h.constants
  obtain ⟨added', hadded'⟩ := h'.constants
  constructor
  · intro name symbol hfind hglobal
    exact h'.globals name symbol (h.globals name symbol hfind hglobal) hglobal
  · exact ⟨added ++ added', by rw [hadded', hadded, Array.append_assoc]⟩

/-- Only the builtins are bound at first. -/
theorem settled_initial : initial.Settled [] where
  outermost := rfl
  uncaptured := rfl
  empty := rfl
  unenclosed _ := Bench.leaves_nil_iff
  numbered := by
    have hbuiltin : ∀ name symbol, initial.scope.table.find? name = some symbol →
        symbol.place ≠ .global := by
      intro name symbol hfind
      have hbound : ∀ symbol ∈ initial.scope.table.bound, symbol.place ≠ .global := by decide
      exact hbound symbol (List.mem_of_find?_eq_some hfind)
    constructor
    · intro name symbol hfind hglobal
      exact absurd hglobal (hbuiltin name symbol hfind)
    · intro name _ symbol _ hfind _ hglobal
      exact absurd hglobal (hbuiltin name symbol hfind)
  builtins builtin _ := by cases builtin <;> decide

/-- One program more. -/
theorem Settled.compile {programs : List Program} {program : Program} {before after : Assembly}
    {bytecode : Bytecode} (hs : before.Settled programs)
    (h : program.compile before = .ok (bytecode, after)) :
    after.Settled (programs ++ [program]) ∧ before.Keeps after := by
  have hleaves : ∀ last, Bench.Leaves (programs ++ [program]) ⟨initial, []⟩ last ↔
      last = ⟨after, []⟩ := by
    have heach : Program.compileEach [program] before = .ok ([bytecode], after) :=
      Program.compileEach_cons_eq_ok_iff.mpr ⟨bytecode, after, [], h, rfl, rfl⟩
    intro last
    simp only [Bench.leaves_append_iff, hs.unenclosed, exists_eq_left, Bench.leaves_iff hs.empty,
      heach, Except.ok.injEq, Prod.mk.injEq]
    simp
  obtain ⟨stmts, hresolve, -, -, hconstants, hafter⟩ := Program.compile_generates hs.empty h
  obtain ⟨constants, ⟨table, outer⟩, buffer⟩ := before
  obtain rfl : outer = [] := hs.outermost
  obtain ⟨defined, hdefined, hscope⟩ := Program.resolve_defines hresolve
  rw [hafter, hscope]
  constructor
  · constructor
    · rfl
    · exact Table.free_defineGlobals.trans hs.uncaptured
    · rfl
    · rwa [hafter, hscope] at hleaves
    · exact hs.numbered.defineGlobals
    · intro builtin hunbound
      rw [List.forall_mem_append] at hunbound
      have hnew : builtin.name ∉ defined := fun hm =>
        hunbound.2 program (List.mem_singleton_self program) (hdefined hm)
      exact (Table.find?_defineGlobals_of_not_mem hnew).trans (hs.builtins builtin hunbound.1)
  · constructor
    · intro name symbol hfind hglobal
      exact Table.find?_defineGlobals_of_global hfind hglobal
    · exact ⟨_, hconstants⟩

/-- Programs more, one after the other. -/
theorem Settled.compileEach {programs later : List Program} {before after : Assembly}
    {bytecodes : List Bytecode} (hs : before.Settled programs)
    (h : Program.compileEach later before = .ok (bytecodes, after)) :
    after.Settled (programs ++ later) ∧ before.Keeps after := by
  induction later generalizing programs before bytecodes with
  | nil =>
      obtain ⟨rfl, rfl⟩ := Prod.mk.inj (Except.ok.inj h)
      rw [List.append_nil]
      exact ⟨hs, .refl before⟩
  | cons program later ih =>
      obtain ⟨bytecode, middle, rest, hfirst, hrest, rfl⟩ := Program.compileEach_cons_eq_ok_iff.mp h
      obtain ⟨hmiddle, hkeeps⟩ := hs.compile hfirst
      obtain ⟨hlast, hkeeps'⟩ := ih hmiddle hrest
      rw [List.append_assoc] at hlast
      exact ⟨hlast, hkeeps.trans hkeeps'⟩

end Assembly

/-- Names keep their slots for the life of a session: whatever one compiler has compiled, each further
program leaves the outermost table as the programs so far have left it, but for new globals. -/
theorem compileEach_keeps_names {programs later : List Program} {before after : Assembly}
    {bytecodes bytecodes' : List Bytecode}
    (h : Program.compileEach programs Assembly.initial = .ok (bytecodes, before))
    (h' : Program.compileEach later before = .ok (bytecodes', after)) :
    before.Settled programs ∧ after.Settled (programs ++ later) ∧ before.Keeps after := by
  have hbefore := (Assembly.settled_initial.compileEach h).1
  exact ⟨hbefore, hbefore.compileEach h'⟩

/-- A program that binds a name, and one that binds the name of a builtin in a branch. -/
theorem compileEach_keeps_names_shadowed :
    ∃ before after bytecodes bytecodes',
      Program.compileEach [[.binding "a" (.integer 1)]] Assembly.initial =
        .ok (bytecodes, before) ∧
      Program.compileEach [[.expr (.condition (.name "a") [.binding "len" (.name "a")] none)]]
        before = .ok (bytecodes', after) ∧
      before.Settled [[.binding "a" (.integer 1)]] ∧
      after.Settled ([[.binding "a" (.integer 1)]] ++
        [[.expr (.condition (.name "a") [.binding "len" (.name "a")] none)]]) ∧
      before.Keeps after := by
  have hok : (Program.compileEach [[.binding "a" (.integer 1)]] Assembly.initial >>= fun first =>
      Program.compileEach [[.expr (.condition (.name "a") [.binding "len" (.name "a")] none)]]
        first.2).isOk = true := by
    decide +kernel
  obtain ⟨⟨bytecodes', after⟩, hok⟩ := Except.exists_of_isOk hok
  obtain ⟨⟨bytecodes, before⟩, h, h'⟩ := Except.bind_eq_ok_iff.mp hok
  exact ⟨before, after, bytecodes, bytecodes', h, h', compileEach_keeps_names h h'⟩

end StackScript
