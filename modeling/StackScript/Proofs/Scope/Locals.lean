import Mathlib.Data.List.Induction
import StackScript.Proofs.Scope.Chain
import StackScript.Proofs.Scope.Evolution

/-!
# Locals keep their slots

A name that has a slot in a table keeps it, and a name that is defined later gets a slot behind those
that there were. Parameters are defined first. If no parameter is listed twice, each of them has the
slot of its argument, and all other locals have slots behind those of the arguments.
-/

namespace StackScript

/-! ## One table -/

namespace Table

/-- The later table has the variables of the earlier one in their slots, and perhaps others behind. -/
structure Evolves (place : Symbol.Place) (table later : Table) : Prop where
  grows : table.definitions ≤ later.definitions
  kept : ∀ symbol, table.Binds symbol → symbol.place = place → later.Binds symbol
  added : ∀ symbol, later.Binds symbol → symbol.place = place →
    table.Binds symbol ∨
      (table.definitions ≤ symbol.index ∧ symbol.index < later.definitions)

variable {place : Symbol.Place} {table : Table}

theorem Evolves.refl (place : Symbol.Place) (table : Table) : table.Evolves place table where
  grows := Nat.le_refl _
  kept _ h _ := h
  added _ h _ := .inl h

theorem Evolves.trans {first second third : Table} (h : first.Evolves place second)
    (h' : second.Evolves place third) : first.Evolves place third where
  grows := Nat.le_trans h.grows h'.grows
  kept symbol hs hp := h'.kept symbol (h.kept symbol hs hp) hp
  added symbol hs hp := by
    have hgrows := h.grows
    have hgrows' := h'.grows
    rcases h'.added symbol hs hp with hsecond | hnew
    · rcases h.added symbol hsecond hp with hfirst | hnew
      · exact .inl hfirst
      · exact .inr (by omega)
    · exact .inr (by omega)

theorem evolves_define (place : Symbol.Place) (table : Table) (name : String) :
    table.Evolves place (table.define place name).2 := by
  obtain ⟨symbol, -, -, heq⟩ | ⟨hfree, heq⟩ := table.define_cases place name
  · rw [heq]
    exact .refl place table
  · rw [heq]
    constructor
    · exact Nat.le_succ _
    · intro symbol hs hp
      refine binds_bind.mpr (.inr ⟨?_, hs⟩)
      rintro rfl
      exact hfree symbol hs hp
    · intro symbol hs hp
      obtain rfl | ⟨-, hold⟩ := binds_bind.mp hs
      · exact .inr ⟨Nat.le_refl _, Nat.lt_succ_self _⟩
      · exact .inl hold

/-- Capturing a name that is not bound changes no variable. -/
theorem evolves_capture {original : Symbol} (h : table.find? original.name = none)
    (hp : place ≠ .free) : table.Evolves place (table.capture original).2 := by
  constructor
  · exact Nat.le_refl _
  · intro symbol hs _
    refine binds_bind.mpr (.inr ⟨?_, hs⟩)
    intro hname
    have hbound : table.find? original.name = some symbol := hname ▸ hs
    rw [h] at hbound
    cases hbound
  · intro symbol hs hplace
    obtain rfl | ⟨-, hold⟩ := binds_bind.mp hs
    · exact absurd hplace.symm hp
    · exact .inl hold

/-- The table with the parameters of a function as its locals. -/
def defineParams (table : Table) (params : List String) : Table :=
  params.foldl (fun table param => (table.define .local param).2) table

theorem defineParams_append (table : Table) (params others : List String) :
    table.defineParams (params ++ others) = (table.defineParams params).defineParams others :=
  List.foldl_append ..

theorem evolves_defineParams (table : Table) (params : List String) :
    table.Evolves .local (table.defineParams params) := by
  induction params generalizing table with
  | nil => exact .refl .local table
  | cons param params ih =>
      exact (evolves_define .local table param).trans (ih (table.define .local param).2)

/-- In a table without locals, the parameters that are listed once are the locals, in their order. -/
theorem binds_defineParams (hd : table.definitions = 0)
    (hl : ∀ symbol, table.Binds symbol → symbol.place ≠ .local) {params : List String}
    (hn : params.Nodup) :
    (table.defineParams params).definitions = params.length ∧
      ∀ name index, (table.defineParams params).Binds ⟨name, .local, index⟩ ↔
        params[index]? = some name := by
  induction params using List.reverseRecOn with
  | nil =>
      refine ⟨hd, fun name index => ?_⟩
      rw [List.getElem?_nil]
      exact ⟨fun hbinds => absurd rfl (hl _ hbinds), nofun⟩
  | append_singleton params param ih =>
      obtain ⟨hparams, -, hnew⟩ := List.nodup_append.mp hn
      obtain ⟨hdefinitions, hbinds⟩ := ih hparams
      have hparam : param ∉ params := fun hm =>
        hnew param hm param (List.mem_singleton_self param) rfl
      have hdefine : table.defineParams (params ++ [param]) =
          ((table.defineParams params).define .local param).2 := defineParams_append ..
      rw [hdefine]
      obtain ⟨symbol, hfind, hplace, -⟩ | ⟨hfree, heq⟩ :=
        (table.defineParams params).define_cases .local param
      · -- The last parameter would be an earlier one, too.
        obtain ⟨name, place, index⟩ := symbol
        obtain rfl : place = .local := hplace
        obtain rfl : name = param := name_of_find? hfind
        exact absurd (List.mem_of_getElem? ((hbinds name index).mp (binds_of_find? hfind))) hparam
      · rw [heq]
        refine ⟨by simp [hdefinitions], fun name index => ?_⟩
        refine binds_bind.trans ?_
        rw [hbinds, hdefinitions]
        constructor
        · rintro (hsymbol | ⟨-, hold⟩)
          · cases hsymbol
            exact List.getElem?_concat_length
          · exact List.getElem?_append_left (List.getElem?_eq_some_iff.mp hold).1 ▸ hold
        · intro hget
          by_cases hlt : index < params.length
          · rw [List.getElem?_append_left hlt] at hget
            refine .inr ⟨?_, hget⟩
            rintro rfl
            exact hparam (List.mem_of_getElem? hget)
          · have hlast : index < (params ++ [param]).length := (List.getElem?_eq_some_iff.mp hget).1
            obtain rfl : index = params.length := by
              rw [List.length_append, List.length_singleton] at hlast
              omega
            obtain rfl : param = name := by simpa using hget
            exact .inl rfl

end Table

/-! ## Scopes -/

namespace Scope

/-- The tables of the later scope have evolved from those of the earlier one. Variables are globals in
the outermost table and locals in the others. -/
inductive Evolves : (scope later : Scope) → Prop where
  | outermost {table later : Table} (h : table.Evolves .global later) :
    Evolves ⟨table, []⟩ ⟨later, []⟩
  | inner {table later next next' : Table} {rest rest' : List Table}
    (h : table.Evolves .local later) (around : Evolves ⟨next, rest⟩ ⟨next', rest'⟩) :
    Evolves ⟨table, next :: rest⟩ ⟨later, next' :: rest'⟩

theorem Evolves.refl (scope : Scope) : scope.Evolves scope := by
  obtain ⟨table, outer⟩ := scope
  induction outer generalizing table with
  | nil => exact .outermost (.refl _ table)
  | cons next rest ih => exact .inner (.refl _ table) (ih next)

theorem Evolves.trans {first second third : Scope} (h : first.Evolves second)
    (h' : second.Evolves third) : first.Evolves third := by
  induction h generalizing third with
  | outermost h =>
      cases h' with
      | outermost h' => exact .outermost (h.trans h')
  | inner h _ ih =>
      cases h' with
      | inner h' around' => exact .inner (h.trans h') (ih around')

/-- What looking a name up finds has this name. -/
theorem LooksUp.name_eq {name : String} {tables later : List Table} {resolution : Resolution}
    {symbol : Symbol} (h : LooksUp name tables resolution later)
    (hs : resolution.symbol? = some symbol) : symbol.name = name := by
  cases h with
  | notFound unbound => cases hs
  | found inner split unbound bound here =>
      cases hs
      exact Table.name_of_find? bound
  | captured inner split unbound bound inside place captures last =>
      cases hs
      rfl

/-- Looking a name up captures it where it is not bound, and changes nothing else. -/
theorem evolves_resolveIn (name : String) (table : Table) (outer : List Table) :
    Evolves ⟨table, outer⟩ (resolveIn name table outer).2 := by
  induction outer generalizing table with
  | nil =>
      rw [resolveIn]
      split
      · exact .refl _
      · exact .refl _
  | cons next rest ih =>
      cases hbound : table.find? name with
      | some symbol =>
          rw [resolveIn_of_bound hbound]
          exact .refl _
      | none =>
          obtain ⟨resolution, enclosing, heq, hcases⟩ :=
            resolveIn_of_unbound next rest hbound
          have hnext := ih next
          have hlooks := looksUp_resolveIn name next rest
          rw [heq] at hnext hlooks
          obtain ⟨-, hlast⟩ | ⟨symbol, hsymbol, ⟨-, hlast⟩ | ⟨-, hlast⟩⟩ := hcases
          · rw [hlast]
            exact .inner (.refl _ table) hnext
          · rw [hlast]
            exact .inner (.refl _ table) hnext
          · rw [hlast]
            rw [← hlooks.name_eq hsymbol] at hbound
            exact .inner (Table.evolves_capture hbound (by rintro ⟨⟩)) hnext

theorem evolves_find {scope later : Scope} {name : String} {symbol : Symbol}
    (h : scope.find name = .ok (symbol, later)) : scope.Evolves later := by
  rw [← resolveIn_of_find h]
  exact evolves_resolveIn name scope.table scope.outer

theorem evolves_define (scope : Scope) (name : String) : scope.Evolves (scope.define name).2 := by
  obtain ⟨table, outer⟩ := scope
  cases outer with
  | nil => exact .outermost (table.evolves_define .global name)
  | cons next rest => exact .inner (table.evolves_define .local name) (.refl ⟨next, rest⟩)

/-! ## Functions -/

/-- The table of a function in which nothing but its own name is bound. -/
def nameTable : Option String → Table
  | none => {}
  | some name => ({} : Table).bind ⟨name, .function, 0⟩

theorem definitions_nameTable (name : Option String) : (nameTable name).definitions = 0 := by
  cases name <;> rfl

theorem place_of_binds_nameTable {name : Option String} {symbol : Symbol}
    (h : (nameTable name).Binds symbol) : symbol.place ≠ .local := by
  cases name with
  | none => cases h
  | some name =>
      obtain rfl | ⟨-, hempty⟩ := Table.binds_bind.mp h
      · exact nofun
      · cases hempty

/-- The body of a function starts with its parameters as the locals. -/
theorem enterFunction_eq (scope : Scope) (name : Option String) (params : List String) :
    scope.enterFunction name params =
      ⟨(nameTable name).defineParams params, scope.table :: scope.outer⟩ := by
  have hparams (table : Table) :
      params.foldl (fun scope param => (scope.define param).2)
          (⟨table, scope.table :: scope.outer⟩ : Scope) =
        ⟨table.defineParams params, scope.table :: scope.outer⟩ := by
    induction params generalizing table with
    | nil => rfl
    | cons param params ih => exact ih (table.define .local param).2
  cases name with
  | none => exact hparams {}
  | some name => exact hparams _

/-- A function leaves the scope around it evolved. -/
theorem Evolves.leave {scope later : Scope} {name : Option String} {params : List String}
    (h : (scope.enterFunction name params).Evolves later) :
    scope.Evolves (later.leave?.getD later) := by
  rw [enterFunction_eq] at h
  cases h with
  | inner _ around => exact around

/-- Evolving is kept by all that resolving does to a scope. -/
def evolvesEvolution : Evolution where
  follows _ := Evolves
  refl _ := Evolves.refl
  trans := Evolves.trans
  find := evolves_find
  define scope _ := scope.evolves_define _
  leave := Evolves.leave

variable {scope inner : Scope} {name : Option String} {params : List String} {body : List Stmt}
  {stmts : List Core.Stmt}

theorem table_evolves_of_resolveAll
    (h : Stmt.resolveAll body (scope.enterFunction name params) = .ok (stmts, inner)) :
    ((nameTable name).defineParams params).Evolves .local inner.table := by
  have hevolves : (scope.enterFunction name params).Evolves inner :=
    evolvesEvolution.of_resolveAll h
  rw [enterFunction_eq] at hevolves
  cases hevolves with
  | inner htable _ => exact htable

/-- The tables around a function are there when its body has been resolved. -/
theorem outer_ne_nil_of_resolveAll
    (h : Stmt.resolveAll body (scope.enterFunction name params) = .ok (stmts, inner)) :
    inner.outer ≠ [] := by
  have hevolves : (scope.enterFunction name params).Evolves inner :=
    evolvesEvolution.of_resolveAll h
  rw [enterFunction_eq] at hevolves
  cases hevolves
  exact List.cons_ne_nil _ _

/-- A parameter has the slot of its argument if no name is listed twice up to it. -/
theorem binds_param
    (h : Stmt.resolveAll body (scope.enterFunction name params) = .ok (stmts, inner)) {param : String}
    {index : Nat} (hp : params[index]? = some param) (hn : (params.take (index + 1)).Nodup) :
    inner.table.Binds ⟨param, .local, index⟩ := by
  refine (table_evolves_of_resolveAll h).kept _ ?_ rfl
  rw [← params.take_append_drop (index + 1), Table.defineParams_append]
  refine (Table.evolves_defineParams _ _).kept _ ?_ rfl
  refine ((Table.binds_defineParams (definitions_nameTable name)
    (fun _ => place_of_binds_nameTable) hn).2 param index).mpr ?_
  rw [List.getElem?_take_of_lt (Nat.lt_succ_self index)]
  exact hp

/-- The other locals have slots behind those of the arguments if no parameter is listed twice. -/
theorem local_behind_params
    (h : Stmt.resolveAll body (scope.enterFunction name params) = .ok (stmts, inner)) {other : String}
    {index : Nat} (hb : inner.table.Binds ⟨other, .local, index⟩) (ho : other ∉ params)
    (hn : params.Nodup) : params.length ≤ index ∧ index < inner.table.definitions := by
  obtain ⟨hdefinitions, hbinds⟩ := Table.binds_defineParams (definitions_nameTable name)
    (fun _ => place_of_binds_nameTable) hn
  rcases (table_evolves_of_resolveAll h).added _ hb rfl with hold | hnew
  · exact absurd (List.mem_of_getElem? ((hbinds other index).mp hold)) ho
  · rwa [hdefinitions] at hnew

end Scope

end StackScript
