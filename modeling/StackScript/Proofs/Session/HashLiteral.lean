import StackScript.Proofs.Assembly.HashLiteral
import StackScript.Proofs.Core.Constant
import StackScript.Proofs.Machine.Evaluation
import StackScript.Proofs.Session.Activations

/-!
# What a hash literal holds

The code of a hash literal evaluates its pairs in the order of the texts of their keys and puts them
in in this order. Pairs with the same key keep their order, so that the last of them holds, and keys
of different types are never the same.
-/

namespace StackScript

open Core.Generator Instruction

/-- A pair of a hash literal, with the value that its expression has produced. -/
structure Produced where
  key : Key
  expr : Expr
  value : Value

namespace Produced

/-- The pair as it stands in the literal. -/
def item (produced : Produced) : Key × Expr :=
  (produced.key, produced.expr)

/-- The expressions of the pair, with their values. -/
def parts (produced : Produced) : List (Expr × Value) :=
  [(produced.key.literal, .ofKey produced.key), (produced.expr, produced.value)]

/-- The entry that is put in for the pair. -/
def entry (produced : Produced) : Key × Value :=
  (produced.key, produced.value)

theorem map_snd_parts (pairs : List Produced) :
    (pairs.flatMap parts).map Prod.snd =
      (pairs.map entry).flatMap fun entry => [.ofKey entry.1, entry.2] := by
  rw [List.map_flatMap, List.flatMap_map]
  rfl

end Produced

namespace Machine

variable {start ended : Machine} {before between after : Assembly}

/-! ## Keys -/

/-- The code of the literal of a key leaves the value of the key. -/
theorem Evaluates.eq_ofKey {key : Key} {value : Value} (ho : start.Orderly)
    (h : key.literal.compile before = .ok after) (hc : start.Carries before after)
    (he : start.Evaluates before after [value] ended) : value = .ofKey key := by
  have hconstant : ∀ constant : Core.Constant, (∀ fn, constant ≠ .function fn) →
      before.emitConstant constant.toValue = .ok after → value = constant.toValue := by
    intro constant hfn hemit
    obtain ⟨-, hg⟩ := Assembly.generates_of_emitConstant hemit hfn
    have hheld : start.constants[before.constants.size]? = some constant.toValue :=
      (hc.instructions hg).2 0 _ rfl
    refine he.eq_of_execute ho hc hg nofun ?_
    show (get >>= fun machine : Machine =>
      Act.operandValue .constant _ machine.constants[before.constants.size]? >>= Act.push) _ = _
    show (Act.operandValue .constant _ start.constants[before.constants.size]? >>= Act.push) _ = _
    rw [hheld]
    rfl
  cases key with
  | integer value => exact hconstant (.integer value) nofun h
  | text value => exact hconstant (.text value) nofun h
  | boolean value =>
      cases value with
      | true => exact he.eq_of_execute ho hc (Assembly.generates_of_emit h).2 nofun rfl
      | false => exact he.eq_of_execute ho hc (Assembly.generates_of_emit h).2 nofun rfl

theorem EvaluatesAll.emits {parts : List (Expr × Value)}
    (h : start.EvaluatesAll before parts after ended) : ∃ fragment, before.Emits fragment after := by
  induction h with
  | @nil machine assembly h => exact ⟨_, Assembly.generates_empty assembly⟩
  | cons compile _ _ ih =>
      obtain ⟨core, -, hg⟩ := compositional_compiles.expression _ _ _ compile
      obtain ⟨fragment, hrest⟩ := ih
      exact ⟨_, Assembly.Emits.append hg hrest⟩

/-- Of the pairs of a hash literal, the keys have left their own values. -/
theorem EvaluatesAll.exists_produced {limits : Limits} {constants : Array Value} {slots : Nat}
    {items : List (Key × Expr)} {parts : List (Expr × Value)} (ho : start.Orderly)
    (hb : start.Bounded limits constants slots) (hc : start.Carries before after)
    (h : start.EvaluatesAll before parts after ended)
    (hp : parts.map Prod.fst = items.flatMap fun item => [item.1.literal, item.2]) :
    ∃ pairs : List Produced, pairs.map Produced.item = items ∧
      parts = pairs.flatMap Produced.parts := by
  induction items generalizing start before parts with
  | nil => exact ⟨[], rfl, List.map_eq_nil_iff.mp hp⟩
  | cons item items ih =>
      obtain ⟨key, expr⟩ := item
      cases h with
      | nil => simp at hp
      | cons hkey hfirst hothers =>
      cases hothers with
      | nil => simp at hp
      | @cons _ _ _ _ _ _ source value _ hexpr hsecond hrest =>
      obtain ⟨rfl, rfl, hparts⟩ : _ ∧ _ ∧ _ := by
        simpa using hp
      obtain ⟨core, -, hg⟩ := compositional_compiles.expression _ _ _ hkey
      obtain ⟨core', -, hg'⟩ := compositional_compiles.expression _ _ _ hexpr
      obtain ⟨fragment, hemits⟩ := hrest.emits
      obtain rfl := hfirst.eq_ofKey ho hkey (hc.left (Assembly.Emits.append hg' hemits))
      have ho' := (hfirst.during.stacked ho).1
      have hcarries := ((hfirst.walks ho).congr hb hc).right hg
      have hcarries' := ((hsecond.walks ho').congr (hb.during hfirst.during) hcarries).right hg'
      obtain ⟨pairs, hitems, hpairs⟩ := ih (hsecond.during.stacked ho').1
        ((hb.during hfirst.during).during hsecond.during) hcarries' hrest hparts
      refine ⟨⟨key, source, value⟩ :: pairs, ?_, ?_⟩
      · rw [List.map_cons, hitems]
        rfl
      · rw [hpairs]
        rfl

/-- The instruction that makes a hash takes the keys and values that lie on top of the stack. -/
theorem execute_hash {entries : List (Key × Value)} {low : Nat} (machine : Machine)
    (ht : machine.top = low + entries.length * 2)
    (hv : ∀ k value, (entries.flatMap fun entry => [ValueOver.ofKey entry.1, entry.2])[k]? =
      some value → machine.stack[low + k]? = some value) :
    Act.execute ⟨.hash, [entries.length * 2]⟩ machine =
      Act.push (ValueOver.ofEntries entries) { machine with top := low } := by
  let values : List Value := entries.flatMap fun entry => [ValueOver.ofKey entry.1, entry.2]
  have hlength : values.length = entries.length * 2 := by
    simp [values, List.length_flatMap]
  have hextract : (machine.stack.extract (machine.top - entries.length * 2) machine.top).toList =
      values := by
    refine List.ext_getElem? fun k => ?_
    rw [Array.getElem?_toList, Array.getElem?_extract, ht, Nat.add_sub_cancel]
    by_cases hlt : k < values.length
    · have hslot := hv k _ (List.getElem?_eq_getElem hlt)
      have hsize : low + k < machine.stack.size := (Array.getElem?_eq_some_iff.mp hslot).1
      rw [if_pos (by omega), hslot]
      exact (List.getElem?_eq_getElem hlt).symm
    · rw [if_neg (by omega), List.getElem?_eq_none (Nat.le_of_not_lt hlt)]
  have hpop : Act.popMany (entries.length * 2) machine =
      .ok values { machine with top := low } := by
    rw [Act.popMany_apply, if_neg (by omega), hextract, ht, Nat.add_sub_cancel]
  have hhash : ValueOver.hashOf values = .ok (ValueOver.ofEntries entries) := by
    rw [ValueOver.hashOf, ValueOver.pairUp_flatMap]
    rfl
  show (Act.popMany (entries.length * 2) >>= fun values => 
    Act.pushResult (ValueOver.hashOf values)) machine = _
  rw [EStateM.bind_of_ok hpop, hhash]
  rfl

/-- A frame that has evaluated keys and values in turn, and has come behind the instruction that
follows, has made a hash of them. -/
theorem Evaluates.hash {entries : List (Key × Value)} {reached : Machine} (ho : start.Orderly)
    (h : start.Evaluates before between
      (entries.flatMap fun entry => [ValueOver.ofKey entry.1, entry.2]) reached)
    (hc : reached.Carries between after)
    (hg : between.Generates (single ⟨.hash, [entries.length * 2]⟩) after)
    (hw : reached.Walks ended) (hstop : ended.frame.next = after.position) :
    start.Evaluates before after [.ofEntries entries] ended := by
  have hnext : reached.frame.next = between.position := by rw [h.frame]
  have hposition : after.position =
      between.position + Instruction.size ⟨.hash, [entries.length * 2]⟩ :=
    Assembly.Emits.position hg
  have hd := (hc.instructions hg).1.1
  rw [← hnext] at hd
  have htop : reached.top = start.top + entries.length * 2 := by
    simpa [List.length_flatMap] using h.top
  obtain ⟨hroom, hended⟩ := hw.eq_pushed hd nofun (execute_hash _ htop h.values) rfl
    (by rw [hstop, hposition, hnext])
  have hwhole : start.Walks ended := (h.walks ho).trans hw
  refine ⟨hwhole.during.2, h.starts, by rw [hwhole.frame_eq, hstop], hwhole.callers_eq, ?_, ?_, ?_⟩
  · rw [hended]
    rfl
  · rintro (_ | k) value hvalue
    · obtain rfl := Option.some.inj hvalue
      rw [hended]
      exact Array.getElem?_setIfInBounds_self_of_lt hroom
    · cases hvalue
  · intro slot hle hlt
    rw [hended, ← h.kept slot hle hlt]
    exact Array.getElem?_setIfInBounds_ne (Nat.ne_of_gt hlt)

/-- A frame that has come behind the code of a hash literal has evaluated its pairs in the order of
their texts, and has made a hash of them. -/
theorem Walks.evaluates_keyed {limits : Limits} {constants : Array Value} {slots : Nat}
    {items : List (Key × Expr)} (ho : start.Orderly) (hb : start.Bounded limits constants slots)
    (h : (Expr.keyed items).compile before = .ok after) (hc : start.Carries before after)
    (hn : start.frame.next = before.position) (hw : start.Walks ended)
    (hstop : ended.frame.next = after.position) :
    ∃ pairs between reached, pairs.map Produced.item = items ∧
      start.EvaluatesAll before ((Key.sorted Produced.key pairs).flatMap Produced.parts) between
        reached ∧
      start.Evaluates before after
        [.ofEntries ((Key.sorted Produced.key pairs).map Produced.entry)] ended := by
  rw [Expr.compile_keyed] at h
  obtain ⟨between, hparts, hop⟩ := Except.bind_eq_ok_iff.mp h
  obtain ⟨cores, -, -, hg⟩ :=
    Expr.compileAll_generates (compositional_compiles.expressions _) hparts
  obtain ⟨-, hg'⟩ := Assembly.generates_of_emit hop
  obtain ⟨parts, reached, hfst, hall, hrest⟩ := hw.evaluatesAll ho hb hparts (hc.left hg') hn
    (by rw [hstop, Assembly.Emits.position hg']; exact Nat.le_add_right _ _)
  obtain ⟨sorted, hsorted, rfl⟩ := hall.exists_produced ho hb (hc.left hg') hfst
  obtain ⟨pairs, hpairs, rfl⟩ := exists_of_map_eq_sortedBy _ Produced.item hsorted
  refine ⟨pairs, between, reached, hpairs, hall, ?_⟩
  have hvalues := hall.evaluates ho
  rw [Produced.map_snd_parts] at hvalues
  have hcount : items.length = ((Key.sorted Produced.key pairs).map Produced.entry).length := by
    rw [← hpairs]
    simp
  rw [hcount] at hg'
  exact hvalues.hash ho (((hvalues.walks ho).congr hb hc).right hg) hg' hrest hstop

end Machine

/-- Of the pairs with a key, the last one that is written holds. -/
theorem element_ofEntries_sorted (pairs : List Produced) {index : Value} {key : Key}
    (h : index.key? = some key) :
    (ValueOver.ofEntries ((Key.sorted Produced.key pairs).map Produced.entry)).element index =
      .ok (((pairs.filter fun pair => pair.key = key).getLast?.map Produced.value).getD .null) := by
  have hkey : ∀ pair : Produced,
      decide (pair.key.renderQuoted = key.renderQuoted) = decide (pair.key = key) := fun pair =>
    decide_eq_decide.mpr ⟨Key.renderQuoted_inj, congrArg _⟩
  -- Sorting keeps the pairs with one key in their order.
  have hfilter : (Key.sorted Produced.key pairs).filter (fun pair => pair.key = key) =
      pairs.filter fun pair => pair.key = key := by
    simpa only [hkey] using
      filter_sortedBy (fun pair : Produced => pair.key.renderQuoted) pairs key.renderQuoted
  have hentries : ((Key.sorted Produced.key pairs).map Produced.entry).filter
      (fun entry => entry.1 = key) =
        (pairs.filter fun pair => pair.key = key).map Produced.entry := by
    rw [← hfilter, List.filter_map]
    rfl
  have hlookup := lookup_foldl_insertEntry key ((Key.sorted Produced.key pairs).map Produced.entry) []
  rw [hentries, List.getLast?_map, Option.map_map, List.lookup_nil, Option.or_none] at hlookup
  simp only [ValueOver.ofEntries, ValueOver.element, h]
  rw [hlookup]
  rfl

/-- Hash literals hold the last value of every key. Let a program of a session, which has run so far,
be about to run the code of a hash literal with literal keys. If the same activation comes behind this
code, it has evaluated the pairs in the order of the texts of their keys and has left a hash. Under
each key the hash has the value of the last pair with this key, in the order of the literal, and null
if there is none. Pairs with different keys are compiled to the same code in whatever order they are
written. -/
theorem hash_literal_holds_last (limits : Limits) (history : List (String × Nat))
    (items : List (Key × Expr)) :
    (∀ {program : Program} {bytecode : Bytecode} {assembly before after : Assembly} {steps : Nat}
        {start ended : Machine},
      program.compile (({ limits } : Session).afterAll history).assembly = .ok (bytecode, assembly) →
      (Machine.start bytecode limits (({ limits } : Session).afterAll history).globals).run steps =
        .unfinished start →
      (Expr.keyed items).compile before = .ok after → start.Carries before after →
      start.frame.next = before.position → start.During (fun _ => True) ended →
      ended.depth = start.depth → ended.frame.next = after.position →
      ∃ pairs between reached value, pairs.map Produced.item = items ∧
        start.EvaluatesAll before ((Key.sorted Produced.key pairs).flatMap Produced.parts) between
          reached ∧
        start.Evaluates before after [value] ended ∧
        ∀ index key, index.key? = some key → value.element index =
          .ok (((pairs.filter fun pair => pair.key = key).getLast?.map Produced.value).getD .null)) ∧
    ∀ others, items.Perm others → (items.map Prod.fst).Nodup →
      (Expr.keyed others).compile = (Expr.keyed items).compile := by
  refine ⟨?_, fun others => Expr.compile_keyed_of_perm⟩
  intro program bytecode assembly before after steps start ended h hr hl hc hn hduring hdepth hstop
  have ho := Session.orderly_of_run h hr
  have hb := ((Machine.bounded_start bytecode limits
    (({ limits } : Session).afterAll history).globals).run steps).2.1
  rw [hr] at hb
  obtain ⟨pairs, between, reached, hpairs, hall, hevaluates⟩ :=
    (hduring.walks ho hdepth).evaluates_keyed ho hb hl hc hn hstop
  exact ⟨pairs, between, reached, _, hpairs, hall, hevaluates,
    fun index key => element_ofEntries_sorted pairs⟩

/-- The code of a program with a single expression is that of the expression and an instruction that
takes its value off the stack. -/
theorem Program.compile_single {expr : Expr} {before after last : Assembly}
    (he : expr.compile before = .ok after) (hp : after.emit .pop [] = .ok last) :
    Program.compile [.expr expr] before =
      .ok (⟨last.buffer.code, last.constants⟩, { last with buffer := {} }) := by
  have hstmt : (Stmt.expr expr).compile before = .ok last := by
    rw [Stmt.compile, he]
    exact hp
  rw [Program.compile, Stmt.compileAll, hstmt]
  rfl

theorem Machine.carries_start {before after last : Assembly} (hp : after.emit .pop [] = .ok last)
    (limits : Limits) (globals : Array Value) :
    (Machine.start ⟨last.buffer.code, last.constants⟩ limits globals).Carries before after := by
  obtain ⟨-, rfl⟩ := Assembly.eq_of_emit hp
  refine ⟨fun offset _ hlt => ?_, fun _ _ _ => rfl⟩
  show (after.buffer.push .pop (Instruction.bytes ⟨.pop, []⟩)).code[offset]? = _
  rw [Buffer.code_push, Array.getElem?_append_left hlt]

/-- Expressions that are compiled in turn, and taken together as a hash, have made the hash of a
literal with nine steps. -/
def makesHash (exprs : List Expr) : Bool :=
  match Expr.compileAll exprs Assembly.initial >>= fun assembly => assembly.emit .hash [8] with
  | .error _ => false
  | .ok after =>
    match after.emit .pop [] with
    | .error _ => false
    | .ok last =>
      match (Machine.start ⟨last.buffer.code, last.constants⟩ ⟨16, 8, 4⟩ #[]).run 9 with
      | .unfinished ended =>
        match ended.stack[0]? with
        | some (ValueOver.hash [(.integer 1, .integer 30), (.boolean true, .integer 40),
            (.text "1", .integer 20)]) =>
          decide (ended.depth = 1 ∧ ended.frame.next = after.position)
        | _ => false
      | _ => false

/-- A literal has an integer, a text and a boolean as its keys. The integer stands in the first and in
the third pair, of which the third one holds. -/
theorem hash_literal_holds_last_mixed :
    let items : List (Key × Expr) := [(.integer 1, .integer 10), (.text "1", .integer 20),
      (.integer 1, .integer 30), (.boolean true, .integer 40)]
    (∃ bytecode assembly after ended value, ∃ pairs : List Produced,
      Program.compile [.expr (.keyed items)] Assembly.initial = .ok (bytecode, assembly) ∧
      (Expr.keyed items).compile Assembly.initial = .ok after ∧
      (Machine.start bytecode ⟨16, 8, 4⟩ #[]).Evaluates Assembly.initial after [value] ended ∧
      pairs.map Produced.item = items ∧ pairs[2]?.map Produced.value = some (.integer 30) ∧
      value.element (.integer 1) = .ok (.integer 30)) ∧
    (Expr.keyed (items.drop 1).reverse).compile = (Expr.keyed (items.drop 1)).compile := by
  intro items
  refine ⟨?_, (hash_literal_holds_last ⟨16, 8, 4⟩ [] (items.drop 1)).2 _
    (List.reverse_perm _).symm (by decide)⟩
  have hsorted : Key.sorted Prod.fst items = [(.text "1", .integer 20), (.integer 1, .integer 10),
      (.integer 1, .integer 30), (.boolean true, .integer 40)] := by
    have hafter : textLe (Key.integer 1).renderQuoted (Key.text "1").renderQuoted = false := by
      decide +kernel
    have hbefore : textLe (Key.text "1").renderQuoted (Key.integer 1).renderQuoted = true := by
      decide +kernel
    have hlast : textLe (Key.integer 1).renderQuoted (Key.boolean true).renderQuoted = true := by
      decide +kernel
    have hsame : textLe (Key.integer 1).renderQuoted (Key.integer 1).renderQuoted = true := by
      decide +kernel
    simp [items, Key.sorted, sortedBy, List.mergeSort, hafter, hbefore, hlast, hsame]
  have hmakes : makesHash ((Key.sorted Prod.fst items).flatMap fun item =>
      [item.1.literal, item.2]) = true := by
    rw [hsorted]
    decide +kernel
  unfold makesHash at hmakes
  split at hmakes
  case h_1 => cases hmakes
  case h_2 after hl =>
  split at hmakes
  case h_1 => cases hmakes
  case h_2 last hp =>
  split at hmakes
  case h_2 => cases hmakes
  case h_1 ended hr =>
  split at hmakes
  case h_2 => cases hmakes
  case h_1 hstack =>
  obtain ⟨hdepth, hstop⟩ := of_decide_eq_true hmakes
  have hcompile : (Expr.keyed items).compile Assembly.initial = .ok after := by
    rw [Expr.compile_keyed]
    exact hl
  have h := Program.compile_single hcompile hp
  have hduring := Machine.During.of_run rfl .enter hr
  obtain ⟨pairs, between, reached, value, hpairs, -, hevaluates, helement⟩ :=
    (hash_literal_holds_last ⟨16, 8, 4⟩ [] items).1 h
      (show Machine.run 0 _ = .unfinished (Machine.start _ ⟨16, 8, 4⟩ #[]) from rfl) hcompile
      (Machine.carries_start hp _ _) rfl hduring hdepth hstop
  obtain rfl := Option.some.inj ((hevaluates.values 0 value rfl).symm.trans hstack)
  refine ⟨_, _, after, ended, _, pairs, h, hcompile, hevaluates, hpairs, ?_, rfl⟩
  obtain ⟨first, _, rfl, hfirst, hrest⟩ := List.map_eq_cons_iff.mp hpairs
  obtain ⟨second, _, rfl, hsecond, hrest⟩ := List.map_eq_cons_iff.mp hrest
  obtain ⟨third, _, rfl, hthird, hrest⟩ := List.map_eq_cons_iff.mp hrest
  obtain ⟨fourth, _, rfl, hfourth, hrest⟩ := List.map_eq_cons_iff.mp hrest
  obtain rfl := List.map_eq_nil_iff.mp hrest
  have hkeys : first.key = .integer 1 ∧ second.key = .text "1" ∧ third.key = .integer 1 ∧
      fourth.key = .boolean true :=
    ⟨congrArg Prod.fst hfirst, congrArg Prod.fst hsecond, congrArg Prod.fst hthird,
      congrArg Prod.fst hfourth⟩
  have hone : Except.ok (ValueOver.integer 30) = _ := helement (.integer 1) (.integer 1) rfl
  have hthird : ValueOver.integer 30 = third.value := by
    simpa [List.filter_cons, hkeys] using hone
  exact congrArg some hthird.symm

end StackScript
