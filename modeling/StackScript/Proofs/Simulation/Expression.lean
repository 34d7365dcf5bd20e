import StackScript.Proofs.Core.Compositional
import StackScript.Proofs.Simulation.Step

/-!
# Generated code does what expressions mean

The machine that runs the code of an expression comes to the same value, to the same error, or to
the same return as the evaluation of the expression, or to one of its limits before.
-/

namespace StackScript

open StackScript.Core Instruction

namespace Core.Generator

/-- The offset behind the code. -/
def stop (generator : Generator) (start pool : Nat) : Nat :=
  start + sizes (generator start pool).code

/-- The number of constants behind those of the code. -/
def count (generator : Generator) (start pool : Nat) : Nat :=
  pool + (generator start pool).constants.length

theorem stop_append (first second : Generator) (start pool : Nat) :
    (first ++ second).stop start pool =
      second.stop (first.stop start pool) (first.count start pool) := by
  rw [stop, append_apply, sizes_append, ← Nat.add_assoc]
  rfl

end Core.Generator

/-- What a generator gives stands in the code of a site, and its constants are in the pool. -/
structure Site.Runs (setting : Setting) (site : Site) (generator : Generator)
    (start pool : Nat) : Prop where
  encodable : (generator start pool).Encodable
  held : Held setting.constants pool (generator start pool).constants
  carries : site.fn.code.Carries start (generator start pool).code

namespace Site.Runs

variable {setting : Setting} {site : Site} {first second : Generator} {start pool : Nat}

theorem left (h : site.Runs setting (first ++ second) start pool) :
    site.Runs setting first start pool :=
  ⟨h.encodable.left, h.held.left, (Code.carries_append.mp h.carries).1⟩

theorem right (h : site.Runs setting (first ++ second) start pool) :
    site.Runs setting second (first.stop start pool) (first.count start pool) :=
  ⟨h.encodable.right, h.held.right, (Code.carries_append.mp h.carries).2⟩

theorem single {instruction : Instruction} (h : site.Runs setting (.single instruction) start pool) :
    decode site.fn.code start = .ok instruction :=
  h.carries.1

/-- Two branches stand behind the jump over the first one, with the jump over the second one between
them. -/
theorem branches (h : site.Runs setting (.branches first second) start pool) :
    ∃ middle last,
      decode site.fn.code start = .ok ⟨.jumpUnless, [middle]⟩ ∧
      site.Runs setting first (start + 3) pool ∧
      decode site.fn.code (first.stop (start + 3) pool) = .ok ⟨.jump, [last]⟩ ∧
      site.Runs setting second middle (first.count (start + 3) pool) ∧
      second.stop middle (first.count (start + 3) pool) = last ∧
      (Generator.branches first second).stop start pool = last := by
  obtain ⟨middle, last, heq, hmiddle, hlast⟩ := Generator.branches_apply first second start pool
  have hparts : site.Runs setting
      ((Generator.single ⟨.jumpUnless, [middle]⟩ ++ first) ++
        (Generator.single ⟨.jump, [last]⟩ ++ second)) start pool := by
    obtain ⟨henc, hheld, hcarries⟩ := h
    rw [heq] at henc hheld hcarries
    exact ⟨henc, hheld, hcarries⟩
  have hunless : (Generator.single ⟨.jumpUnless, [middle]⟩).stop start pool = start + 3 := rfl
  have hstop : (Generator.single ⟨.jumpUnless, [middle]⟩ ++ first).stop start pool =
      first.stop (start + 3) pool := Generator.stop_append _ _ _ _
  have hcount : (Generator.single ⟨.jumpUnless, [middle]⟩ ++ first).count start pool =
      first.count (start + 3) pool := rfl
  have hsecond := hparts.right.right
  have hbetween := hparts.right.left.single
  rw [hstop, hcount] at hsecond
  rw [hstop] at hbetween
  have hmiddle' : (Generator.single ⟨.jump, [last]⟩).stop (first.stop (start + 3) pool)
      (first.count (start + 3) pool) = middle := hmiddle.symm
  rw [hmiddle'] at hsecond
  refine ⟨middle, last, hparts.left.left.single, hparts.left.right, hbetween, hsecond, hlast.symm,
    ?_⟩
  have hwhole : (Generator.branches first second).stop start pool =
      ((Generator.single ⟨.jumpUnless, [middle]⟩ ++ first) ++
        (Generator.single ⟨.jump, [last]⟩ ++ second)).stop start pool := by
    rw [Generator.stop, heq, ← Generator.stop]
  rw [hwhole, Generator.stop_append, hstop, hcount, Generator.stop_append, hmiddle', hlast]
  rfl

end Site.Runs

/-- A machine has the values of several expressions on its stack. -/
def ValuedAll (setting : Setting) (site : Site) (temps : List Value) (next count : Nat)
    (values : List Datum) (state : State) (machine : Machine) : Prop :=
  ∃ tops, tops.length = count ∧ List.Forall₂ setting.Stands values tops ∧
    At setting site state (temps ++ tops) next machine

section

variable (setting : Setting) (fuel : Nat) (enter : Enter)

/-- The code of an expression simulates its evaluation. -/
def Core.Expr.Simulated (expr : Expr) : Prop :=
  ∀ (site : Site) (state : State) (temps : List Value) (start pool : Nat) (machine : Machine),
    site.Valid setting fuel → expr.Fits (site.self.bounds setting.names) →
    site.Runs setting expr.generate start pool → At setting site state temps start machine →
    Simulates setting (expr.eval enter site.self state)
      (Valued setting site temps (expr.generate.stop start pool)) (Leaving setting site) machine

/-- The code of a statement simulates it. Behind a statement that returns nothing is run. -/
def Core.Stmt.Simulated (stmt : Stmt) : Prop :=
  ∀ (site : Site) (state : State) (temps : List Value) (start pool : Nat) (machine : Machine),
    site.Valid setting fuel → stmt.Fits (site.self.bounds setting.names) →
    site.Runs setting stmt.generate start pool → At setting site state temps start machine →
    Simulates setting (stmt.exec enter site.self state)
      (fun value state machine => stmt.returns = false ∧
        Done setting site temps (stmt.generate.stop start pool) value state machine)
      (Leaving setting site) machine

/-- The code of a block simulates its evaluation, as a branch and as a body. -/
def Core.Block.Simulated (block : Core.Block) : Prop :=
  ∀ (site : Site) (state : State) (temps : List Value) (start pool : Nat) (machine : Machine),
    site.Valid setting fuel → block.Fits (site.self.bounds setting.names) →
    At setting site state temps start machine →
    (site.Runs setting block.generate start pool →
      Simulates setting (block.eval enter site.self state)
        (Valued setting site temps (block.generate.stop start pool)) (Leaving setting site)
        machine) ∧
    (site.Runs setting block.generateBody start pool →
      Simulates setting (block.eval enter site.self state) (Leaving setting site)
        (Leaving setting site) machine)

end

variable {setting : Setting} {fuel : Nat} {enter : Enter}

namespace Core.Expr

theorem evalAll_simulated {exprs : List Expr}
    (hs : ∀ expr ∈ exprs, expr.Simulated setting fuel enter) {site : Site} {state : State}
    {temps : List Value} {start pool : Nat} {machine : Machine} (hv : site.Valid setting fuel)
    (hf : Expr.AllFit exprs (site.self.bounds setting.names))
    (hr : site.Runs setting (Expr.generateAll exprs) start pool)
    (h : At setting site state temps start machine) :
    Simulates setting (Expr.evalAll enter site.self exprs state)
      (ValuedAll setting site temps ((Expr.generateAll exprs).stop start pool) exprs.length)
      (Leaving setting site) machine := by
  induction exprs generalizing state temps start pool machine with
  | nil =>
      refine .now ⟨[], rfl, .nil, ?_⟩
      rw [List.append_nil]
      exact h
  | cons expr exprs ih =>
      rw [List.forall_mem_cons] at hs
      apply Simulates.bind (hs.1 site state temps start pool machine hv hf.1 hr.left h)
      rintro value state machine ⟨top, hvalue, h⟩
      apply Simulates.bind (ih hs.2 hf.2 hr.right h)
      rintro values state machine ⟨tops, hlen, hvalues, h⟩
      refine .now ⟨top :: tops, by simp [hlen], .cons hvalue hvalues, ?_⟩
      rw [Expr.generateAll, Generator.stop_append, List.append_cons]
      exact h

/-- Loading what several symbols stand for. -/
theorem loadAll {site : Site} (hv : site.Valid setting fuel) {captures : List Symbol}
    (hf : ∀ symbol ∈ captures, symbol.Fits (site.self.bounds setting.names)) {state : State}
    {temps : List Value} {next : Nat} {machine : Machine}
    (hc : site.fn.code.Carries next (captures.map Symbol.load))
    (h : At setting site state temps next machine) :
    Simulates setting (.ok (captures.map (site.self.read state)) state)
      (ValuedAll setting site temps (next + sizes (captures.map Symbol.load)) captures.length)
      (Leaving setting site) machine := by
  induction captures generalizing temps next machine with
  | nil =>
      refine .now ⟨[], rfl, .nil, ?_⟩
      rw [List.append_nil]
      exact h
  | cons symbol captures ih =>
      rw [List.forall_mem_cons] at hf
      apply (h.load hv hf.1 hc.1).seq
      rintro machine ⟨top, hvalue, h⟩
      apply (ih hf.2 hc.2 h).seq
      rintro machine ⟨tops, hlen, hvalues, h⟩
      refine .now ⟨top :: tops, by simp [hlen], .cons hvalue hvalues, ?_⟩
      rw [List.append_cons, List.map_cons, sizes_cons, ← Nat.add_assoc]
      exact h

end Core.Expr

namespace Core

/-- A condition is simulated: its value decides which branch is run. -/
theorem Expr.Simulated.condition {test : Expr} {consequent alternative : Block}
    (ht : test.Simulated setting fuel enter) (hc : consequent.Simulated setting fuel enter)
    (ha : alternative.Simulated setting fuel enter) :
    (Expr.condition test consequent alternative).Simulated setting fuel enter := by
  intro site state temps start pool machine hv hf hr h
  apply Simulates.bind (ht site state temps start pool machine hv hf.1 hr.left h)
  rintro value state machine ⟨top, hvalue, h⟩
  obtain ⟨middle, last, hunless, hfirst, hjump, hsecond, hlast, hstop⟩ := hr.right.branches
  rw [Expr.generate, Generator.stop_append, hstop]
  apply h.jumpUnless hunless
  intro machine h
  rw [← hvalue.isTruthy_eq] at h
  cases ht : value.isTruthy with
  | true =>
      rw [ht, if_pos rfl] at h
      apply Simulates.finish ((hc site state temps _ _ machine hv hf.2.1 h).1 hfirst)
      rintro value state machine ⟨top, hvalue, h⟩
      exact h.goto hjump fun machine h => .now ⟨top, hvalue, h⟩
  | false =>
      rw [ht, if_neg Bool.false_ne_true] at h
      have hbranch := (ha site state temps _ _ machine hv hf.2.2 h).1 hsecond
      rwa [hlast] at hbranch

/-- A function is simulated: what its closure captures is loaded first. -/
theorem Expr.Simulated.function (name : Option String) (parameters locals : Nat)
    (captures : List Symbol) (body : Block) :
    (Expr.function name parameters locals captures body).Simulated setting fuel enter := by
  intro site state temps start pool machine hv hf hr h
  have hloads := Code.carries_append.mp hr.carries
  apply (Expr.loadAll hv hf.1 hloads.1 h).seq
  rintro machine ⟨tops, hlen, hvalues, h⟩
  have hd : decode site.fn.code (start + sizes (captures.map Symbol.load)) =
      .ok ⟨.closure, [pool + (body.generateBody 0 pool).constants.length, captures.length]⟩ :=
    hloads.2.1
  rw [← hlen] at hd
  have hfits := hf.2
  rw [site.self.names_bounds] at hfits
  have himplements : Implements setting.constants setting.names
      (captures.map (site.self.read state)).length ⟨name, body, locals, parameters⟩
      (assembled ⟨name, (body.generateBody 0 pool).code, locals, parameters⟩) :=
    ⟨rfl, rfl, rfl, by rwa [List.length_map], pool, rfl, Generator.encodable_body hr.encodable,
      hr.held.left⟩
  have hstop : (Expr.generate (.function name parameters locals captures body)).stop start pool =
      start + sizes (captures.map Symbol.load) + 4 := by
    simp only [Generator.stop, Expr.generate, Generator.closure, sizes_append, Nat.add_assoc]
    rfl
  rw [hstop]
  exact h.makeClosure hd (hr.held.right 0 _ rfl) himplements hvalues

/-- A call is simulated: callee and arguments are on the stack when it happens. -/
theorem Expr.Simulated.call (he : Enters setting fuel enter) {callee : Expr}
    {arguments : List Expr} (hc : callee.Simulated setting fuel enter)
    (ha : ∀ expr ∈ arguments, expr.Simulated setting fuel enter) :
    (Expr.call callee arguments).Simulated setting fuel enter := by
  intro site state temps start pool machine hv hf hr h
  apply Simulates.bind (hc site state temps start pool machine hv hf.1 hr.left.left h)
  rintro value state machine ⟨top, hvalue, h⟩
  apply Simulates.bind (Expr.evalAll_simulated ha hv hf.2 hr.left.right h)
  rintro values state machine ⟨tops, hlen, hvalues, h⟩
  have hd := hr.right.single
  rw [Generator.stop_append, ← hlen] at hd
  rw [Expr.generate, Generator.stop_append, Generator.stop_append]
  rw [← List.append_cons] at h
  exact h.call he hv hd hvalue hvalues

/-- A statement in front of a block is simulated. Behind one that returns the body ends. -/
theorem Block.Simulated.next {stmt : Stmt} {rest : Block}
    (hs : stmt.Simulated setting fuel enter) (hrest : rest.Simulated setting fuel enter) :
    (Block.next stmt rest).Simulated setting fuel enter := by
  intro site state temps start pool machine hv hf h
  constructor
  · intro hr
    apply Simulates.bind (hs site state temps start pool machine hv hf.1 hr.left h)
    rintro _ state machine ⟨-, h⟩
    rw [Block.generate, Generator.stop_append]
    exact (hrest site state temps _ _ machine hv hf.2 h).1 hr.right
  · intro hr
    rw [Block.generateBody] at hr
    split at hr
    case isTrue hreturns =>
        apply Simulates.bind (hs site state temps start pool machine hv hf.1 hr h)
        rintro _ state machine ⟨hnot, -⟩
        simp [hnot] at hreturns
    case isFalse =>
        apply Simulates.bind (hs site state temps start pool machine hv hf.1 hr.left h)
        rintro _ state machine ⟨-, h⟩
        exact (hrest site state temps _ _ machine hv hf.2 h).2 hr.right

end Core

/-- Wholes are simulated if their parts are, and if entering functions is. -/
theorem compositional_simulated (he : Enters setting fuel enter) : Core.Compositional
    (Expr.Simulated setting fuel enter) (Stmt.Simulated setting fuel enter)
    (Block.Simulated setting fuel enter) where
  integer value site state temps start pool machine _ _ hr h :=
    h.constant hr.carries.1 (hr.held 0 _ rfl) (.integer value)
  text value site state temps start pool machine _ _ hr h :=
    h.constant hr.carries.1 (hr.held 0 _ rfl) (.text value)
  boolean value site state temps start pool machine _ _ hr h := h.boolean value hr.single
  name symbol site state temps start pool machine hv hf hr h := h.load hv hf hr.single
  unary op argument ha site state temps start pool machine hv hf hr h := by
    apply Simulates.bind (ha site state temps start pool machine hv hf hr.left h)
    rintro value state machine ⟨top, hvalue, h⟩
    rw [Expr.generate, Generator.stop_append]
    exact h.unary op hr.right.single hvalue
  binary op left right hleft hright site state temps start pool machine hv hf hr h := by
    apply Simulates.bind (hleft site state temps start pool machine hv hf.1 hr.left.left h)
    rintro value state machine ⟨top, hvalue, h⟩
    apply Simulates.bind (hright site state _ _ _ machine hv hf.2 hr.left.right h)
    rintro value' state machine ⟨top', hvalue', h⟩
    have hd := hr.right.single
    rw [Generator.stop_append] at hd
    rw [Expr.generate, Generator.stop_append, Generator.stop_append]
    exact h.binary op hd hvalue hvalue'
  condition _ _ _ ht hc ha := ht.condition hc ha
  function name parameters locals captures body _ :=
    .function name parameters locals captures body
  call _ _ hc ha := hc.call he ha
  collect kind elements hs site state temps start pool machine hv hf hr h := by
    apply Simulates.bind (Expr.evalAll_simulated hs hv hf hr.left h)
    rintro values state machine ⟨tops, hlen, hvalues, h⟩
    have hd := hr.right.single
    rw [← hlen] at hd
    rw [Expr.generate, Generator.stop_append]
    exact h.collect kind hd hvalues
  store symbol value hs site state temps start pool machine hv hf hr h := by
    apply Simulates.bind (hs site state temps start pool machine hv hf.2.2 hr.left h)
    rintro value state machine ⟨top, hvalue, h⟩
    rw [Stmt.generate, Generator.stop_append]
    apply (h.store hf.1 hf.2.1 hr.right.single hvalue).finish
    exact fun _ _ _ h => .now ⟨rfl, h⟩
  discard value hs site state temps start pool machine hv hf hr h := by
    apply Simulates.bind (hs site state temps start pool machine hv hf hr.left h)
    rintro value state machine ⟨top, hvalue, h⟩
    rw [Stmt.generate, Generator.stop_append]
    apply (h.discard hv hr.right.single hvalue).finish
    exact fun _ _ _ h => .now ⟨rfl, h⟩
  returnValue value hs site state temps start pool machine hv hf hr h := by
    apply Simulates.bind (hs site state temps start pool machine hv hf hr.left h)
    rintro value state machine ⟨top, hvalue, h⟩
    exact .now (h.returnValue hr.right.single hvalue)
  returnNull site state temps start pool machine hv hf hr h :=
    .now (h.returnNull hr.single)
  null site state temps start pool machine hv hf h :=
    ⟨fun hr => h.pushNull hr.single, fun hr => .now (h.returnNull hr.single)⟩
  value result hs site state temps start pool machine hv hf h := by
    refine ⟨fun hr => hs site state temps start pool machine hv hf hr h, fun hr => ?_⟩
    apply (hs site state temps start pool machine hv hf hr.left h).finish
    rintro value state machine ⟨top, hvalue, h⟩
    exact .now (h.returnValue hr.right.single hvalue)
  next _ _ hs hrest := .next hs hrest

end StackScript
