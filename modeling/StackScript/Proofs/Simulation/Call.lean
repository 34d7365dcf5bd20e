import StackScript.Proofs.Machine.Actions
import StackScript.Proofs.Simulation.Expression

/-!
# Calls

A call opens a frame whose locals are the arguments and nulls behind them. The code of the function
runs in it as its block is evaluated, and leaving it puts the value in the place of the closure. The
depth of calls is bounded by the fuel of the evaluation and by the limit of the machine alike, so
that by induction on the fuel every call is simulated.
-/

namespace StackScript

open StackScript.Core Instruction

/-- The site of a call from another one, whose locals and other values stay below the closure. -/
def Site.calling (site : Site) (kept : List Value) (next : Nat) (original : FunctionOver Core.Block)
    (fn : Function) (captured : List Datum) (free : List Value) : Site where
  self := .call original captured
  fn := fn
  free := free
  below := site.below ++ kept ++ [.closure fn free]
  callers := ⟨site.fn, site.free, next, site.below.length⟩ :: site.callers

/-- The state in which the body of a function starts: its locals are the arguments, and nulls behind
them. -/
def Core.State.entered (state : State) (original : FunctionOver Core.Block) (arguments : List Datum) : State :=
  { state with
    locals := arguments ++ List.replicate (original.locals - arguments.length) .null }

/-- A call is a valid site of one call less deep. -/
theorem Site.Valid.calling {setting : Setting} {fuel : Nat} {site : Site}
    (hs : site.Valid setting (fuel + 1)) {original : FunctionOver Core.Block} {fn : Function}
    {captured : List Datum} {free : List Value}
    (hi : Implements setting.constants setting.names captured.length original fn)
    (hc : List.Forall₂ setting.Stands captured free) (kept : List Value) (next : Nat) :
    (site.calling kept next original fn captured free).Valid setting fuel where
  depth := by
    have hdepth := hs.depth
    simp only [Site.calling, List.length_cons]
    omega
  program := nofun
  call := by
    rintro _ _ ⟨⟩
    exact ⟨List.cons_ne_nil _ _, hi, hc⟩

namespace At

open Act

variable {setting : Setting} {site : Site} {state state' : State} {temps temps' : List Value}
variable {next next' : Nat} {machine : Machine} {fail : RuntimeError → Machine → Prop}
variable {original : FunctionOver Core.Block} {fn : Function} {captured : List Datum}
variable {free : List Value} {locals : List Value}

/-- A frame that is opened on arguments has these as its first locals. -/
theorem opened {tops : List Value}
    (h : At setting site state (temps ++ .closure fn free :: tops) next machine)
    (hstack : machine.inUse = (site.below ++ locals ++ temps ++ [.closure fn free]) ++ tops)
    (hi : Implements setting.constants setting.names captured.length original fn)
    {arguments : List Datum} (ha : List.Forall₂ setting.Stands arguments tops)
    (hroom : machine.top + (fn.locals - tops.length) ≤ machine.stack.size) :
    At setting (site.calling (locals ++ temps) next original fn captured free)
      (state.entered original arguments) [] 0
      { machine with
        stack := clearSlots machine.stack machine.top (machine.top + (fn.locals - tops.length))
        top := machine.top + (fn.locals - tops.length)
        frame := { fn, free, base := machine.top - tops.length }
        callers := machine.frame :: machine.callers } := by
  have hbase : machine.top - tops.length =
      (site.calling (locals ++ temps) next original fn captured free).below.length := by
    rw [h.room.top_eq hstack, Nat.add_sub_cancel, Site.calling, ← List.append_assoc]
  refine ⟨h.world.congr rfl rfl rfl rfl rfl, ?_, ?_, ?_, ?_,
    tops ++ List.replicate (fn.locals - tops.length) .null, ?_, ?_⟩
  · rw [hbase]
    rfl
  · rw [h.frame, h.callers]
    rfl
  · rw [Machine.Room, size_clearSlots]
    exact hroom
  · simp only [Site.calling, Activation.Admits, State.entered, List.length_append, List.length_replicate]
    omega
  · rw [State.entered, hi.locals, ha.length_eq]
    exact List.rel_append ha (Related.replicate .null _)
  · have htake := take_clearSlots hroom
    rw [← Machine.inUse, hstack] at htake
    simpa [Machine.inUse, Site.calling] using htake

/-- Entering a function opens a frame, unless there are too many or the stack has no room for it. -/
theorem enter {tops : List Value}
    (h : At setting site state (temps ++ .closure fn free :: tops) next machine)
    (hstack : machine.inUse = site.below ++ locals ++ (temps ++ .closure fn free :: tops))
    (hi : Implements setting.constants setting.names captured.length original fn)
    {arguments : List Datum} (ha : List.Forall₂ setting.Stands arguments tops)
    (hlen : arguments.length = original.parameters) (hf : setting.Allows fail)
    {post : PUnit → Machine → Prop}
    (hp : ∀ after, site.callers.length + 1 < setting.limits.maxFrames →
      At setting (site.calling (locals ++ temps) next original fn captured free)
        (state.entered original arguments) [] 0 after → post () after) :
    (Act.enter fn free tops.length).Yields machine post fail := by
  have hcount : tops.length = fn.parameters := by
    rw [← ha.length_eq, hlen, hi.parameters]
  have hstack' : machine.inUse = (site.below ++ locals ++ temps ++ [.closure fn free]) ++ tops := by
    simpa using hstack
  have hheight : machine.top - tops.length + max fn.locals tops.length =
      machine.top + (fn.locals - tops.length) := by
    have htop := h.room.top_eq hstack'
    omega
  rw [Act.enter, if_neg (not_not.mpr hcount)]
  refine .bind (yields_get ?_)
  split
  case isTrue =>
      rw [h.world.limits]
      exact yields_throw (hf _ _ .frames h.sane)
  case isFalse hdepth =>
      rw [Machine.depth, h.callers, h.world.limits] at hdepth
      simp only [hheight]
      split
      case isTrue => exact yields_throw (hf _ _ .stack h.sane)
      case isFalse hroom =>
          apply yields_set
          exact hp _ (Nat.lt_of_not_ge hdepth) (h.opened hstack' hi ha (Nat.le_of_not_gt hroom))

/-- The caller is where it was before the call, without the closure and its arguments. -/
theorem closed (hl : List.Forall₂ setting.Stands state.locals locals)
    (he : site.self.Admits state.locals)
    (h : At setting (site.calling (locals ++ temps) next original fn captured free) state' temps'
      next' machine) :
    At setting site { state' with locals := state.locals } temps next
      { machine with
        frame := ⟨site.fn, site.free, next, site.below.length⟩
        callers := site.callers
        top := machine.frame.base - 1 } := by
  obtain ⟨locals', hlocals', hstack⟩ := h.stack
  have hstack' : machine.inUse =
      (site.below ++ locals ++ temps) ++ (.closure fn free :: (locals' ++ temps')) := by
    simpa [Site.calling] using hstack
  have hbase : machine.frame.base - 1 =
      machine.top - (.closure fn free :: (locals' ++ temps') : List Value).length :=
    calc
      machine.frame.base - 1
          = (site.below ++ (locals ++ temps) ++ [ValueOver.closure fn free]).length - 1 := by
            rw [h.frame]
            rfl
      _ = (site.below ++ locals ++ temps).length := by
            rw [List.length_append, List.length_singleton, Nat.add_sub_cancel, List.append_assoc]
      _ = machine.top - (.closure fn free :: (locals' ++ temps') : List Value).length := by
            rw [h.room.top_eq hstack', Nat.add_sub_cancel]
  refine ⟨h.world.congr rfl rfl rfl rfl rfl, rfl, rfl, ?_, he, locals, hl, ?_⟩
  · rw [Machine.Room, hbase]
    exact Nat.le_trans (Nat.sub_le _ _) h.room
  · rw [hbase]
    exact Machine.inUse_drop h.room hstack'

/-- Leaving a call puts its value in the place of the closure. -/
theorem leave {value : Datum} {top : Value} (hv : setting.Stands value top)
    (hl : List.Forall₂ setting.Stands state.locals locals) (he : site.self.Admits state.locals)
    (ha : setting.Allows fail)
    (h : At setting (site.calling (locals ++ temps) next original fn captured free) state' temps'
      next' machine) {post : PUnit → Machine → Prop}
    (hp : ∀ after, Valued setting site temps next value { state' with locals := state.locals } after →
      post () after) :
    (Act.leave top).Yields machine post fail := by
  refine .bind (yields_get ?_)
  rw [h.callers]
  refine .bind (yields_set ?_)
  exact (h.closed hl he).push (ha _ _ .stack) fun after hafter => hp after ⟨top, hv, hafter⟩

end At

/-- With so much fuel, entering a function is simulated. -/
theorem enters (setting : Setting) (fuel : Nat) : Enters setting fuel (Core.enter fuel) := by
  induction fuel with
  | zero =>
      intro site state temps tops next machine original fn captured free arguments leaving hs h hi hc
        ha hlen
      obtain ⟨locals, hlocals, hstack⟩ := h.stack
      refine h.enter hstack hi ha hlen (setting.allows_fails _) fun after hdepth _ => ?_
      exact absurd hs.depth (Nat.not_le_of_lt hdepth)
  | succ fuel ih =>
      intro site state temps tops next machine original fn captured free arguments leaving hs h hi hc
        ha hlen
      obtain ⟨locals, hlocals, hstack⟩ := h.stack
      refine h.enter hstack hi ha hlen (setting.allows_fails _) fun after _ hafter => ?_
      obtain ⟨pool, hcode, henc, hheld⟩ := hi.code
      have hcarries : fn.code.Carries 0 (original.code.generateBody 0 pool).code := by
        rw [hcode]
        exact Code.carries_ofInstructions henc.code
      have hbody : Simulates setting (original.code.eval (Core.enter fuel) (.call original captured)
          (state.entered original arguments))
          (Leaving setting (site.calling (locals ++ temps) next original fn captured free))
          (Leaving setting (site.calling (locals ++ temps) next original fn captured free)) after :=
        (((compositional_simulated ih).block original.code) _ _ [] 0 pool after
          (hs.calling hi hc _ _) hi.fits hafter).2 ⟨henc, hheld, hcarries⟩
      -- Both ways out of the body leave the frame with the value.
      have hout : ∀ value final machine,
          Leaving setting (site.calling (locals ++ temps) next original fn captured free) value final
            machine →
          Simulates setting (.ok value { final with locals := state.locals })
            (Valued setting site temps next) leaving machine := by
        rintro value final machine ⟨top, hvalue, hleave⟩
        apply hleave _ _
        intro temps' next' before hbefore
        apply hbefore.leave hvalue hlocals h.admits (setting.allows_fails _)
        exact fun after hvalued => .now hvalued
      rw [State.entered] at hbody
      simp only [Core.enter]
      generalize original.code.eval _ _ _ = result at hbody
      rcases result with ⟨value, final⟩ | ⟨value | error | _, final⟩
      · exact hbody.onward nofun (hout value final)
      · exact hbody.onward nofun (hout value final)
      · exact Machine.Eventually.bind hbody (fun _ _ => id) fun _ => False.elim
      · exact Machine.Eventually.bind hbody (fun _ _ => id) fun _ => False.elim

end StackScript
