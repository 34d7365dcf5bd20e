import Mathlib.Data.List.Forall2
import StackScript.Proofs.Core.Basic

/-!
# Values that correspond

Two values correspond if they are built in the same way from functions that correspond. No operation
can tell such values apart, since none of them looks at the code of a function.
-/

namespace StackScript

open StackScript.Core

/-- Two entries have the same key and values in a relation. -/
inductive EntryRelated (P : V → W → Prop) : Key × V → Key × W → Prop
  | mk {key : Key} {value : V} {other : W} (h : P value other) :
    EntryRelated P (key, value) (key, other)

/-- Two values are built in the same way, and their functions are in a relation, which may depend on
the number of captured values. -/
inductive Related (R : Nat → FunctionOver C → FunctionOver D → Prop) :
    ValueOver C → ValueOver D → Prop
  | null : Related R .null .null
  | integer (value : Int64) : Related R (.integer value) (.integer value)
  | boolean (value : Bool) : Related R (.boolean value) (.boolean value)
  | text (value : String) : Related R (.text value) (.text value)
  | array {elements : List (ValueOver C)} {others : List (ValueOver D)}
    (h : List.Forall₂ (Related R) elements others) : Related R (.array elements) (.array others)
  | hash {entries : List (Key × ValueOver C)} {others : List (Key × ValueOver D)}
    (h : List.Forall₂ (EntryRelated (Related R)) entries others) :
    Related R (.hash entries) (.hash others)
  | closure {fn : FunctionOver C} {fn' : FunctionOver D} {free : List (ValueOver C)}
    {free' : List (ValueOver D)} (hfn : R free.length fn fn')
    (h : List.Forall₂ (Related R) free free') : Related R (.closure fn free) (.closure fn' free')
  | builtin (builtin : Builtin) : Related R (.builtin builtin) (.builtin builtin)

/-- Two computations fail with the same error, or have results in a relation. -/
inductive Agree (P : V → W → Prop) : Except ε V → Except ε W → Prop
  | ok {value : V} {other : W} (h : P value other) : Agree P (.ok value) (.ok other)
  | error (error : ε) : Agree P (.error error) (.error error)

theorem Agree.bind {P : V → W → Prop} {Q : V' → W' → Prop} {x : Except ε V} {y : Except ε W}
    {f : V → Except ε V'} {g : W → Except ε W'} (h : Agree P x y)
    (hf : ∀ value other, P value other → Agree Q (f value) (g other)) :
    Agree Q (x >>= f) (y >>= g) := by
  cases h with
  | ok h => exact hf _ _ h
  | error error => exact .error error

theorem Agree.map {P : V → W → Prop} {Q : V' → W' → Prop} {x : Except ε V} {y : Except ε W}
    {f : V → V'} {g : W → W'} (h : Agree P x y)
    (hf : ∀ value other, P value other → Q (f value) (g other)) : Agree Q (x.map f) (y.map g) := by
  cases h with
  | ok h => exact .ok (hf _ _ h)
  | error error => exact .error error

namespace ValueOver

theorem renderWith_integer (quoted : Bool) (value : Int64) :
    (integer value : ValueOver C).renderWith quoted = toString value.toInt := rfl

theorem renderWith_text (quoted : Bool) (value : String) :
    (text value : ValueOver C).renderWith quoted = if quoted then Text.quote value else value := rfl

theorem renderWith_array (quoted : Bool) (elements : List (ValueOver C)) :
    (array elements).renderWith quoted =
      "[" ++ String.intercalate ", " (renderElements elements) ++ "]" := rfl

theorem renderWith_hash (quoted : Bool) (entries : List (Key × ValueOver C)) :
    (hash entries).renderWith quoted =
      "\x7b" ++ String.intercalate ", " (sortedTexts (renderEntries entries)) ++ "\x7d" := rfl

theorem renderWith_closure (quoted : Bool) (fn : FunctionOver C) (free : List (ValueOver C)) :
    (closure fn free).renderWith quoted = "Closure[" ++ fn.label ++ "]" := rfl

end ValueOver

namespace Related

variable {R : Nat → FunctionOver C → FunctionOver D → Prop}
variable {value : ValueOver C} {other : ValueOver D}

mutual

/-- Values correspond for every relation of functions that is implied. -/
theorem mono {S : Nat → FunctionOver C → FunctionOver D → Prop}
    (hs : ∀ count fn fn', R count fn fn' → S count fn fn') :
    ∀ (value : ValueOver C) (other : ValueOver D), Related R value other → Related S value other
  | .null, _, .null => .null
  | .integer _, _, .integer value => .integer value
  | .boolean _, _, .boolean value => .boolean value
  | .text _, _, .text value => .text value
  | .array elements, _, .array h => .array (mono_all hs elements _ h)
  | .hash entries, _, .hash h => .hash (mono_entries hs entries _ h)
  | .closure _ free, _, .closure hfn h => .closure (hs _ _ _ hfn) (mono_all hs free _ h)
  | .builtin _, _, .builtin b => .builtin b

theorem mono_all {S : Nat → FunctionOver C → FunctionOver D → Prop}
    (hs : ∀ count fn fn', R count fn fn' → S count fn fn') :
    ∀ (values : List (ValueOver C)) (others : List (ValueOver D)),
      List.Forall₂ (Related R) values others → List.Forall₂ (Related S) values others
  | [], _, .nil => .nil
  | value :: values, _, .cons h hrest => .cons (mono hs value _ h) (mono_all hs values _ hrest)

theorem mono_entries {S : Nat → FunctionOver C → FunctionOver D → Prop}
    (hs : ∀ count fn fn', R count fn fn' → S count fn fn') :
    ∀ (entries : List (Key × ValueOver C)) (others : List (Key × ValueOver D)),
      List.Forall₂ (EntryRelated (Related R)) entries others →
        List.Forall₂ (EntryRelated (Related S)) entries others
  | [], _, .nil => .nil
  | (_, value) :: entries, _, .cons (.mk h) hrest =>
      .cons (.mk (mono hs value _ h)) (mono_entries hs entries _ hrest)

end

theorem typeName_eq (h : Related R value other) : value.typeName = other.typeName := by
  cases h <;> rfl

theorem isTruthy_eq (h : Related R value other) : value.isTruthy = other.isTruthy := by
  cases h <;> rfl

theorem key?_eq (h : Related R value other) : value.key? = other.key? := by
  cases h <;> rfl

theorem operatorError_eq {value' : ValueOver C} {other' : ValueOver D} (symbol : String)
    (h : Related R value other) (h' : Related R value' other') :
    operatorError symbol value value' = operatorError symbol other other' := by
  rw [operatorError, operatorError, h.typeName_eq, h'.typeName_eq]

theorem null_getD {value? : Option (ValueOver C)} {other? : Option (ValueOver D)}
    (h : Option.Rel (Related R) value? other?) :
    Related R (value?.getD .null) (other?.getD .null) := by
  cases h with
  | some h => exact h
  | none => exact .null

theorem replicate (h : Related R value other) (count : Nat) :
    List.Forall₂ (Related R) (List.replicate count value) (List.replicate count other) := by
  induction count with
  | zero => exact .nil
  | succ count ih => exact .cons h ih

theorem getElem? {values : List (ValueOver C)} {others : List (ValueOver D)}
    (h : List.Forall₂ (Related R) values others) (index : Nat) :
    Option.Rel (Related R) values[index]? others[index]? := by
  induction h generalizing index with
  | nil => exact .none
  | cons hfirst _ ih =>
      cases index with
      | zero => exact .some hfirst
      | succ index => simpa using ih index

theorem set {values : List (ValueOver C)} {others : List (ValueOver D)}
    (h : List.Forall₂ (Related R) values others) (index : Nat) (hv : Related R value other) :
    List.Forall₂ (Related R) (values.set index value) (others.set index other) := by
  induction h generalizing index with
  | nil => exact .nil
  | cons hfirst hrest ih =>
      cases index with
      | zero => exact .cons hv hrest
      | succ index => exact .cons hfirst (ih index)

theorem lookup {entries : List (Key × ValueOver C)} {others : List (Key × ValueOver D)}
    (h : List.Forall₂ (EntryRelated (Related R)) entries others) (key : Key) :
    Option.Rel (Related R) (entries.lookup key) (others.lookup key) := by
  induction h with
  | nil => exact .none
  | cons hfirst _ ih =>
      cases hfirst with
      | @mk key' value other h =>
          rw [List.lookup_cons, List.lookup_cons]
          cases key == key' with
          | true => exact .some h
          | false => exact ih

theorem insertEntry {entries : List (Key × ValueOver C)} {others : List (Key × ValueOver D)}
    (key : Key) (hv : Related R value other)
    (h : List.Forall₂ (EntryRelated (Related R)) entries others) :
    List.Forall₂ (EntryRelated (Related R)) (insertEntry key value entries)
      (insertEntry key other others) := by
  induction h with
  | nil => exact .cons (.mk hv) .nil
  | cons hfirst hrest ih =>
      cases hfirst with
      | @mk key' _ _ hold =>
          simp only [StackScript.insertEntry]
          by_cases heq : key' = key
          · rw [if_pos heq, if_pos heq]
            exact .cons (.mk hv) hrest
          · rw [if_neg heq, if_neg heq]
            by_cases hb : key.before key' = true
            · rw [if_pos hb, if_pos hb]
              exact .cons (.mk hv) (.cons (.mk hold) hrest)
            · rw [if_neg hb, if_neg hb]
              exact .cons (.mk hold) ih

theorem ofEntries {entries : List (Key × ValueOver C)} {others : List (Key × ValueOver D)}
    (h : List.Forall₂ (EntryRelated (Related R)) entries others) :
    Related R (ValueOver.ofEntries entries) (ValueOver.ofEntries others) := by
  have hfold : ∀ held held', List.Forall₂ (EntryRelated (Related R)) held held' →
      List.Forall₂ (EntryRelated (Related R))
        (entries.foldl (fun held entry => StackScript.insertEntry entry.1 entry.2 held) held)
        (others.foldl (fun held entry => StackScript.insertEntry entry.1 entry.2 held) held') := by
    induction h with
    | nil => exact fun _ _ hheld => hheld
    | cons hfirst _ ih =>
        intro held held' hheld
        cases hfirst with
        | mk hv => exact ih _ _ (insertEntry _ hv hheld)
  exact .hash (hfold [] [] .nil)

theorem pairUp {values : List (ValueOver C)} {others : List (ValueOver D)}
    (h : List.Forall₂ (Related R) values others) :
    Agree (List.Forall₂ (EntryRelated (Related R))) (ValueOver.pairUp values)
      (ValueOver.pairUp others) := by
  fun_induction ValueOver.pairUp values generalizing others with
  | case1 key value values hkey =>
      obtain ⟨key', rest, hk, hrest, rfl⟩ := List.forall₂_cons_left_iff.mp h
      obtain ⟨value', others, hv, hothers, rfl⟩ := List.forall₂_cons_left_iff.mp hrest
      have hkey' : key'.key? = none := hk.key?_eq ▸ hkey
      simp only [ValueOver.pairUp, hkey', hk.typeName_eq]
      exact .error _
  | case2 key value values k hkey ih =>
      obtain ⟨key', rest, hk, hrest, rfl⟩ := List.forall₂_cons_left_iff.mp h
      obtain ⟨value', others, hv, hothers, rfl⟩ := List.forall₂_cons_left_iff.mp hrest
      have hkey' : key'.key? = some k := hk.key?_eq ▸ hkey
      simp only [ValueOver.pairUp, hkey']
      exact (ih hothers).bind fun entries entries' h => .ok (.cons (.mk hv) h)
  | case3 values hshort =>
      cases h with
      | nil => exact .ok .nil
      | @cons first _ _ _ hfirst hrest =>
          cases hrest with
          | nil => exact .ok .nil
          | @cons second _ rest => exact absurd rfl (hshort first second rest)

/-! ## Operations -/

theorem negate (h : Related R value other) :
    Agree (Related R) value.negate other.negate := by
  cases h
  case integer value => exact .ok (.integer _)
  all_goals exact .error _

theorem element {position : ValueOver C} {position' : ValueOver D} (h : Related R value other)
    (hp : Related R position position') :
    Agree (Related R) (value.element position) (other.element position') := by
  cases h with
  | array h =>
      cases hp
      case integer position =>
          simp only [ValueOver.element]
          split
          · exact .ok .null
          · exact .ok (null_getD (getElem? h _))
      all_goals exact .error _
  | hash h =>
      simp only [ValueOver.element, ← hp.key?_eq, ← hp.typeName_eq]
      cases position.key? with
      | none => exact .error _
      | some key => exact .ok (null_getD (lookup h key))
  | _ =>
      simp only [ValueOver.element, hp.typeName_eq]
      exact .error _

theorem arithmetic (op : Arithmetic) {left right : ValueOver C} {left' right' : ValueOver D}
    (hl : Related R left left') (hr : Related R right right') :
    Agree (Related R) (op.apply left right) (op.apply left' right') := by
  cases hl
  case integer m =>
      cases hr
      case integer n =>
          simp only [Arithmetic.apply]
          cases op.onIntegers m n with
          | error error => exact .error _
          | ok result => exact .ok (.integer result)
      all_goals exact .error _
  case text s =>
      cases hr
      case text t =>
          simp only [Arithmetic.apply]
          split
          · exact .ok (.text _)
          · exact .error _
      all_goals exact .error _
  all_goals
      cases hr
      all_goals exact .error _

theorem comparison (op : Comparison) {left right : ValueOver C} {left' right' : ValueOver D}
    (hl : Related R left left') (hr : Related R right right') :
    Agree (Related R) (op.apply left right) (op.apply left' right') := by
  have htest : op.test? left right = op.test? left' right' := by
    cases hl <;> cases hr <;> rfl
  rw [Comparison.apply, Comparison.apply, htest, hl.operatorError_eq op.symbol hr]
  cases op.test? left' right' with
  | none => exact .error _
  | some result => exact .ok (.boolean result)

/-! ## The text of values and builtin functions -/

mutual

/-- Values that correspond have the same text, if their functions do. -/
theorem renderWith_eq (hlabel : ∀ count fn fn', R count fn fn' → fn.label = fn'.label)
    (quoted : Bool) : ∀ (value : ValueOver C) (other : ValueOver D), Related R value other →
      value.renderWith quoted = other.renderWith quoted
  | .null, _, h => by
      cases h
      rfl
  | .integer value, _, h => by
      cases h
      exact (ValueOver.renderWith_integer quoted value).trans
        (ValueOver.renderWith_integer quoted value).symm
  | .boolean value, _, h => by
      cases h
      rfl
  | .text value, _, h => by
      cases h
      exact (ValueOver.renderWith_text quoted value).trans
        (ValueOver.renderWith_text quoted value).symm
  | .array elements, _, h => by
      cases h with
      | array h => rw [ValueOver.renderWith_array, ValueOver.renderWith_array,
          renderElements_eq hlabel elements _ h]
  | .hash entries, _, h => by
      cases h with
      | hash h => rw [ValueOver.renderWith_hash, ValueOver.renderWith_hash,
          renderEntries_eq hlabel entries _ h]
  | .closure _ _, _, h => by
      cases h with
      | closure hfn _ => rw [ValueOver.renderWith_closure, ValueOver.renderWith_closure,
          hlabel _ _ _ hfn]
  | .builtin b, _, h => by
      cases h
      rfl
  | .function _, _, h => by cases h

theorem renderElements_eq (hlabel : ∀ count fn fn', R count fn fn' → fn.label = fn'.label) :
    ∀ (values : List (ValueOver C)) (others : List (ValueOver D)),
    List.Forall₂ (Related R) values others →
      ValueOver.renderElements values = ValueOver.renderElements others
  | [], _, .nil => rfl
  | value :: values, _, .cons h hrest => by
      rw [ValueOver.renderElements, ValueOver.renderElements, renderWith_eq hlabel true value _ h,
        renderElements_eq hlabel values _ hrest]

theorem renderEntries_eq (hlabel : ∀ count fn fn', R count fn fn' → fn.label = fn'.label) :
    ∀ (entries : List (Key × ValueOver C)) (others : List (Key × ValueOver D)),
    List.Forall₂ (EntryRelated (Related R)) entries others →
      ValueOver.renderEntries entries = ValueOver.renderEntries others
  | [], _, .nil => rfl
  | (_, value) :: entries, _, .cons (.mk h) hrest => by
      rw [ValueOver.renderEntries, ValueOver.renderEntries, renderWith_eq hlabel true value _ h,
        renderEntries_eq hlabel entries _ hrest]

end

theorem printed_eq (hlabel : ∀ count fn fn', R count fn fn' → fn.label = fn'.label)
    (builtin : Builtin) {values : List (ValueOver C)} {others : List (ValueOver D)}
    (h : List.Forall₂ (Related R) values others) :
    builtin.printed values = builtin.printed others := by
  have htexts : values.map (fun value => value.render ++ "\n") =
      others.map fun value => value.render ++ "\n" := by
    induction h with
    | nil => rfl
    | cons hv _ ih =>
        rw [List.map_cons, List.map_cons, ih, ValueOver.render, ValueOver.render,
          renderWith_eq hlabel false _ _ hv]
  cases builtin with
  | print => exact congrArg String.join htexts
  | _ => rfl

theorem oneArgument {values : List (ValueOver C)} {others : List (ValueOver D)}
    (h : List.Forall₂ (Related R) values others) :
    Agree (Related R) (Builtin.oneArgument values) (Builtin.oneArgument others) := by
  have hlen := h.length_eq
  unfold Builtin.oneArgument
  rcases h with _ | ⟨hfirst, _ | ⟨hsecond, hrest⟩⟩
  · exact .error _
  · exact .ok hfirst
  · simp only [hlen]
    exact .error _

theorem twoArguments {values : List (ValueOver C)} {others : List (ValueOver D)}
    (h : List.Forall₂ (Related R) values others) :
    Agree (fun pair pair' => Related R pair.1 pair'.1 ∧ Related R pair.2 pair'.2)
      (Builtin.twoArguments values) (Builtin.twoArguments others) := by
  have hlen := h.length_eq
  unfold Builtin.twoArguments
  rcases h with _ | ⟨hfirst, _ | ⟨hsecond, _ | ⟨hthird, hrest⟩⟩⟩
  · exact .error _
  · exact .error _
  · exact .ok ⟨hfirst, hsecond⟩
  · simp only [hlen]
    exact .error _

theorem elements (builtin : Builtin) (h : Related R value other) :
    Agree (List.Forall₂ (Related R)) (builtin.elements value) (builtin.elements other) := by
  cases h
  case array h => exact .ok h
  all_goals exact .error _

theorem head? {values : List (ValueOver C)} {others : List (ValueOver D)}
    (h : List.Forall₂ (Related R) values others) :
    Option.Rel (Related R) values.head? others.head? := by
  cases h with
  | nil => exact .none
  | cons hfirst _ => exact .some hfirst

theorem getLast? {values : List (ValueOver C)} {others : List (ValueOver D)}
    (h : List.Forall₂ (Related R) values others) :
    Option.Rel (Related R) values.getLast? others.getLast? := by
  rw [List.getLast?_eq_getElem?, List.getLast?_eq_getElem?, h.length_eq]
  exact getElem? h _

/-- A builtin takes values that correspond to values that do. -/
theorem builtin_apply (builtin : Builtin) {values : List (ValueOver C)}
    {others : List (ValueOver D)} (h : List.Forall₂ (Related R) values others) :
    Agree (Related R) (builtin.apply values) (builtin.apply others) := by
  cases builtin with
  | len =>
      apply (oneArgument h).bind
      intro value other hv
      cases hv
      case text s => exact .ok (.integer _)
      case array elements others h =>
          simp only [h.length_eq]
          exact .ok (.integer _)
      all_goals exact .error _
  | print => exact .ok .null
  | first =>
      apply (oneArgument h).bind
      intro value other hv
      apply (elements .first hv).bind
      intro elements others he
      exact .ok (null_getD (head? he))
  | last =>
      apply (oneArgument h).bind
      intro value other hv
      apply (elements .last hv).bind
      intro elements others he
      exact .ok (null_getD (getLast? he))
  | rest =>
      apply (oneArgument h).bind
      intro value other hv
      apply (elements .rest hv).bind
      intro elements others he
      cases he with
      | nil => exact .ok .null
      | cons _ hrest => exact .ok (.array hrest)
  | push =>
      apply (twoArguments h).bind
      intro pair pair' hp
      apply (elements .push hp.1).bind
      intro elements others he
      exact .ok (.array (List.rel_append he (.cons hp.2 .nil)))

end Related

/-! ## Operations of core programs -/

namespace Core

variable {R : Nat → FunctionOver C → FunctionOver D → Prop}

theorem Unary.apply_agree (op : Unary) {value : ValueOver C} {other : ValueOver D}
    (h : Related R value other) : Agree (Related R) (op.apply value) (op.apply other) := by
  cases op with
  | negate => exact h.negate
  | not =>
      rw [Unary.apply, Unary.apply, h.isTruthy_eq]
      exact .ok (.boolean _)

theorem Binary.apply_agree (op : Binary) {left right : ValueOver C} {left' right' : ValueOver D}
    (hl : Related R left left') (hr : Related R right right') :
    Agree (Related R) (op.apply left right) (op.apply left' right') := by
  cases op with
  | arithmetic op => exact Related.arithmetic op hl hr
  | comparison op => exact Related.comparison op hl hr
  | element => exact hl.element hr

theorem Collection.apply_agree (kind : Collection) {values : List (ValueOver C)}
    {others : List (ValueOver D)} (h : List.Forall₂ (Related R) values others) :
    Agree (Related R) (kind.apply values) (kind.apply others) := by
  cases kind with
  | array => exact .ok (.array h)
  | hash =>
      rw [Collection.apply, Collection.apply, ValueOver.hashOf, ValueOver.hashOf]
      exact (Related.pairUp h).map fun _ _ => Related.ofEntries

end Core

end StackScript
