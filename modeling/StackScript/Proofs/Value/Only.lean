import StackScript.Proofs.Value.Related

/-!
# The functions in a value

A value is made of functions with a property if every function in it has the property, however deep.
No operation on values makes a function, so that each of them gives such a value for such values.
-/

namespace StackScript

/-- Every function in the value has a property. -/
inductive ValueOver.Only (P : FunctionOver C → Prop) : ValueOver C → Prop where
  | null : Only P .null
  | integer (value : Int64) : Only P (.integer value)
  | boolean (value : Bool) : Only P (.boolean value)
  | text (value : String) : Only P (.text value)
  | array {elements : List (ValueOver C)} (h : ∀ element ∈ elements, Only P element) :
    Only P (.array elements)
  | hash {entries : List (Key × ValueOver C)} (h : ∀ entry ∈ entries, Only P entry.2) :
    Only P (.hash entries)
  | closure {fn : FunctionOver C} {free : List (ValueOver C)} (hfn : P fn)
    (h : ∀ value ∈ free, Only P value) : Only P (.closure fn free)
  | builtin (builtin : Builtin) : Only P (.builtin builtin)
  | function {fn : FunctionOver C} (hfn : P fn) : Only P (.function fn)

namespace ValueOver.Only

variable {P : FunctionOver C → Prop} {value other result : ValueOver C}

theorem null_getD {value? : Option (ValueOver C)} (h : ∀ value ∈ value?, value.Only P) :
    (value?.getD .null).Only P := by
  cases value? with
  | none => exact .null
  | some value => exact h value rfl

theorem negate (h : value.negate = .ok result) : result.Only P := by
  cases value
  case integer value =>
      cases h
      exact .integer _
  all_goals cases h

theorem arithmetic {op : Arithmetic} (h : op.apply value other = .ok result) : result.Only P := by
  unfold Arithmetic.apply at h
  split at h
  case h_1 m n =>
      cases hsum : op.onIntegers m n with
      | error error =>
          rw [hsum] at h
          cases h
      | ok sum =>
          rw [hsum] at h
          cases h
          exact .integer sum
  case h_2 =>
      split at h
      · cases h
        exact .text _
      · cases h
  case h_3 => cases h

theorem comparison {op : Comparison} (h : op.apply value other = .ok result) : result.Only P := by
  unfold Comparison.apply at h
  split at h
  · cases h
    exact .boolean _
  · cases h

theorem element (hv : value.Only P) (h : value.element other = .ok result) : result.Only P := by
  unfold ValueOver.element at h
  split at h
  · cases hv with
    | array hv =>
        split at h
        · cases h
          exact .null
        · cases h
          exact null_getD fun element he => hv element (List.mem_of_getElem? he)
  · cases hv with
    | hash hv =>
        split at h
        · cases h
        · cases h
          refine null_getD fun element he => ?_
          obtain ⟨front, back, rfl, -⟩ := List.lookup_eq_some_iff.mp he
          exact hv _ (List.mem_append_right _ List.mem_cons_self)
  · cases h

/-! ## Hashes -/

theorem insertEntry {key : Key} {entries : List (Key × ValueOver C)} (hv : value.Only P)
    (h : ∀ entry ∈ entries, entry.2.Only P) :
    ∀ entry ∈ StackScript.insertEntry key value entries, entry.2.Only P := by
  induction entries with
  | nil => simpa [StackScript.insertEntry] using hv
  | cons first rest ih =>
      rw [List.forall_mem_cons] at h
      simp only [StackScript.insertEntry]
      split
      · exact List.forall_mem_cons.mpr ⟨hv, h.2⟩
      · split
        · exact List.forall_mem_cons.mpr ⟨hv, List.forall_mem_cons.mpr h⟩
        · exact List.forall_mem_cons.mpr ⟨h.1, ih h.2⟩

theorem ofEntries {entries : List (Key × ValueOver C)} (h : ∀ entry ∈ entries, entry.2.Only P) :
    (ValueOver.ofEntries entries).Only P := by
  have hfold : ∀ entry ∈ entries.foldl
      (fun held entry => StackScript.insertEntry entry.1 entry.2 held) [], entry.2.Only P :=
    List.foldlRecOn
      (motive := fun held : List (Key × ValueOver C) => ∀ entry ∈ held, entry.2.Only P) entries _
      (List.forall_mem_nil _) fun held hheld entry hm => insertEntry (h entry hm) hheld
  exact .hash hfold

theorem pairUp {values : List (ValueOver C)} {entries : List (Key × ValueOver C)}
    (hv : ∀ value ∈ values, value.Only P) (h : ValueOver.pairUp values = .ok entries) :
    ∀ entry ∈ entries, entry.2.Only P := by
  fun_induction ValueOver.pairUp values generalizing entries with
  | case1 key value values hkey => cases h
  | case2 key value values k hkey ih =>
      rw [List.forall_mem_cons, List.forall_mem_cons] at hv
      cases hrest : ValueOver.pairUp values with
      | error error => simp [hrest, bind, Except.bind] at h
      | ok rest =>
          obtain rfl : (k, value) :: rest = entries := by
            simpa [hrest, bind, Except.bind, pure, Except.pure] using h
          exact List.forall_mem_cons.mpr ⟨hv.2.1, ih hv.2.2 hrest⟩
  | case3 values hshort =>
      cases h
      exact List.forall_mem_nil _

theorem hashOf {values : List (ValueOver C)} (hv : ∀ value ∈ values, value.Only P)
    (h : ValueOver.hashOf values = .ok result) : result.Only P := by
  unfold ValueOver.hashOf at h
  cases hentries : ValueOver.pairUp values with
  | error error =>
      rw [hentries] at h
      cases h
  | ok entries =>
      rw [hentries] at h
      cases h
      exact ofEntries (pairUp hv hentries)

/-! ## Builtin functions -/

theorem oneArgument {values : List (ValueOver C)} (hv : ∀ value ∈ values, value.Only P)
    (h : Builtin.oneArgument values = .ok value) : value.Only P := by
  unfold Builtin.oneArgument at h
  split at h
  · cases h
    exact hv _ (List.mem_singleton_self _)
  · cases h

theorem elements {builtin : Builtin} {values : List (ValueOver C)} (hv : value.Only P)
    (h : builtin.elements value = .ok values) : ∀ value ∈ values, value.Only P := by
  unfold Builtin.elements at h
  split at h
  · cases h
    cases hv with
    | array hv => exact hv
  · cases h

theorem builtin_apply {builtin : Builtin} {values : List (ValueOver C)}
    (hv : ∀ value ∈ values, value.Only P) (h : builtin.apply values = .ok result) :
    result.Only P := by
  cases builtin with
  | len =>
      obtain ⟨value, hvalue, h⟩ := Except.bind_eq_ok_iff.mp h
      split at h
      all_goals cases h
      all_goals exact .integer _
  | print =>
      cases h
      exact .null
  | first =>
      obtain ⟨value, hvalue, h⟩ := Except.bind_eq_ok_iff.mp h
      obtain ⟨values', helements, h⟩ := Except.bind_eq_ok_iff.mp h
      cases h
      have hall := elements (oneArgument hv hvalue) helements
      exact null_getD fun element he => hall element (List.mem_of_head? he)
  | last =>
      obtain ⟨value, hvalue, h⟩ := Except.bind_eq_ok_iff.mp h
      obtain ⟨values', helements, h⟩ := Except.bind_eq_ok_iff.mp h
      cases h
      have hall := elements (oneArgument hv hvalue) helements
      exact null_getD fun element he => hall element (List.mem_of_getLast? he)
  | rest =>
      obtain ⟨value, hvalue, h⟩ := Except.bind_eq_ok_iff.mp h
      obtain ⟨values', helements, h⟩ := Except.bind_eq_ok_iff.mp h
      have hall := elements (oneArgument hv hvalue) helements
      split at h
      · cases h
        exact .null
      · cases h
        exact .array (List.forall_mem_cons.mp hall).2
  | push =>
      obtain ⟨⟨collection, value⟩, hvalues, h⟩ := Except.bind_eq_ok_iff.mp h
      obtain ⟨values', helements, h⟩ := Except.bind_eq_ok_iff.mp h
      cases h
      unfold Builtin.twoArguments at hvalues
      split at hvalues
      · cases hvalues
        rw [List.forall_mem_cons, List.forall_mem_singleton] at hv
        exact .array (List.forall_mem_append.mpr
          ⟨elements hv.1 helements, List.forall_mem_singleton.mpr hv.2⟩)
      · cases hvalues

end ValueOver.Only

end StackScript
