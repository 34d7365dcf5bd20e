import StackScript.Text.Bytes
import StackScript.Token.Basic

/-!
# Cutting text at byte offsets

A text that is put together from parts can be cut where the parts meet, and the part between two
such places is what stands there.
-/

namespace StackScript.Text

@[simp] theorem byteLength_nil : byteLength [] = 0 := rfl

@[simp] theorem byteLength_cons (c : Char) (cs : List Char) :
    byteLength (c :: cs) = c.utf8Size + byteLength cs := by
  have hfrom : ∀ bytes, (cs.foldl (fun bytes c => bytes + c.utf8Size) bytes) =
      bytes + byteLength cs := by
    induction cs with
    | nil => exact fun _ => rfl
    | cons d cs ih =>
        intro bytes
        rw [byteLength, List.foldl_cons, List.foldl_cons, ih, ih (0 + d.utf8Size)]
        omega
  rw [byteLength, List.foldl_cons, hfrom, Nat.zero_add]

@[simp] theorem byteLength_append (front back : List Char) :
    byteLength (front ++ back) = byteLength front + byteLength back := by
  induction front with
  | nil => simp
  | cons c front ih => rw [List.cons_append, byteLength_cons, byteLength_cons, ih, Nat.add_assoc]

/-- Bytes are counted as in the UTF-8 form of a text. -/
theorem byteLength_toList (source : String) : byteLength source.toList = source.utf8ByteSize := by
  have hofList : ∀ cs, (String.ofList cs).utf8ByteSize = byteLength cs := by
    intro cs
    induction cs with
    | nil => rfl
    | cons c cs ih =>
        rw [String.ofList_cons, String.utf8ByteSize_append, String.utf8ByteSize_singleton, ih,
          byteLength_cons]
  rw [← hofList, String.ofList_toList]

theorem byteLength_pos {cs : List Char} (h : cs ≠ []) : 0 < byteLength cs := by
  cases cs with
  | nil => exact absurd rfl h
  | cons c cs =>
      rw [byteLength_cons]
      exact Nat.add_pos_left c.utf8Size_pos _

theorem byteLength_reverse (cs : List Char) : byteLength cs.reverse = byteLength cs := by
  induction cs with
  | nil => rfl
  | cons c cs ih =>
      rw [List.reverse_cons, byteLength_append, ih, byteLength_cons, byteLength_cons, byteLength_nil,
        Nat.add_zero, Nat.add_comm]

/-- A cut behind the first character is one of the others. -/
theorem cutAt?_cons_add (c : Char) (cs : List Char) (bytes : Nat) :
    cutAt? (c :: cs) (c.utf8Size + bytes) =
      (cutAt? cs bytes).map fun parts => (c :: parts.1, parts.2) := by
  rw [cutAt?, if_neg (Nat.not_lt.mpr (Nat.le_add_right _ _)), Nat.add_sub_cancel_left]
  exact Nat.ne_of_gt (Nat.add_pos_left c.utf8Size_pos bytes)

/-- A text can be cut where two parts of it meet. -/
theorem cutAt?_append (front back : List Char) :
    cutAt? (front ++ back) (byteLength front) = some (front, back) := by
  induction front with
  | nil => simp [cutAt?]
  | cons c front ih =>
      rw [List.cons_append, byteLength_cons, cutAt?_cons_add, ih]
      rfl

/-- A text cannot be cut inside a character. -/
theorem cutAt?_inside (front back : List Char) {c : Char} {bytes : Nat} (hpos : 0 < bytes)
    (hlt : bytes < c.utf8Size) : cutAt? (front ++ c :: back) (byteLength front + bytes) = none := by
  induction front with
  | nil =>
      rw [List.nil_append, byteLength_nil, Nat.zero_add, cutAt?, if_pos hlt]
      exact Nat.ne_of_gt hpos
  | cons d front ih =>
      rw [List.cons_append, byteLength_cons, Nat.add_assoc, cutAt?_cons_add, ih]
      rfl

/-- The front of a text that has been cut has as many bytes as were asked for. -/
theorem byteLength_of_cutAt? {cs front back : List Char} {bytes : Nat}
    (h : cutAt? cs bytes = some (front, back)) : byteLength front = bytes := by
  fun_induction cutAt? cs bytes generalizing front with
  | case1 =>
      cases h
      rfl
  | case2 => cases h
  | case3 => cases h
  | case4 c cs bytes _ hle ih =>
      obtain ⟨parts, hcut, hparts⟩ := Option.map_eq_some_iff.mp h
      cases hparts
      rw [byteLength_cons, ih hcut, Nat.add_sub_cancel' (Nat.not_lt.mp hle)]

/-- The characters under a range of bytes, if it starts and ends between characters. -/
def slice? (cs : List Char) (span : Span) : Option (List Char) :=
  (cutAt? cs span.start).bind fun parts => (cutAt? parts.2 span.length).map Prod.fst

/-- A part of a text is what lies under its bytes. -/
theorem slice?_append (front middle back : List Char) :
    slice? (front ++ (middle ++ back))
      ⟨byteLength front, byteLength front + byteLength middle⟩ = some middle := by
  have hlength : Span.length ⟨byteLength front, byteLength front + byteLength middle⟩ =
      byteLength middle :=
    Nat.add_sub_cancel_left _ _
  rw [slice?, hlength, cutAt?_append, Option.bind_some, cutAt?_append, Option.map_some]

end StackScript.Text
