/-!
# Byte offsets in text

Places in a text are given in bytes of its UTF-8 form. A place inside a character is no place where
the text can be cut.
-/

namespace StackScript.Text

/-- The number of bytes of a list of characters. -/
def byteLength (cs : List Char) : Nat :=
  cs.foldl (fun bytes c => bytes + c.utf8Size) 0

/-- Cut a text behind a number of bytes, unless this is inside a character or behind the end. -/
def cutAt? : (cs : List Char) → (bytes : Nat) → Option (List Char × List Char)
  | cs, 0 => some ([], cs)
  | [], _ + 1 => none
  | c :: cs, bytes =>
    if bytes < c.utf8Size then none
    else (cutAt? cs (bytes - c.utf8Size)).map fun parts => (c :: parts.1, parts.2)

/-- The two parts of a text that has been cut make up the text. -/
theorem append_of_cutAt? {cs front back : List Char} {bytes : Nat}
    (h : cutAt? cs bytes = some (front, back)) : front ++ back = cs := by
  fun_induction cutAt? cs bytes generalizing front with
  | case1 => simp_all
  | case2 => simp at h
  | case3 => simp at h
  | case4 c cs bytes _ _ ih =>
      obtain ⟨parts, hcut, hparts⟩ := Option.map_eq_some_iff.1 h
      cases hparts
      simp [ih hcut]

end StackScript.Text
