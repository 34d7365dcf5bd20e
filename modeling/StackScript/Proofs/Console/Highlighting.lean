import Mathlib.Data.List.TakeWhile
import StackScript.Console.Highlight

/-!
# Styles leave the text as it is

A style puts control sequences around a text, whatever the palette. If these are taken away from a
highlighted line, the line itself is left, as long as it has no escape character of its own.
-/

namespace StackScript.Console

/-- The character that a control sequence begins with. -/
def escape : Char := '\x1b'

/-- Characters without the control sequences that set display attributes. -/
def unstyled : List Char → List Char
  | '\x1b' :: '[' :: cs =>
    match _ : cs.dropWhile isParameter with
    | 'm' :: rest => unstyled rest
    | _ => '\x1b' :: '[' :: unstyled cs
  | c :: cs => c :: unstyled cs
  | [] => []
termination_by cs => cs.length
decreasing_by
  · have hle := List.length_dropWhile_le isParameter cs
    simp only [*, List.length_cons] at hle ⊢
    omega
  · simp only [List.length_cons]
    omega
  · exact Nat.lt_succ_self _

theorem unstyled_cons {c : Char} (h : c ≠ escape) (cs : List Char) :
    unstyled (c :: cs) = c :: unstyled cs := by
  rw [unstyled]
  rintro others rfl
  exact absurd rfl h

theorem unstyled_append {text : List Char} (h : escape ∉ text) (rest : List Char) :
    unstyled (text ++ rest) = text ++ unstyled rest := by
  induction text with
  | nil => rfl
  | cons c text ih =>
      have hc := List.ne_of_not_mem_cons h
      rw [List.cons_append, unstyled_cons (Ne.symm hc), ih (List.not_mem_of_not_mem_cons h),
        List.cons_append]

/-- A control sequence is taken away as a whole. -/
theorem unstyled_sequence {parameters : List Char} (h : ∀ c ∈ parameters, isParameter c = true)
    (rest : List Char) : unstyled ('\x1b' :: '[' :: (parameters ++ 'm' :: rest)) = unstyled rest := by
  have hdrop : (parameters ++ 'm' :: rest).dropWhile isParameter = 'm' :: rest := by
    rw [List.dropWhile_append_of_pos h, List.dropWhile_cons_of_neg (by decide)]
  rw [unstyled]
  split
  case h_1 others heq =>
      rw [hdrop] at heq
      cases heq
      rfl
  case h_2 hne => exact absurd hdrop (hne rest)

theorem unstyled_renditions {sequences : List Char} (h : Renditions sequences) (rest : List Char) :
    unstyled (sequences ++ rest) = unstyled rest := by
  induction h with
  | nil => rfl
  | cons hp _ ih =>
      rw [List.cons_append, List.cons_append, List.append_assoc, List.cons_append,
        unstyled_sequence hp, ih]

/-- Without its control sequences, styled text is the text that it shows, whatever follows. -/
def Shows (styled : String) (cs : List Char) : Prop :=
  ∀ rest, unstyled (styled.toList ++ rest) = cs ++ unstyled rest

namespace Shows

theorem plain {text : List Char} (h : escape ∉ text) : Shows (String.ofList text) text := by
  intro rest
  rw [String.toList_ofList, unstyled_append h]

theorem append {first second : String} {cs ds : List Char} (h : Shows first cs)
    (h' : Shows second ds) : Shows (first ++ second) (cs ++ ds) := by
  intro rest
  rw [String.toList_append, List.append_assoc, h, h', List.append_assoc]

/-- A text shows the same in every style. -/
theorem paint [Palette] {text : String} {cs : List Char} (h : Shows text cs) (style : Style) :
    Shows (paint style text) cs := by
  intro rest
  obtain ⟨before, after, hbefore, hafter, htext⟩ := Palette.surrounds style text
  rw [Console.paint, htext, List.append_assoc, List.append_assoc,
    unstyled_renditions hbefore, h, unstyled_renditions hafter]

end Shows

section

variable [Palette]

/-- Each part of a line shows its characters. -/
theorem Piece.shows_styled (isCommand : Bool) (piece : Piece) (h : escape ∉ piece.chars) :
    Shows (piece.styled isCommand) piece.chars := by
  have hplain : Shows (String.ofList piece.chars) piece.chars := .plain h
  cases piece with
  | text cs => exact hplain.paint .green
  | word cs =>
      rw [styled, styledWord]
      split_ifs
      · exact (hplain.paint .magenta).paint .bold
      · exact hplain.paint .blue
      · exact hplain.paint .cyan
      · exact hplain.paint .yellow
      · exact hplain
  | single c =>
      rw [styled, styledChar]
      split_ifs
      · exact hplain.paint .yellow
      · exact hplain.paint .cyan
      · exact hplain.paint .magenta
      · exact hplain

theorem shows_join {parts : List Piece} (isCommand : Bool)
    (h : ∀ piece ∈ parts, escape ∉ piece.chars) :
    Shows (String.join (parts.map (Piece.styled isCommand))) (parts.flatMap Piece.chars) := by
  induction parts with
  | nil => exact .plain List.not_mem_nil
  | cons piece parts ih =>
      rw [List.forall_mem_cons] at h
      rw [List.map_cons, String.join_cons, List.flatMap_cons]
      exact (piece.shows_styled isCommand h.1).append (ih h.2)

/-- A highlighted line is the line itself as soon as the control sequences are taken away. -/
theorem unstyled_highlight {line : String} (h : escape ∉ line.toList) :
    unstyled (highlight line).toList = line.toList := by
  have hparts : ∀ piece ∈ pieces line.toList, escape ∉ piece.chars := by
    intro piece hpiece hescape
    apply h
    rw [← flatMap_chars_pieces line.toList]
    exact List.mem_flatMap_of_mem hpiece hescape
  have hshows := shows_join (line.toList.head? = some '.') hparts []
  rw [flatMap_chars_pieces, List.append_nil, unstyled, List.append_nil] at hshows
  exact hshows

end

/-- Words of every class, an open text literal, and characters that look like a control sequence. -/
theorem unstyled_highlight_mixed :
    escape ∉ ".let é = len([31m, true) + \"[0m".toList ∧
      unstyled (highlight ".let é = len([31m, true) + \"[0m").toList =
        ".let é = len([31m, true) + \"[0m".toList := by
  have h : escape ∉ ".let é = len([31m, true) + \"[0m".toList := by decide +kernel
  exact ⟨h, unstyled_highlight h⟩

end StackScript.Console
