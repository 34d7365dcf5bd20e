/-!
# Styled text

A style puts control sequences of a terminal in front of a text and behind it.

## Implementation notes

Which sequences set a style is a matter of the terminal. They are therefore a parameter: what is said
of a styled text holds as long as there are nothing but such sequences around it. The console runs
with the palette of ANSI terminals.
-/

namespace StackScript.Console

/-- Colours and weights of a text. -/
inductive Style where
  | red
  | green
  | yellow
  | blue
  | magenta
  | cyan
  | white
  | brightGreen
  | brightYellow
  | brightCyan
  | bold
  | dimmed

/-- A character of the parameters of a control sequence. -/
def isParameter (c : Char) : Bool :=
  c.isDigit || c = ';'

/-- Control sequences that set display attributes, one behind the other. -/
inductive Renditions : List Char → Prop
  | nil : Renditions []
  | cons {parameters cs : List Char} (hp : ∀ c ∈ parameters, isParameter c = true)
    (h : Renditions cs) : Renditions ('\x1b' :: '[' :: (parameters ++ 'm' :: cs))

/-- What becomes of a text in each style: there are control sequences in front of it and behind. -/
class Palette where
  styled : Style → String → String
  surrounds : ∀ style text, ∃ before after, Renditions before ∧ Renditions after ∧
    (styled style text).toList = before ++ (text.toList ++ after)

/-- A text in a style. -/
def paint [Palette] (style : Style) (text : String) : String :=
  Palette.styled style text

/-- A text with spaces behind it, up to a width. -/
def padded (width : Nat) (text : String) : String :=
  text ++ String.ofList (List.replicate (width - text.length) ' ')

/-! ## The palette of ANSI terminals -/

/-- The control sequence with a code. -/
def rendition (code : Nat) : String :=
  "\x1b[" ++ toString code ++ "m"

theorem renditions_rendition (code : Nat) : Renditions (rendition code).toList := by
  have hdigits : ∀ c ∈ Nat.toDigits 10 code, isParameter c = true := by
    intro c hc
    rw [isParameter, Nat.isDigit_of_mem_toDigits (by decide) (by decide) hc, Bool.true_or]
  have hcode : (toString code).toList = Nat.toDigits 10 code := String.toList_ofList
  rw [rendition, String.toList_append, String.toList_append, hcode]
  exact .cons hdigits .nil

/-- The code that sets a style, and the one that sets it back. -/
def Style.codes : Style → Nat × Nat
  | red => (31, 39)
  | green => (32, 39)
  | yellow => (33, 39)
  | blue => (34, 39)
  | magenta => (35, 39)
  | cyan => (36, 39)
  | white => (37, 39)
  | brightGreen => (92, 39)
  | brightYellow => (93, 39)
  | brightCyan => (96, 39)
  | bold => (1, 0)
  | dimmed => (2, 0)

instance Palette.ansi : Palette where
  styled style text := rendition style.codes.1 ++ text ++ rendition style.codes.2
  surrounds style text := by
    refine ⟨(rendition style.codes.1).toList, (rendition style.codes.2).toList,
      renditions_rendition _, renditions_rendition _, ?_⟩
    rw [String.toList_append, String.toList_append, List.append_assoc]

end StackScript.Console
