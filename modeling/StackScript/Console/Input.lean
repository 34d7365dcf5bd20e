import StackScript.Console.Balance
import StackScript.Folder

/-!
# Input lines

Input that is not typed comes in lines of bytes. Lines are put together, with their ends between
them, until they make up complete input.
-/

namespace StackScript.Console

/-- What the line editor of the console answers. -/
inductive Event where
  | line (text : String)
  | interrupt
  | endOfInput
  | failure (description : String)
  | ask (text : String) (cursor : Nat)
  deriving DecidableEq

/-- A line of bytes, and the end of line that has been cut off. -/
structure RawLine where
  bytes : List UInt8
  ending : String

/-- The line of bytes without its end. A carriage return in front of a line feed belongs to it. -/
def RawLine.ended (reversed : List UInt8) : RawLine :=
  match reversed with
  | 13 :: bytes => ⟨bytes.reverse, "\r\n"⟩
  | bytes => ⟨bytes.reverse, "\n"⟩

/-- The lines of some bytes, behind the bytes of a line in reverse. There is no line behind the last
line feed if nothing follows it. -/
def rawLinesOnto (reversed : List UInt8) : List UInt8 → List RawLine
  | [] => if reversed.isEmpty then [] else [⟨reversed.reverse, ""⟩]
  | 10 :: bytes => RawLine.ended reversed :: rawLinesOnto [] bytes
  | byte :: bytes => rawLinesOnto (byte :: reversed) bytes

/-- The lines of some bytes. -/
def rawLines (bytes : ByteArray) : List RawLine :=
  rawLinesOnto [] bytes.toList

/-- How the console shows that a line is no text. -/
def notTextDescription : String :=
  "Io(Error \x7b kind: InvalidData, message: \"" ++ ReadError.notText.message ++ "\" \x7d)"

/-- The event that the next lines amount to, behind the text of those before, and the lines left
over. Incomplete input at the end is dropped. -/
def gather (text : String) : List RawLine → Event × List RawLine
  | [] => (.endOfInput, [])
  | line :: lines =>
    match Folder.decodeText ⟨line.bytes.toArray⟩ with
    | .error _ => (.failure notTextDescription, lines)
    | .ok more =>
      let text := text ++ more
      if isIncomplete text then gather (text ++ line.ending) lines else (.line text, lines)

/-- Every event takes at least one line, as long as there are lines. -/
theorem length_gather_le (text : String) (lines : List RawLine) :
    (gather text lines).2.length ≤ lines.length - 1 := by
  induction lines generalizing text with
  | nil => simp [gather]
  | cons line lines ih =>
      simp only [gather]
      split
      · simp
      · split
        · exact Nat.le_trans (ih _) (by simp)
        · simp

/-- The events of all lines. -/
def eventsOf : List RawLine → List Event
  | [] => []
  | line :: lines =>
    let next := gather "" (line :: lines)
    next.1 :: eventsOf next.2
termination_by lines => lines.length
decreasing_by
  have := length_gather_le "" (line :: lines)
  simp only [List.length_cons] at this ⊢
  omega

end StackScript.Console
