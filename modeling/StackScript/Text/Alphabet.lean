import StackScript.Text.Identifier

/-!
# Alphabets

Layout between tokens is blank, and so is what trimming removes. A name starts with an underscore or
a character with the property `XID_Start`, and goes on with underscores and characters with the
property `XID_Continue`.

## Implementation notes

The characters with these properties grow in number from one edition of Unicode to the next. They are
therefore a parameter. What is said of a source holds whatever they are, as long as no character of a
name is blank and the basic characters are what they have always been. The console and the parser run
with the alphabet of Unicode 16.
-/

namespace StackScript.Text

/-- Which characters are blank, and which have the properties `XID_Start` and `XID_Continue`. The
basic characters are classified as usual, and no character of a name is blank. -/
class Alphabet where
  blank : Char → Bool
  start : Char → Bool
  part : Char → Bool
  blank_basic : ∀ c : Char, c.toNat < 0x80 → blank c = (c = ' ' || ('\t' ≤ c && c ≤ '\r'))
  start_basic : ∀ c : Char, c.toNat < 0x80 → start c = c.isAlpha
  part_basic : ∀ c : Char, c.toNat < 0x80 → part c = (c.isAlphanum || c = '_')
  start_apart : ∀ c, start c = true → blank c = false
  part_apart : ∀ c, part c = true → blank c = false

theorem toNat_lt_of_isAlphanum {c : Char} (h : c.isAlphanum = true) : c.toNat < 0x80 := by
  have hbelow : ∀ high : UInt32, c.val ≤ high → c.toNat ≤ high.toNat := fun _ =>
    UInt32.le_iff_toNat_le.mp
  obtain hletter | hdigit := Bool.or_eq_true_iff.mp h
  · obtain hupper | hlower := Bool.or_eq_true_iff.mp hletter
    · have hle : c.val ≤ 'Z'.val := (of_decide_eq_true hupper).2
      exact Nat.lt_of_le_of_lt (hbelow _ hle) (by decide)
    · have hle : c.val ≤ 'z'.val := of_decide_eq_true (Bool.and_eq_true_iff.mp hlower).2
      exact Nat.lt_of_le_of_lt (hbelow _ hle) (by decide)
  · exact Nat.lt_of_le_of_lt (Char.isDigit_iff_toNat.mp hdigit).2 (by decide)

section

variable [Alphabet]

/-- A blank separates tokens and words. -/
def isBlank (c : Char) : Bool :=
  Alphabet.blank c

/-- A name may start with this character. -/
def isIdentifierStart (c : Char) : Bool :=
  c = '_' || Alphabet.start c

/-- A name may go on with this character. -/
def isIdentifierPart (c : Char) : Bool :=
  c = '_' || Alphabet.part c

/-- The characters without the blanks in front. -/
def trimStart (cs : List Char) : List Char :=
  cs.dropWhile isBlank

/-- The characters without the blanks at the end. -/
def trimEnd (cs : List Char) : List Char :=
  (cs.reverse.dropWhile isBlank).reverse

/-- The characters without the blanks at either end. -/
def trim (cs : List Char) : List Char :=
  trimEnd (trimStart cs)

variable {c : Char}

theorem isBlank_basic (h : c.toNat < 0x80) :
    isBlank c = (c = ' ' || ('\t' ≤ c && c ≤ '\r')) :=
  Alphabet.blank_basic c h

theorem isIdentifierStart_basic (h : c.toNat < 0x80) :
    isIdentifierStart c = (c = '_' || c.isAlpha) := by
  rw [isIdentifierStart, Alphabet.start_basic c h]

theorem isIdentifierPart_basic (h : c.toNat < 0x80) :
    isIdentifierPart c = (c.isAlphanum || c = '_') := by
  rw [isIdentifierPart, Alphabet.part_basic c h]
  cases c.isAlphanum <;> simp

@[simp] theorem isBlank_space : isBlank ' ' = true :=
  isBlank_basic (by decide)

@[simp] theorem isBlank_newline : isBlank '\n' = true :=
  isBlank_basic (by decide)

theorem not_isBlank_of_isIdentifierStart (h : isIdentifierStart c = true) : isBlank c = false := by
  rw [isIdentifierStart, Bool.or_eq_true, decide_eq_true_iff] at h
  rcases h with rfl | h
  · exact isBlank_basic (by decide)
  · exact Alphabet.start_apart c h

theorem not_isBlank_of_isIdentifierPart (h : isIdentifierPart c = true) : isBlank c = false := by
  rw [isIdentifierPart, Bool.or_eq_true, decide_eq_true_iff] at h
  rcases h with rfl | h
  · exact isBlank_basic (by decide)
  · exact Alphabet.part_apart c h

theorem isIdentifierStart_of_isAlpha (h : c.isAlpha = true) : isIdentifierStart c = true := by
  rw [isIdentifierStart_basic (toNat_lt_of_isAlphanum (Bool.or_eq_true_iff.mpr (.inl h))), h,
    Bool.or_true]

theorem isIdentifierPart_of_isAlphanum (h : c.isAlphanum = true) : isIdentifierPart c = true := by
  rw [isIdentifierPart_basic (toNat_lt_of_isAlphanum h), h, Bool.true_or]

theorem not_isBlank_of_isDigit (h : c.isDigit = true) : isBlank c = false :=
  not_isBlank_of_isIdentifierPart
    (isIdentifierPart_of_isAlphanum (Bool.or_eq_true_iff.mpr (.inr h)))

end

/-! ## The alphabet of Unicode 16 -/

/-- The characters with the property `White_Space`. -/
def blanks : CodePointSet :=
  ⟨[0x9, 0xe, 0x20, 0x21, 0x85, 0x86, 0xa0, 0xa1, 0x1680, 0x1681, 0x2000, 0x200b, 0x2028, 0x202a,
    0x202f, 0x2030, 0x205f, 0x2060, 0x3000, 0x3001]⟩

/-- The code points of the blanks. -/
def blankCodes : List Nat :=
  [0x9, 0xa, 0xb, 0xc, 0xd, 0x20, 0x85, 0xa0, 0x1680, 0x2000, 0x2001, 0x2002, 0x2003, 0x2004, 0x2005,
    0x2006, 0x2007, 0x2008, 0x2009, 0x200a, 0x2028, 0x2029, 0x202f, 0x205f, 0x3000]

theorem toNat_mem_blankCodes {c : Char} (h : blanks.contains c = true) : c.toNat ∈ blankCodes := by
  unfold CodePointSet.contains blanks at h
  generalize c.toNat = code at h ⊢
  simp only [CodePointSet.inside] at h
  simp at h
  simp only [blankCodes, List.mem_cons, List.not_mem_nil, or_false]
  omega

/-- A set without the code points of the blanks has no blank in it. -/
theorem blanks_apart {set : CodePointSet}
    (h : ∀ code ∈ blankCodes, CodePointSet.inside set.changes code = false) (c : Char)
    (hc : set.contains c = true) : blanks.contains c = false := by
  rw [Bool.eq_false_iff]
  intro hb
  rw [CodePointSet.contains, h _ (toNat_mem_blankCodes hb)] at hc
  cases hc

/-- What holds of the basic characters one by one holds of every basic character. -/
theorem forall_basic {f g : Char → Bool}
    (h : ∀ code < 0x80, f (Char.ofNat code) = g (Char.ofNat code)) (c : Char)
    (hc : c.toNat < 0x80) : f c = g c := by
  have hcode := h c.toNat hc
  rwa [Char.ofNat_toNat] at hcode

instance Alphabet.unicode : Alphabet where
  blank := blanks.contains
  start := identifierStarts.contains
  part := identifierParts.contains
  blank_basic := forall_basic (by decide +kernel)
  start_basic := forall_basic (by decide +kernel)
  part_basic := forall_basic (by decide +kernel)
  start_apart := blanks_apart (by decide +kernel)
  part_apart := blanks_apart (by decide +kernel)

end StackScript.Text
