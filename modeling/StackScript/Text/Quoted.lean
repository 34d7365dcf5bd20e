import StackScript.Text.Printable

/-!
# Quoted text

A quoted text stands between two delimiters. Inside, the delimiter and the backslash follow a
backslash, four controls have short names, and a character that is not printable is written as its
code point in hexadecimal digits between braces.
-/

namespace StackScript.Text

/-- The code point of a character, in lowercase hexadecimal digits between braces. -/
def codePointEscape (c : Char) : List Char :=
  '\\' :: 'u' :: '\x7b' :: (Nat.toDigits 16 c.toNat ++ ['\x7d'])

/-- How one character is written between two delimiters. -/
def escape (delimiter c : Char) : List Char :=
  if c = '\x00' then ['\\', '0']
  else if c = '\t' then ['\\', 't']
  else if c = '\r' then ['\\', 'r']
  else if c = '\n' then ['\\', 'n']
  else if c = '\\' ∨ c = delimiter then ['\\', c]
  else if isPrintable c then [c]
  else codePointEscape c

/-- A text between double quotes. -/
def quote (text : String) : String :=
  String.ofList ('"' :: (text.toList.flatMap (escape '"') ++ ['"']))

/-- A single character between single quotes. -/
def quoteChar (c : Char) : String :=
  String.ofList ('\'' :: (escape '\'' c ++ ['\'']))

/-- The characters of a quoted text, one after the other. -/
theorem toList_quote (text : String) :
    (quote text).toList = '"' :: (text.toList.flatMap (escape '"') ++ ['"']) := by
  simp [quote]

end StackScript.Text
