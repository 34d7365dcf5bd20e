import StackScript.Text.Alphabet

/-!
# Complete input

Input goes on in the next line while a bracket or a text literal is open, or while its last
character asks for more. A closing bracket that does not fit ends the input: it will never be
correct.
-/

namespace StackScript.Console

/-- Where the check of brackets stands. -/
inductive Context where
  | code
  | text
  | escape
  | comment
  deriving DecidableEq

/-- The bracket that closes an opening one. -/
def closing? (c : Char) : Option Char :=
  if c = '(' then some ')'
  else if c = '[' then some ']'
  else if c = '\x7b' then some '\x7d'
  else none

/-- A closing bracket. -/
def isClosing (c : Char) : Bool :=
  c = ')' || c = ']' || c = '\x7d'

/-- No bracket and no text literal stays open at the end of the input, or a closing bracket does not
fit. The closing brackets that are due are given, the next one first. -/
def balancedFrom (due : List Char) : Context → List Char → Bool
  | .code, [] => due.isEmpty
  | .comment, [] => due.isEmpty
  | .text, [] => false
  | .escape, [] => false
  | .escape, _ :: cs => balancedFrom due .text cs
  | .text, c :: cs =>
    balancedFrom due (if c = '\\' then .escape else if c = '"' then .code else .text) cs
  | .comment, c :: cs => balancedFrom due (if c = '\n' then .code else .comment) cs
  | .code, '/' :: '/' :: cs => balancedFrom due .comment cs
  | .code, c :: cs =>
    if c = '"' then balancedFrom due .text cs
    else
      match closing? c with
      | some bracket => balancedFrom (bracket :: due) .code cs
      | none =>
        if isClosing c then
          match due with
          | bracket :: due => if bracket = c then balancedFrom due .code cs else true
          | [] => true
        else balancedFrom due .code cs

/-- No bracket and no text literal of some input stays open. -/
def isBalanced (input : String) : Bool :=
  balancedFrom [] .code input.toList

/-- A character that cannot be the last one of a program. -/
def asksForMore (c : Char) : Bool :=
  "\\+-*/=,".toList.contains c

/-- The input goes on in the next line. -/
def isIncomplete (input : String) : Bool :=
  !isBalanced input || (Text.trimEnd input.toList).getLast?.any asksForMore

end StackScript.Console
