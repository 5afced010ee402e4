import Predictive.Pattern.Reader

/-!
# Quoted texts in patterns

Inside a lexical rule a text in double quotes stands for itself. `expandQuotes` writes such texts in
the notation of patterns, with a backslash before each character that has a meaning of its own there;
all else is a pattern already. A quote without a partner, and a pair with nothing between, stay.
-/

set_option autoImplicit false

namespace Predictive.Pattern

/-- Whether a character takes a backslash when a pattern should match it and nothing else. -/
def isSpecial (c : Char) : Bool :=
  "()[]\x7b\x7d?*+-|^$\\.&~# \t\n\r\x0b\x0c".toList.contains c

/-- The notation that matches a text and nothing else. -/
def escapeLiteral (cs : List Char) : List Char :=
  cs.flatMap fun c => if isSpecial c then ['\\', c] else [c]

/-- Goes through a rule; after an opening quote, with the characters since then, the last one
first. -/
def expandFrom : Option (List Char) → List Char → List Char
  | none, [] => []
  | some inside, [] => '"' :: inside.reverse
  | none, c :: cs => if c = '"' then expandFrom (some []) cs else c :: expandFrom none cs
  | some inside, c :: cs =>
      if c = '"' then
        if inside.isEmpty then '"' :: expandFrom (some []) cs
        else escapeLiteral inside.reverse ++ expandFrom none cs
      else expandFrom (some (c :: inside)) cs

/-- The notation of a pattern in which quoted texts are written out. -/
def expandQuotes (cs : List Char) : List Char := expandFrom none cs

end Predictive.Pattern
