import Predictive.Grammar.RuleLine
import Predictive.OrderedMap

/-!
# The notation of lexical rules

A lexical rule is a line `pattern : name`. The name is a text in double quotes, or a word without
blanks, quotes and colons; the pattern is what stands before the last colon that a name follows, so
it may hold colons of its own. A pattern that comes again gives its rule a new name and keeps its
place.
-/

set_option autoImplicit false

namespace Predictive

namespace LexicalLine

/-- Whether a character may stand in a name without quotes. -/
def isNameChar (c : Char) : Bool :=
  !Text.isBlank c && c ≠ '"' && c ≠ ':'

/-- The name at the front of the characters, if only blanks follow it. -/
def leadingName? (cs : List Char) : Option (List Char) :=
  match cs with
  | '"' :: rest =>
      match rest.dropWhile (· ≠ '"') with
      | '"' :: after =>
          if after.all Text.isBlank then some ('"' :: rest.takeWhile (· ≠ '"') ++ ['"']) else none
      | _ => none
  | _ =>
      let name := cs.takeWhile isNameChar
      if name ≠ [] ∧ (cs.dropWhile isNameChar).all Text.isBlank then some name else none

/-- The name after a colon, with blanks wherever they may stand. -/
def nameAfterColon? (cs : List Char) : Option (List Char) :=
  match Text.dropBlanks cs with
  | ':' :: rest => leadingName? (Text.dropBlanks rest)
  | _ => none

/-- Cuts a line into its pattern, as long as it can be, and the name. -/
def split? : List Char → Option (List Char × List Char)
  | [] => none
  | c :: cs =>
      if c = '\n' then none
      else
        match split? cs with
        | some (pattern, name) => some (c :: pattern, name)
        | none =>
            if Text.isBlank c then none
            else (nameAfterColon? cs).map fun name => ([c], name)

/-- The rules of numbered lines, put into the map of the rules before. -/
def readFrom (rules : OrderedMap String Symbol) :
    List (Nat × List Char) → Except GrammarFault (OrderedMap String Symbol)
  | [] => .ok rules
  | (number, line) :: lines =>
      match split? line with
      | none => .error (.badLexicalLine number (String.ofList line))
      | some (pattern, name) =>
          readFrom (rules.insert (String.ofList pattern) (String.ofList name)) lines

end LexicalLine

/-- The lexical rules that lines describe: the name of every pattern. -/
def readLexicalRules (lines : List (List Char)) :
    Except GrammarFault (OrderedMap String Symbol) :=
  LexicalLine.readFrom OrderedMap.empty (RuleLine.numberFrom 1 lines)

end Predictive
