import Predictive.Grammar.Fault
import Predictive.Grammar.Production
import Predictive.Text.Blank

/-!
# The notation of grammars

A grammar is written in lines. A line `lhs -> rhs` begins the rules of a nonterminal, a line `| rhs`
goes on with them, and blank lines mean nothing. A right-hand side is cut at blanks into symbols; a
bar among them separates alternatives, and an empty alternative is the empty symbol. The terminal
that holds one blank is broken in two by the cutting and put together again.

`readRules` gives the rules that the lines describe, in the order in which they are written.
-/

set_option autoImplicit false

namespace Predictive

/-- One alternative of a nonterminal: what the lines of a grammar describe. -/
structure Rule where
  lhs : Symbol
  rhs : List Symbol
deriving Repr, DecidableEq

namespace RuleLine

/-! ## Right-hand sides -/

/-- The word that is a double quote alone. -/
def loneQuote : List Char := ['"']

/-- The terminal that holds one blank. -/
def blankTerminal : List Char := ['"', ' ', '"']

/-- Puts two double quotes that follow each other together to the terminal of one blank. -/
def joinQuotes : List (List Char) → List (List Char)
  | [] => []
  | [w] => [w]
  | v :: w :: ws =>
      if v = loneQuote ∧ w = loneQuote then blankTerminal :: joinQuotes ws
      else v :: joinQuotes (w :: ws)

/-- The symbols of a right-hand side. -/
def symbols (cs : List Char) : List Symbol :=
  (joinQuotes (Text.words cs)).map String.ofList

/-- The symbol that separates alternatives. -/
def bar : Symbol := "|"

/-- The pieces of a list between the bars. -/
def splitAtBars : List Symbol → List (List Symbol)
  | [] => [[]]
  | s :: ss =>
      match splitAtBars ss with
      | alt :: alts => if s = bar then [] :: alt :: alts else (s :: alt) :: alts
      | [] => [[s]]

/-- The alternatives of a right-hand side; an empty one is the empty symbol. -/
def alternatives (ss : List Symbol) : List (List Symbol) :=
  (splitAtBars ss).map fun alt => if alt = [] then [Symbol.empty] else alt

/-! ## Lines -/

/-- Whether a character may stand in a left-hand side. -/
def isHeadChar (c : Char) : Bool :=
  !Text.isBlank c && c ≠ '|' && c ≠ '"'

/-- What follows the arrow, if blanks and an arrow come first and no line feed comes after. -/
def afterArrow? (cs : List Char) : Option (List Char) :=
  match Text.dropBlanks cs with
  | '-' :: '>' :: rest => if '\n' ∈ rest then none else some rest
  | _ => none

/-- Cuts a rule into its left-hand and right-hand side, at the first arrow that leaves the
left-hand side one character at least. -/
def splitHead? : List Char → Option (List Char × List Char)
  | [] => none
  | c :: cs =>
      if isHeadChar c then
        match afterArrow? cs with
        | some rest => some ([c], rest)
        | none => (splitHead? cs).map fun (head, rest) => (c :: head, rest)
      else none

/-- What a line is. -/
inductive Form where
  /-- The line begins the rules of a nonterminal. -/
  | rule (lhs : List Char) (rhs : List Char)
  /-- The line goes on with the rules before it. -/
  | alternative (rhs : List Char)
deriving Repr, DecidableEq

/-- The form of a line without blanks at its ends, if it has one. -/
def form? (line : List Char) : Option Form :=
  match splitHead? line with
  | some (lhs, rhs) => some (.rule lhs rhs)
  | none =>
      match line with
      | '|' :: rhs => if '\n' ∈ rhs then none else some (.alternative rhs)
      | _ => none

/-- The rules that one right-hand side gives a nonterminal. -/
def rulesOf (lhs : Symbol) (rhs : List Char) : List Rule :=
  (alternatives (symbols rhs)).map (Rule.mk lhs)

/-- The lines that are not blank, stripped and with their numbers counted from `first`. -/
def numberFrom (first : Nat) : List (List Char) → List (Nat × List Char)
  | [] => []
  | line :: lines =>
      let stripped := Text.strip line
      if stripped = [] then numberFrom (first + 1) lines
      else (first, stripped) :: numberFrom (first + 1) lines

/-- The rules of numbered lines, when `current` is the nonterminal of the lines before. -/
def readFrom (current : Option Symbol) :
    List (Nat × List Char) → Except GrammarFault (List Rule)
  | [] => .ok []
  | (number, line) :: lines =>
      match form? line with
      | none => .error (.badLine number (String.ofList line))
      | some (.rule lhs rhs) => do
          let rest ← readFrom (some (String.ofList lhs)) lines
          .ok (rulesOf (String.ofList lhs) rhs ++ rest)
      | some (.alternative rhs) =>
          match current with
          | none => .error (.strayAlternative number (String.ofList line))
          | some lhs => do
              let rest ← readFrom (some lhs) lines
              .ok (rulesOf lhs rhs ++ rest)

end RuleLine

/-- The rules that the lines of a grammar describe. -/
def readRules (lines : List (List Char)) : Except GrammarFault (List Rule) := do
  let rules ← RuleLine.readFrom none (RuleLine.numberFrom 1 lines)
  if rules = [] then .error .noProductions else .ok rules

end Predictive
