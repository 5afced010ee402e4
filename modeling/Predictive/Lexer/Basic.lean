import Predictive.Grammar.Basic
import Predictive.Lexer.Rule

/-!
# Lexers

A lexer holds the matchers of the lexical rules in the order of their declaration, and the first one
that matches something wins.
-/

set_option autoImplicit false

namespace Predictive

/-- The matchers of lexical rules, in their order. -/
abbrev Lexer := List Matcher

namespace Lexer

/-- The lexer of rules, the first of which that cannot be compiled fails. -/
def ofRules (compiler : PatternCompiler) (flags : Datum) : List LexicalRule → Except Failure Lexer
  | [] => .ok []
  | r :: rs => do
      let m ← r.compile compiler flags
      let ms ← ofRules compiler flags rs
      .ok (m :: ms)

/-- The lexical rules of a grammar. -/
def rulesOf (g : Grammar) : List LexicalRule :=
  g.lexicalRules.entries.map fun e => ⟨e.1, e.2⟩

/-- The lexer of a grammar under flags; without rules nothing is compiled. -/
def ofGrammar (g : Grammar) (compiler : PatternCompiler) (flags : Datum) : Except Failure Lexer :=
  ofRules compiler flags (rulesOf g)

/-- The first matcher with a match that is not empty, with the end of the match. -/
def firstMatch (text : Array Char) (place : Nat) : Lexer → Option (Symbol × Nat)
  | [] => none
  | m :: ms =>
      match m.endAt text place with
      | some stop =>
          if place < stop ∧ stop ≤ text.size then some (m.name, stop)
          else firstMatch text place ms
      | none => firstMatch text place ms

end Lexer

end Predictive
