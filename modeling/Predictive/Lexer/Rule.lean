import Predictive.Pattern.Compiler
import Predictive.Pattern.Literal
import Predictive.Symbol

/-!
# Lexical rules

A lexical rule gives a name to the pieces of text that a pattern matches. `LexicalRule.compile` makes
a matcher of it, which tells where its match at a place of a text ends.
-/

set_option autoImplicit false

namespace Predictive

/-- A pattern, in which quoted texts stand for themselves, with the name of its tokens. -/
structure LexicalRule where
  pattern : String
  name : Symbol
deriving Repr, DecidableEq

/-- A lexical rule in use: the name it gives, and the end of its match at a place of a text. -/
structure Matcher where
  name : Symbol
  endAt : EndFinder

namespace LexicalRule

/-- The pattern with quoted texts written out. -/
def written (r : LexicalRule) : List Char := Pattern.expandQuotes r.pattern.toList

/-- The rule with its quoted parts. -/
def describe (r : LexicalRule) : String :=
  "LexRule(" ++ Text.quote r.pattern ++ ", " ++ Text.quote r.name ++ ")"

/-- The failure that a fault of the pattern is. -/
def failure (r : LexicalRule) : CompileFault → Failure
  | .pattern message => .grammar (.badPattern r.pattern message)
  | .failure reason => reason

/-- The matcher of a rule that a compiler makes under flags. -/
def compile (compiler : PatternCompiler) (flags : Datum) (r : LexicalRule) :
    Except Failure Matcher :=
  match compiler r.written flags with
  | .ok find => .ok ⟨r.name, find⟩
  | .error fault => .error (r.failure fault)

end LexicalRule

end Predictive
