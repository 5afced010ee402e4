import Predictive.Lexer.Scan
import Predictive.Unchecked.Grammar

/-!
# Lexers of unchecked rules

The patterns of lexical rules have to be texts, since they are compiled when the lexer is made. The
name of a rule is looked at when the rule matches, and may be any value of which can be told whether
it is a terminal.
-/

set_option autoImplicit false

namespace Predictive.Unchecked

/-- A lexical rule in use: the name it gives, and the end of its match at a place of a text. -/
structure Matcher where
  name : Datum
  endAt : EndFinder

/-- The matchers of lexical rules, in their order. -/
abbrev Lexer := List Matcher

/-- A token with its kind as a value. -/
abbrev KindedToken := Datum × Token

namespace Lexer

/-- The matcher of a rule that a compiler makes under flags. -/
def compile (compiler : PatternCompiler) (flags : Datum) (rule : Datum × Datum) :
    Except Failure Matcher :=
  match rule.1.text? with
  | some pattern => do
      let m ← LexicalRule.compile compiler flags ⟨pattern, rule.2.display⟩
      .ok ⟨rule.2, m.endAt⟩
  | none => .error .wrongType

/-- The lexer of a grammar under flags. -/
def ofGrammar (g : Grammar) (compiler : PatternCompiler) (flags : Datum) :
    Except Failure Lexer := do
  (← entries (← g.lexicalRules)).mapM (compile compiler flags)

/-- The first matcher with a match that is not empty, with the end of the match. -/
def firstMatch (text : Array Char) (place : Nat) : Lexer → Option (Datum × Nat)
  | [] => none
  | m :: ms =>
      match m.endAt text place with
      | some stop =>
          if place < stop ∧ stop ≤ text.size then some (m.name, stop)
          else firstMatch text place ms
      | none => firstMatch text place ms

/-- The next token, and the place after it. -/
def next (lexer : Lexer) (text : Array Char) (place : LineCounter) :
    Except Failure (KindedToken × LineCounter) := do
  let place := Predictive.Lexer.skipBlanks text place
  match firstMatch text place.position lexer with
  | some (name, stop) =>
      let cs := Predictive.Lexer.piece text place.position stop
      let value := if ← isTerminal name then Symbol.terminal (String.ofList cs)
        else String.ofList cs
      .ok ((name, Predictive.Lexer.tokenAt name.display value place), place.feed cs true)
  | none =>
      let (token, after) := Predictive.Lexer.tokenFrom [] text place
      .ok ((.text token.kind, token), after)

/-- The tokens from a place on; `fuel` bounds their number. -/
def scanFrom (lexer : Lexer) (text : Array Char) :
    Nat → LineCounter → Except Failure (List KindedToken)
  | 0, _ => .ok []
  | fuel + 1, place =>
      if Predictive.Lexer.isDone text place then .ok []
      else do
        let (token, after) ← next lexer text place
        let rest ← scanFrom lexer text fuel after
        .ok (token :: rest)

/-- The tokens of a text, the last of which is the end marker. -/
def tokens (lexer : Lexer) (text : String) : Except Failure (List KindedToken) :=
  let text := text.toList.toArray
  scanFrom lexer text (text.size + 1) .start

/-- The place that a scan reaches after a number of tokens. -/
def skip (lexer : Lexer) (text : Array Char) : Nat → LineCounter → Except Failure LineCounter
  | 0, place => .ok place
  | count + 1, place => do
      let (_, after) ← next lexer text place
      skip lexer text count after

end Lexer

end Predictive.Unchecked
