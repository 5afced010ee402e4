import Predictive.Grammar.Basic
import Predictive.Log

/-!
# Reading grammars

A grammar is read from a text, a list of lines, or a dictionary that holds either under `bnf` and
lexical rules under `lex`; a file stands for its text. The lexical rules are read before the rules.
Every used symbol that stands for nothing gives a warning.
-/

set_option autoImplicit false

namespace Predictive

/-- What a grammar can be given as. -/
inductive GrammarInput where
  | value (d : Datum)
  /-- A file with this text. -/
  | file (text : String)
  /-- A grammar that was read before. -/
  | grammar (g : Grammar)

namespace Grammar

/-- The lines of a value that holds rules. -/
def ruleLines (d : Datum) : Except Failure (List (List Char)) :=
  match d with
  | .text s => .ok (Text.lines s.toList)
  | .list items | .tuple items =>
      match Datum.texts? items with
      | some lines => .ok (lines.map String.toList)
      | none => .error .noAttribute
  | d => .error (.grammar (.notLines d.typeName))

/-- The rules that a value holds. -/
def rulesOfDatum (d : Datum) : Except Failure (List Rule) := do
  let lines ← ruleLines d
  match readRules lines with
  | .ok rules => .ok rules
  | .error fault => .error (.grammar fault)

/-- The values that hold the rules and the lexical rules. -/
def sourceOfDatum (d : Datum) : Except Failure Source :=
  match d with
  | .dict _ =>
      match d.field? "bnf" with
      | some rules => .ok ⟨rules, (d.field? "lex").getD .null⟩
      | none => .error (.grammar .noRules)
  | d => .ok ⟨d, .null⟩

/-- The warning about a symbol that stands for nothing. -/
def undefinedWarning (s : Symbol) : LogEntry :=
  ⟨.warning, "Symbol " ++ s ++ " is used but has no productions and no lexical rule"⟩

/-- The warnings about the symbols that stand for nothing. -/
def warnings (g : Grammar) : Log :=
  g.undefinedSymbols.map undefinedWarning

/-- The grammar that a value holds. -/
def ofDatum (d : Datum) : Except Failure Grammar := do
  let source ← sourceOfDatum d
  let lexicon ← Lexicon.ofDatum source.lexicon
  let rules ← rulesOfDatum source.rules
  .ok (ofRules rules lexicon source)

/-- The grammar that an input gives; a grammar is none of the values that rules are read from. -/
def read : GrammarInput → Except Failure Grammar
  | .value d => ofDatum d
  | .file text => ofDatum (.text text)
  | .grammar _ => .error (.grammar (.notLines "Grammar"))

/-- The grammar of an input, which is the grammar itself if the input is one; with the warnings of
a reading. -/
def obtain : GrammarInput → Except Failure (Grammar × Log)
  | .grammar g => .ok (g, [])
  | input => do
      let g ← read input
      .ok (g, g.warnings)

end Grammar

end Predictive
