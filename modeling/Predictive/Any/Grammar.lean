import Predictive.Archive

/-!
# Grammars of any values

A grammar is checked when all its values are of the right kinds, and unchecked otherwise. Both kinds
answer the same questions, in values; an unchecked one may fail to.
-/

set_option autoImplicit false

namespace Predictive

/-- A grammar of either kind. -/
inductive AnyGrammar where
  | checked (g : Grammar)
  | unchecked (g : Unchecked.Grammar)

/-- What a grammar of either kind can be given as. -/
inductive AnyInput where
  | given (input : GrammarInput)
  /-- An unchecked grammar that was read before. -/
  | unchecked (g : Unchecked.Grammar)

namespace AnyGrammar

/-- The input that is a finished grammar. -/
def asInput : AnyGrammar → AnyInput
  | .checked g => .given (.grammar g)
  | .unchecked g => .unchecked g

/-- The grammar that a value holds, with the warnings of the reading. -/
def ofDatum (d : Datum) : Except Failure (AnyGrammar × Log) := do
  let source ← Grammar.sourceOfDatum d
  match ← Lexicon.read source.lexicon with
  | .lexicon _ =>
      let g ← Grammar.ofDatum d
      .ok (.checked g, g.warnings)
  | .untyped entries =>
      let rules ← Grammar.rulesOfDatum source.rules
      let g := Unchecked.Grammar.ofRules rules entries source
      let warnings ← g.warnings
      .ok (.unchecked g, warnings)

/-- The grammar that an input gives; a grammar is none of the values that rules are read from. -/
def read : AnyInput → Except Failure AnyGrammar
  | .given (.value d) => do
      let (g, _) ← ofDatum d
      .ok g
  | .given input => do
      let g ← Grammar.read input
      .ok (.checked g)
  | .unchecked _ => .error (.grammar (.notLines "Grammar"))

/-- The grammar of an input, which is the grammar itself if the input is one; with the warnings of
a reading. -/
def obtain : AnyInput → Except Failure (AnyGrammar × Log)
  | .given (.value d) => ofDatum d
  | .given input => do
      let (g, log) ← Grammar.obtain input
      .ok (.checked g, log)
  | .unchecked g => .ok (.unchecked g, [])

/-! ## Archives -/

/-- The archive of a grammar. -/
def toArchive : AnyGrammar → Except Failure Datum
  | .checked g => Archive.ofGrammar g
  | .unchecked g => Archive.ofUnchecked g

/-- The grammar of values, checked if they are of the right kinds. -/
def ofUnchecked (g : Unchecked.Grammar) : AnyGrammar :=
  match g.checked? with
  | some g => .checked g
  | none => .unchecked g

/-- The grammar of an archive. -/
def ofArchive (d : Datum) : Except Failure AnyGrammar := do
  let g ← Archive.toUnchecked d
  .ok (ofUnchecked g)

/-- The grammar that is read from the archive of a grammar. -/
def reload (g : AnyGrammar) : Except Failure AnyGrammar := do
  let d ← g.toArchive
  ofArchive d

/-! ## Questions -/

/-- The productions in their order. -/
def productionList : AnyGrammar → Except Failure (List Datum)
  | .checked g => .ok (g.productionList.map Unchecked.Grammar.productionDatum)
  | .unchecked g => g.productionList

/-- The number of productions. -/
def size : AnyGrammar → Except Failure Nat
  | .checked g => .ok g.size
  | .unchecked g => g.size

/-- The grammar with its productions as quoted lines. -/
def describe : AnyGrammar → Except Failure String
  | .checked g => .ok g.describe
  | .unchecked g => g.describe

/-- The start symbol. -/
def start : AnyGrammar → Datum
  | .checked g => .text g.start
  | .unchecked g => g.start

/-- The terminals in the order of their first use. -/
def terminals : AnyGrammar → Except Failure (List Datum)
  | .checked g => .ok (g.terminals.map .text)
  | .unchecked g => g.terminals

/-- The left-hand sides in the order of their first rule. -/
def nonterminals : AnyGrammar → Except Failure (List Datum)
  | .checked g => .ok (g.nonterminals.map .text)
  | .unchecked g => g.nonterminals

/-- The names of lexical rules that are not terminals. -/
def lexicalVariables : AnyGrammar → Except Failure (List Datum)
  | .checked g => .ok (g.lexicalVariables.map .text)
  | .unchecked g => g.lexicalVariables

/-- The lexical rules that the tokens of the grammar come from. -/
def lexicalRules : AnyGrammar → Except Failure (List (Datum × Datum))
  | .checked g => .ok (g.lexicalRules.entries.map fun e => (.text e.1, .text e.2))
  | .unchecked g => g.lexicalRules >>= Unchecked.entries

/-- Whether the grammar comes with lexical rules. -/
def hasRules : AnyGrammar → Bool
  | .checked g => g.lexicon.entries?.isSome
  | .unchecked g => !(g.lexicon == .null)

/-- What a symbol is in the grammar. -/
def kindOf (s : Symbol) : AnyGrammar → Except Failure SymbolKind
  | .checked g => .ok (g.kindOf s)
  | .unchecked g => g.kindOf (.text s)

/-- Whether a symbol is a terminal or the name of a lexical rule. -/
def isToken (s : Symbol) : AnyGrammar → Except Failure Bool
  | .checked g => .ok (g.isToken s)
  | .unchecked g => g.isToken (.text s)

/-- The productions of a symbol. -/
def productionsFor (s : Symbol) : AnyGrammar → Except Failure (List Datum)
  | .checked g => .ok ((g.productionsFor s).map Unchecked.Grammar.productionDatum)
  | .unchecked g => g.productionsFor (.text s)

/-- The productions that use a symbol on their right-hand side. -/
def productionsWith (s : Symbol) : AnyGrammar → Except Failure (List Datum)
  | .checked g => .ok ((g.productionsWith s).map Unchecked.Grammar.productionDatum)
  | .unchecked g => g.productionsWith (.text s)

/-- The production with a number, or the fault that there is none. -/
def findProduction (number : Datum) : AnyGrammar → Except Failure Datum
  | .checked g => (g.findProduction number).map Unchecked.Grammar.productionDatum
  | .unchecked g => g.findProduction number

end AnyGrammar

end Predictive
