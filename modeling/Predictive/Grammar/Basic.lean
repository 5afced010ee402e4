import Predictive.Grammar.Lexicon
import Predictive.Grouping

/-!
# Grammars

A grammar is a list of productions with a start symbol and lexical rules. The productions are found
by their numbers, by their left-hand sides (`productionsFor`) and by the symbols that they use
(`productionsWith`). A symbol is a token of the grammar when it is a terminal or the name of a
lexical rule; `kindOf` tells what a symbol is.
-/

set_option autoImplicit false

namespace Predictive

/-- The values that a grammar was read from. -/
structure Source where
  rules : Datum
  lexicon : Datum
deriving Repr

/-- A grammar with its lexical rules. -/
structure Grammar where
  /-- The productions by number. -/
  productions : OrderedMap Int Production
  start : Symbol
  lexicon : Lexicon
  source : Source
deriving Repr

namespace Grammar

/-! ## Building -/

/-- The productions that rules make, numbered from `first`. -/
def number (first : Nat) : List Rule → List (Int × Production)
  | [] => []
  | r :: rs => ((first : Int), Production.of first r.lhs r.rhs) :: number (first + 1) rs

/-- The grammar of the rules, numbered from one; the first left-hand side is the start symbol. -/
def ofRules (rules : List Rule) (lexicon : Lexicon) (source : Source) : Grammar :=
  { productions := OrderedMap.ofList (number 1 rules)
    start := (rules.head?.map (·.lhs)).getD ""
    lexicon := lexicon
    source := source }

/-! ## Productions and symbols -/

/-- The productions in their order. -/
def productionList (g : Grammar) : List Production := g.productions.values

/-- The number of productions. -/
def size (g : Grammar) : Nat := g.productions.size

/-- The production with a number. -/
def production? (g : Grammar) (n : Int) : Option Production := g.productions.get? n

/-- The productions under their left-hand sides. -/
def byLhs (g : Grammar) : OrderedMap Symbol (List Production) :=
  groupBy (·.lhs) id g.productionList

/-- The productions under the symbols that they use, each once under a symbol. -/
def byRhs (g : Grammar) : OrderedMap Symbol (List Production) :=
  g.productionList.foldl
    (fun groups p => (distinct p.rhs).foldl (fun groups s => groups.append s p) groups)
    OrderedMap.empty

/-- The productions of a symbol. -/
def productionsFor (g : Grammar) (s : Symbol) : List Production :=
  (g.byLhs.get? s).getD []

/-- The productions that use a symbol on their right-hand side. -/
def productionsWith (g : Grammar) (s : Symbol) : List Production :=
  (g.byRhs.get? s).getD []

/-- The terminals in the order of their first use. -/
def terminals (g : Grammar) : List Symbol :=
  distinct (g.productionList.flatMap fun p => p.rhs.filter Symbol.isTerminal)

/-- The left-hand sides in the order of their first rule. -/
def nonterminals (g : Grammar) : List Symbol :=
  distinct (g.productionList.map (·.lhs))

/-! ## Tokens -/

/-- The lexical rules that the tokens of the grammar come from: the name of every pattern. -/
def lexicalRules (g : Grammar) : OrderedMap String Symbol :=
  match g.lexicon with
  | .inferred => OrderedMap.ofList (g.terminals.map fun t => (t, t))
  | .declared rules => rules

/-- The names of lexical rules that are not terminals. -/
def lexicalVariables (g : Grammar) : List Symbol :=
  distinct (g.lexicalRules.values.filter fun name => !Symbol.isTerminal name)

/-- Whether a symbol is a terminal or the name of a lexical rule. -/
def isToken (g : Grammar) (s : Symbol) : Bool :=
  Symbol.isTerminal s ||
    match g.lexicon with
    | .inferred => false
    | .declared rules => rules.values.contains s

/-- What a symbol is in the grammar. -/
def kindOf (g : Grammar) (s : Symbol) : SymbolKind :=
  if s = Symbol.empty then .empty
  else if s = Symbol.endMarker then .endMarker
  else if Symbol.isTerminal s then .terminal
  else if g.isToken s then .lexicalVariable
  else .nonterminal

/-- The symbols that some right-hand side uses, in the order of their first use. -/
def usedSymbols (g : Grammar) : List Symbol :=
  distinct (g.productionList.flatMap (·.rhs))

/-- The used symbols that stand for nothing: nonterminals without productions. -/
def undefinedSymbols (g : Grammar) : List Symbol :=
  g.usedSymbols.filter fun s =>
    g.kindOf s == .nonterminal && !g.byLhs.contains s

/-! ## Written forms -/

/-- The grammar with its productions as quoted lines. -/
def describe (g : Grammar) : String :=
  "Grammar(" ++ (Datum.list (g.productionList.map fun p => .text p.render)).render ++ ")"

/-- The production with a number, or the fault that there is none. -/
def getProduction (g : Grammar) (n : Int) : Except GrammarFault Production :=
  match g.production? n with
  | some p => .ok p
  | none => .error (.noSuchProduction (.int n))

/-- The production whose number equals an untyped value; a value that cannot be a key is of the
wrong type. -/
def findProduction (g : Grammar) (key : Datum) : Except Failure Production :=
  if key.isKey then
    match key.whole?.bind g.production? with
    | some p => .ok p
    | none => .error (.grammar (.noSuchProduction key))
  else .error .wrongType

end Grammar

end Predictive
