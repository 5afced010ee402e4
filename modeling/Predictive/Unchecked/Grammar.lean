import Predictive.Grammar.Reading
import Predictive.Unchecked.Value

/-!
# Unchecked grammars

A grammar of which any part may be a value of another kind than it should be. It answers the same
questions as a grammar, as far as its values allow: `checked?` gives the grammar if all of them are
of the right kind.
-/

set_option autoImplicit false

namespace Predictive.Unchecked

/-- A grammar whose parts are values. -/
structure Grammar where
  /-- The productions by number. -/
  productions : Datum
  start : Datum
  /-- The lexical rules; the absent value stands for none. -/
  lexicon : Datum
  source : Source
deriving Repr

namespace Grammar

/-! ## Checked and unchecked grammars -/

/-- The value of a production. -/
def productionDatum (p : Production) : Datum :=
  .production (.int p.number) (.text p.lhs) (p.rhs.map .text)

/-- The value of numbered productions. -/
def productionsDatum (productions : OrderedMap Int Production) : Datum :=
  .dict (productions.entries.map fun e => (.int e.1, productionDatum e.2))

/-- The values of a grammar. -/
def ofChecked (g : Predictive.Grammar) : Grammar :=
  ⟨productionsDatum g.productions, .text g.start, g.lexicon.toDatum, g.source⟩

/-- The production that a value is, with parts of the right kinds. -/
def production? : Datum → Option Production
  | .production (.int n) (.text lhs) rhs => (Datum.texts? rhs).map fun rhs => ⟨n, lhs, rhs⟩
  | _ => none

/-- The numbered productions of entries with numbers and productions. -/
def numbered? : List (Datum × Datum) → Option (List (Int × Production))
  | [] => some []
  | (.int n, d) :: entries => do
      let p ← production? d
      let rest ← numbered? entries
      some ((n, p) :: rest)
  | _ :: _ => none

/-- The grammar, if all its values are of the right kinds. -/
def checked? (g : Grammar) : Option Predictive.Grammar :=
  match g.productions, g.start with
  | .dict entries, .text start => do
      let productions ← numbered? entries
      let lexicon ← Lexicon.ofValue? g.lexicon
      some ⟨OrderedMap.ofList productions, start, lexicon, g.source⟩
  | _, _ => none

/-- The grammar of rules, with lexical rules of which some pattern or name is not a text. -/
def ofRules (rules : List Rule) (entries : List (Datum × Datum)) (source : Source) : Grammar :=
  { ofChecked (.ofRules rules .inferred source) with lexicon := .dict entries }

/-! ## Productions and symbols -/

/-- The productions in their order. -/
def productionList (g : Grammar) : Except Failure (List Datum) := values g.productions

/-- The number of productions. -/
def size (g : Grammar) : Except Failure Nat := length g.productions

/-- The production with a number, or the fault that there is none. -/
def findProduction (g : Grammar) (number : Datum) : Except Failure Datum :=
  match item g.productions number with
  | .error (.missingKey _) => .error (.grammar (.noSuchProduction number))
  | r => r

/-- The terminals in the order of their first use. -/
def terminals (g : Grammar) : Except Failure (List Datum) := do
  let productions ← g.productionList
  productions.foldlM
    (fun found p => do
      (← rhsOf p).foldlM
        (fun found s => do if ← isTerminal s then addSymbol found s else pure found) found)
    []

/-- The left-hand sides in the order of their first rule. -/
def nonterminals (g : Grammar) : Except Failure (List Datum) := do
  (← g.productionList).foldlM (fun found p => do addSymbol found (← lhsOf p)) []

/-- The productions of a symbol. -/
def productionsFor (g : Grammar) (s : Datum) : Except Failure (List Datum) := do
  let keyed ← (← g.productionList).mapM fun p => do pure (← lhsOf p, p)
  if s.isKey then .ok ((keyed.filter fun e => e.1 == s).map (·.2)) else .error .wrongType

/-- The productions that use a symbol on their right-hand side. -/
def productionsWith (g : Grammar) (s : Datum) : Except Failure (List Datum) := do
  let keyed ← (← g.productionList).mapM fun p => do pure (← rhsOf p, p)
  if s.isKey then .ok ((keyed.filter fun e => e.1.contains s).map (·.2)) else .error .wrongType

/-! ## Tokens -/

/-- The lexical rules that the tokens of the grammar come from. -/
def lexicalRules (g : Grammar) : Except Failure Datum :=
  match g.lexicon with
  | .null => do
      let terminals ← g.terminals
      .ok (.dict (terminals.map fun t => (t, t)))
  | d => .ok d

/-- The names of lexical rules that are not terminals. -/
def lexicalVariables (g : Grammar) : Except Failure (List Datum) := do
  (← values (← g.lexicalRules)).foldlM
    (fun found name => do if ← isTerminal name then pure found else addSymbol found name) []

/-- Whether a symbol is a terminal or the name of a lexical rule. -/
def isToken (g : Grammar) (s : Datum) : Except Failure Bool := do
  let names ← g.lexicalVariables
  if ← isTerminal s then .ok true
  else if s.isKey then .ok (names.contains s)
  else .error .wrongType

/-- What a symbol is in the grammar. -/
def kindOf (g : Grammar) (s : Datum) : Except Failure SymbolKind := do
  if s == empty then .ok .empty
  else if s == endMarker then .ok .endMarker
  else if ← isTerminal s then .ok .terminal
  else if ← g.isToken s then .ok .lexicalVariable
  else .ok .nonterminal

/-- The warnings about the used symbols that stand for nothing. -/
def warnings (g : Grammar) : Except Failure Log := do
  let productions ← g.productionList
  let used ← productions.foldlM (fun found p => do (← rhsOf p).foldlM addSymbol found) []
  let undefined ← used.filterM fun s => do
    if (← g.kindOf s) = .nonterminal then pure (← g.productionsFor s).isEmpty else pure false
  .ok (undefined.map fun s => Predictive.Grammar.undefinedWarning s.display)

/-! ## Written forms -/

/-- The line of a production; a value of another kind in its usual form. -/
def lineOf : Datum → Except Failure String
  | .production _ lhs rhs => do
      let symbols ← joined " " rhs
      .ok (lhs.display ++ " -> " ++ symbols)
  | d => .ok d.display

/-- The grammar with its productions as quoted lines. -/
def describe (g : Grammar) : Except Failure String := do
  let lines ← (← g.productionList).mapM lineOf
  .ok ("Grammar(" ++ (Datum.list (lines.map .text)).render ++ ")")

end Grammar

end Predictive.Unchecked
