import Predictive.Datum

/-!
# Faults of a grammar

What can be wrong with a grammar, its lexical rules or its table, and the message for each.
-/

set_option autoImplicit false

namespace Predictive

/-- What is wrong with a grammar. -/
inductive GrammarFault where
  /-- The grammar is neither a text nor a list of lines. -/
  | notLines (typeName : String)
  /-- A line is neither a rule nor an alternative. -/
  | badLine (number : Nat) (line : String)
  /-- An alternative stands before every rule. -/
  | strayAlternative (number : Nat) (line : String)
  /-- There is no production. -/
  | noProductions
  /-- The dictionary that should hold the grammar has none. -/
  | noRules
  /-- A line is not a lexical rule. -/
  | badLexicalLine (number : Nat) (line : String)
  /-- The value does not give lexical rules. -/
  | notLexicalRules (value : Datum)
  /-- No production has this number. -/
  | noSuchProduction (number : Datum)
  /-- Two productions claim one cell of the table. -/
  | collision (description : String)
  /-- The pattern of a lexical rule cannot be read. -/
  | badPattern (pattern : String) (reason : String)
deriving Repr, Inhabited

namespace GrammarFault

/-- The message for a fault. -/
def message : GrammarFault → String
  | .notLines typeName =>
      "Expected the grammar as a string or a list of lines, got " ++ Text.quote typeName
  | .badLine number line =>
      "Invalid production at line " ++ Datum.natText number ++
        " (expected \x60A -> ...\x60 or \x60| ...\x60): " ++ Text.quote line
  | .strayAlternative number line =>
      "Alternative at line " ++ Datum.natText number ++ " doesn't follow any production: " ++
        Text.quote line
  | .noProductions => "Grammar is empty"
  | .noRules => "A grammar given as a dict must have a 'bnf' entry"
  | .badLexicalLine number line =>
      "Invalid lexical rule at line " ++ Datum.natText number ++
        " (expected \x60<pattern> : <token>\x60): " ++ Text.quote line
  | .notLexicalRules value =>
      "Expected the lexical rules as a string, a dict or a list of pairs, got " ++ value.render
  | .noSuchProduction number => "No production numbered " ++ number.render
  | .collision description => description ++ " (the grammar isn't LL(1))"
  | .badPattern pattern reason =>
      "Cannot compile lexical rule " ++ Text.quote pattern ++ ": " ++ reason

end GrammarFault

end Predictive
