import Predictive.Failure
import Predictive.Grammar.LexicalLine

/-!
# The lexical rules of a grammar

A grammar comes with lexical rules or without; without, every terminal matches itself. Rules are
declared as lines, as a dictionary or as a list of pairs. `Lexicon.read` reads them from a value;
entries of which a pattern or a name is not a text are no lexicon, and are left as they are given.
-/

set_option autoImplicit false

namespace Predictive

/-- The lexical rules that a grammar comes with. -/
inductive Lexicon where
  /-- None: every terminal matches itself. -/
  | inferred
  /-- The name of every pattern, in the order of declaration. -/
  | declared (rules : OrderedMap String Symbol)
deriving Repr

/-- Lexical rules as a value gives them. -/
inductive GivenRules where
  | lexicon (l : Lexicon)
  /-- Rules of which some pattern or name is not a text. -/
  | untyped (entries : List (Datum × Datum))
deriving Repr

namespace Lexicon

/-- The text rules of entries, if all patterns and names are texts. -/
def textRules? : List (Datum × Datum) → Option (List (String × Symbol))
  | [] => some []
  | (pattern, name) :: entries => do
      let p ← pattern.text?
      let n ← name.text?
      let rest ← textRules? entries
      some ((p, n) :: rest)

/-- The lexicon with these entries, of which no two have equal patterns; none if some pattern or
name is not a text. -/
def ofEntries? (entries : List (Datum × Datum)) : Option Lexicon :=
  (textRules? entries).map fun rules => .declared (OrderedMap.ofList rules)

/-- The entries of a lexicon as values; `none` without rules. -/
def entries? : Lexicon → Option (List (Datum × Datum))
  | .inferred => none
  | .declared rules => some (rules.entries.map fun e => (.text e.1, .text e.2))

/-- The value of rules that may be absent. -/
def rulesDatum : Option (List (Datum × Datum)) → Datum
  | none => .null
  | some entries => .dict entries

/-- The lexicon as one value. -/
def toDatum (l : Lexicon) : Datum := rulesDatum l.entries?

/-- The lexicon that one value is. -/
def ofValue? : Datum → Option Lexicon
  | .null => some .inferred
  | .dict entries => ofEntries? entries
  | _ => none

/-! ## Reading -/

/-- The rules with these entries, of which no two have equal patterns. -/
def rulesOf (entries : List (Datum × Datum)) : GivenRules :=
  match ofEntries? entries with
  | some l => .lexicon l
  | none => .untyped entries

/-- Both parts of a value that has two. -/
def pair? (d : Datum) : Option (Datum × Datum) :=
  match d.items? with
  | some [pattern, name] => if pattern.isKey then some (pattern, name) else none
  | _ => none

/-- The entries of a list of pairs; a pattern that comes again gives its entry a new name. -/
def pairs? (entries : List (Datum × Datum)) : List Datum → Option (List (Datum × Datum))
  | [] => some entries
  | d :: ds => do
      let (pattern, name) ← pair? d
      pairs? (OrderedMap.insertEntry pattern name entries) ds

/-- The rules that lines describe. -/
def ofLines (lines : List (List Char)) : Except Failure GivenRules :=
  match readLexicalRules lines with
  | .ok rules => .ok (.lexicon (.declared rules))
  | .error fault => .error (.grammar fault)

/-- The rules that a value gives. An open file gives none: its lines are gone once it is known that
they are lines. -/
def read (d : Datum) : Except Failure GivenRules :=
  match d with
  | .null => .ok (.lexicon .inferred)
  | .dict entries => .ok (rulesOf entries)
  | .text s => ofLines (Text.lines s.toList)
  | .file _ => ofLines []
  | .grammar _ _ => .error (.grammar (.notLexicalRules d))
  | d =>
      match d.items? with
      | none => .error .wrongType
      | some items =>
          match Datum.texts? items with
          | some lines => ofLines (lines.map String.toList)
          | none =>
              match pairs? [] items with
              | some entries => .ok (rulesOf entries)
              | none => .error (.grammar (.notLexicalRules d))

/-- The lexicon that a value gives. -/
def ofDatum (d : Datum) : Except Failure Lexicon := do
  match ← read d with
  | .lexicon l => .ok l
  | .untyped _ => .error .wrongType

end Lexicon

namespace GivenRules

/-- The entries of rules as values; `none` without rules. -/
def entries? : GivenRules → Option (List (Datum × Datum))
  | .lexicon l => l.entries?
  | .untyped entries => some entries

end GivenRules

end Predictive
