import Predictive.Grammar.Basic
import Predictive.SymbolSet

/-!
# Parsing tables

A parsing table gives a nonterminal and a lookahead token the number of the production to expand.
It has one row for every nonterminal, with a cell for every lookahead that has an entry.
-/

set_option autoImplicit false

namespace Predictive

/-- The cells of one nonterminal: the number under every lookahead. -/
abbrev TableRow := OrderedMap Symbol Int

/-- A parsing table: the row of every nonterminal. -/
structure ParseTable where
  rows : OrderedMap Symbol TableRow
deriving Repr, Inhabited

namespace ParseTable

/-- The table with these rows. -/
def ofRows (rows : List (Symbol × List (Symbol × Int))) : ParseTable :=
  ⟨OrderedMap.ofList (rows.map fun r => (r.1, OrderedMap.ofList r.2))⟩

/-- The row of a nonterminal; without entries if it has none. -/
def row (t : ParseTable) (nonterminal : Symbol) : TableRow :=
  (t.rows.get? nonterminal).getD OrderedMap.empty

/-- The number in a cell. -/
def cell? (t : ParseTable) (nonterminal lookahead : Symbol) : Option Int :=
  (t.row nonterminal).get? lookahead

/-- The lookaheads with an entry in the row of a nonterminal. -/
def expected (t : ParseTable) (nonterminal : Symbol) : SymbolSet :=
  SymbolSet.ofList (t.row nonterminal).keys

/-- The number of entries. -/
def entryCount (t : ParseTable) : Nat :=
  (t.rows.values.flatMap OrderedMap.entries).length

/-- One row for every nonterminal: the nonterminal itself, and a cell for every column. A cell
without an entry holds `blank`. -/
def grid (t : ParseTable) (columns : List Symbol) (blank : Datum) : List (List Datum) :=
  t.rows.entries.map fun r =>
    .text r.1 :: columns.map fun c => ((r.2.get? c).map Datum.int).getD blank

/-- What stands in a cell without an entry when nothing else is asked for. -/
def blankCell : Datum := .text "-"

/-- Whether two tables have the same rows with the same entries, in any order. -/
def same (s t : ParseTable) : Bool :=
  s.rows.size == t.rows.size && s.rows.entries.all fun r =>
    match t.rows.get? r.1 with
    | some row => r.2.sameEntries row
    | none => false

/-- The rows as a value. -/
def toDatum (t : ParseTable) : Datum :=
  .ofFields (t.rows.entries.map fun r =>
    (r.1, .ofFields (r.2.entries.map fun c => (c.1, .int c.2))))

/-- The table with its rows written out. -/
def describe (t : ParseTable) : String :=
  "ParseTable(" ++ t.toDatum.render ++ ")"

end ParseTable

end Predictive
