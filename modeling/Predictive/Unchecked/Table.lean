import Predictive.Table.Build
import Predictive.Unchecked.Analysis

/-!
# Tables of unchecked values

A table is used as it is found: a dictionary with a row for every nonterminal, which is a dictionary
with a number for every lookahead. A cell with the absent value has no entry.
-/

set_option autoImplicit false

namespace Predictive.Unchecked

namespace Table

/-- The cells of a checked table row, from entries of texts and integers. -/
def cells? : List (Datum × Datum) → Option (List (Symbol × Int))
  | [] => some []
  | (.text t, .int n) :: rest => (cells? rest).map ((t, n) :: ·)
  | _ :: _ => none

/-- The rows of a checked table, from entries of texts and dictionaries. -/
def rows? : List (Datum × Datum) → Option (List (Symbol × List (Symbol × Int)))
  | [] => some []
  | (.text s, .dict row) :: rest => do
      let cells ← cells? row
      let rows ← rows? rest
      some ((s, cells) :: rows)
  | _ :: _ => none

/-- The table, if all its values are of the right kinds. -/
def checked? : Datum → Option ParseTable
  | .dict entries => (rows? entries).map ParseTable.ofRows
  | _ => none

/-- What a cell holds. -/
def cell? (table nonterminal lookahead : Datum) : Except Failure (Option Datum) := do
  let row := (← find? table nonterminal).getD (.dict [])
  match ← find? row lookahead with
  | some .null => .ok none
  | found => .ok found

/-- The lookaheads with an entry in the row of a nonterminal. -/
def expected (table nonterminal : Datum) : Except Failure (List Datum) := do
  match ((← find? table nonterminal).getD (.dict [])).items? with
  | some items => items.foldlM addSymbol []
  | none => .error .wrongType

/-- One row for every nonterminal: the nonterminal itself, and a cell for every column. -/
def grid (table : Datum) (columns : List Datum) (blank : Datum) :
    Except Failure (List (List Datum)) := do
  (← entries table).mapM fun r => do
    let cells ← columns.mapM fun c => do pure ((← find? r.2 c).getD blank)
    pure (r.1 :: cells)

/-- The rows, each as the pair of its nonterminal and its entries. -/
def pairs (table : Datum) : Except Failure Datum := do
  let rows ← (← entries table).mapM fun r => do
    let cells ← entriesOf r.2
    pure (Datum.list [r.1, .dict cells])
  .ok (.list rows)

/-! ## Building -/

/-- The description of the collision of a production with the number that a cell holds. -/
def collision (g : Grammar) (p lhs lookahead previous : Datum) : Except Failure String := do
  let before ← Grammar.lineOf (← g.findProduction previous)
  let line ← Grammar.lineOf p
  .ok ("Collision in " ++ lhs.display ++ " for " ++ lookahead.display ++ ": " ++ before ++ ", " ++
    line)

/-- Puts a production into the cells of a row. -/
def claimCells (g : Grammar) (strict : Bool) (p lhs number : Datum) :
    List Datum → List (Datum × Datum) → Log → Except Failure (List (Datum × Datum)) × Log
  | [], row, log => (.ok row, log)
  | t :: ts, row, log =>
      let claimed := OrderedMap.insertEntry t number row
      match OrderedMap.lookupEntry t row with
      | none => claimCells g strict p lhs number ts claimed log
      | some previous =>
          if previous == number then claimCells g strict p lhs number ts claimed log
          else
            match collision g p lhs t previous with
            | .error failure => (.error failure, log)
            | .ok text =>
                if strict then (.error (.grammar (.collision text)), log)
                else
                  claimCells g strict p lhs number ts claimed
                    (log ++ [⟨.warning, text ++ " (resolving as " ++ number.display ++ ")"⟩])

/-- Puts productions into the rows one by one, and gives what is told on the way. -/
def addProductions (g : Grammar) (strict : Bool) :
    List Datum → OrderedMap Datum (List (Datum × Datum)) → Log →
      StateM Memo (Except Failure (OrderedMap Datum (List (Datum × Datum))) × Log)
  | [], rows, log => return (.ok rows, log)
  | p :: ps, rows, log => do
      match ← (Analysis.predict g p).run, lhsOf p, numberOf p with
      | .ok found, .ok lhs, .ok number =>
          let row := (rows.get? lhs).getD []
          match claimCells g strict p lhs number (visible found) row log with
          | (.ok row, log) => addProductions g strict ps (rows.insert lhs row) log
          | (.error failure, log) => return (.error failure, log)
      | .error failure, _, _ => return (.error failure, log)
      | _, _, _ => return (.error .noAttribute, log)

/-- Builds the table of a grammar, and gives what is told about it: the collisions if they are asked
for, and the size of the table. -/
def build (g : Grammar) (strict showCollisions : Bool) :
    StateM Memo (Except Failure Datum × Log) := do
  match g.productionList with
  | .error failure => return (.error failure, [])
  | .ok productions =>
      let (result, log) ← addProductions g strict productions OrderedMap.empty []
      let told := if showCollisions then log else []
      match result with
      | .error failure => return (.error failure, told)
      | .ok rows =>
          let count := (rows.values.flatMap id).length
          return (.ok (.dict (rows.entries.map fun r => (r.1, .dict r.2))),
            told ++ Log.debug ("Built LL(1) table: " ++ Datum.natText rows.size ++
              " nonterminals, " ++ Datum.natText count ++ " entries"))

end Table

end Predictive.Unchecked
