import Predictive.Drawing
import Predictive.Engine.Basic

/-!
# Reports

What is told about an engine on paper: its grammar, its sets, its table, and how texts fare with it.
-/

set_option autoImplicit false

namespace Predictive.Report

/-- The numbered line of a production. -/
def productionLine (p : Production) : String :=
  "  " ++ Datum.intText p.number ++ ". " ++ p.render ++ "\n"

/-- The report of a grammar. -/
def grammar (g : Grammar) : String :=
  "\nGrammar:\n\n" ++ String.join (g.productionList.map productionLine) ++ "\n"

/-- A drawn table; a row that is too short cannot be drawn. -/
def drawn (head : List String) (rows : List (List String)) : Except Failure String :=
  match Drawing.draw head rows with
  | some s => .ok s
  | none => .error .outOfRange

/-- The row of the members of a set under its label. -/
def setRow (entry : String × List String) : List String :=
  [entry.1, Datum.joinWith ", " entry.2]

/-- The report of the members of sets under two headers. -/
def members (entries : List (String × List String)) (labelHeader setHeader : String) :
    Except Failure String := do
  let table ← drawn [labelHeader, setHeader] (entries.map setRow)
  .ok ("\n" ++ setHeader ++ ":\n\n" ++ table ++ "\n\n")

/-- The report of sets under two headers. -/
def sets (entries : List (String × SymbolSet)) (labelHeader setHeader : String) :
    Except Failure String :=
  members (entries.map fun e => (e.1, e.2.toList)) labelHeader setHeader

/-- The report of a table with these columns and rows. -/
def rows (columns : List String) (grid : List (List Datum)) : Except Failure String := do
  let table ← drawn ("" :: columns) (grid.map fun row => row.map Datum.display)
  .ok ("Parsing table:\n\n" ++ table ++ "\n\n")

/-- The report of the table of an engine. -/
def table (e : Engine) : Except Failure String :=
  let columns := Engine.columnsOf e.grammar
  rows columns (e.table.grid columns ParseTable.blankCell)

/-- How a text fared: what is written about it, and whether it was accepted. -/
structure Verdict where
  report : String
  accepted : Bool

/-- The verdict on a rejected text. -/
def rejected (r : Rejection) (text : String) : Verdict :=
  ⟨r.message ++ "\n" ++ (r.context text Rejection.defaultSpan).getD "", false⟩

/-- The verdict on a text of which the numbers of the productions are known, or the failure. -/
def judged (text : String) (result : Except Failure (List String)) : Except Failure Verdict :=
  let opening := "Parsing: \"" ++ text ++ "\"\n\n"
  let told (r : Rejection) : Except Failure Verdict :=
    let v := rejected r text
    .ok { v with report := opening ++ v.report }
  match result with
  | .ok numbers =>
      .ok ⟨opening ++ "Accepted. Productions: " ++ Datum.joinWith ", " numbers ++ "\n\n", true⟩
  | .error (.rejected r) => told r
  | .error (.oddlyRejected r _ _) => told r
  | .error .untold => .error .wrongType
  | .error failure => .error failure

/-- The verdict on a text, with what is logged on the way. -/
def verdict (e : Engine) (text : String) : Except Failure Verdict × Log :=
  let (result, log) := e.run text
  (judged text (result.map fun numbers => numbers.map Datum.intText), log)

end Predictive.Report
