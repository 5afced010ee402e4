import Predictive.Analysis.Predict
import Predictive.Log
import Predictive.Table.Basic

/-!
# Building the table

Every production goes into the row of its left-hand side, under each token of its Predict set. Where
two productions claim one cell the later one gets it, and the claim is a collision; a strict build
stops at the first one.
-/

set_option autoImplicit false

namespace Predictive

/-- Two productions that claim one cell. -/
structure Collision where
  nonterminal : Symbol
  lookahead : Symbol
  /-- The number that the cell held. -/
  previous : Int
  /-- The production that gets the cell. -/
  claimant : Production
deriving Repr, DecidableEq

namespace Collision

/-- The cell and the two productions. -/
def describe (g : Grammar) (c : Collision) : String :=
  "Collision in " ++ c.nonterminal ++ " for " ++ c.lookahead ++ ": " ++
    ((g.production? c.previous).map Production.render).getD "" ++ ", " ++ c.claimant.render

/-- The warning about a collision that the later production wins. -/
def warning (g : Grammar) (c : Collision) : LogEntry :=
  ⟨.warning,
    c.describe g ++ " (resolving as " ++ Datum.intText c.claimant.number ++ ")"⟩

end Collision

namespace ParseTable

/-- A build under way: the rows so far, the collisions so far from first to last, and the memo of
the analysis. -/
structure Build where
  rows : OrderedMap Symbol TableRow
  collisions : List Collision
  memo : Memo
  /-- The collision at which a strict build stopped. -/
  stopped : Option Collision

/-- Claims the cells of one row for a production, lookahead by lookahead. -/
def claimCells (strict : Bool) (p : Production) :
    List Symbol → TableRow → List Collision → TableRow × List Collision × Option Collision
  | [], row, collisions => (row, collisions, none)
  | t :: ts, row, collisions =>
      match row.get? t with
      | none => claimCells strict p ts (row.insert t p.number) collisions
      | some n =>
          if n = p.number then claimCells strict p ts (row.insert t p.number) collisions
          else
            let c : Collision := ⟨p.lhs, t, n, p⟩
            if strict then (row, collisions, some c)
            else claimCells strict p ts (row.insert t p.number) (collisions ++ [c])

/-- Puts the productions into the table one by one. -/
def addProductions (g : Grammar) (strict : Bool) : List Production → Build → Build
  | [], b => b
  | p :: ps, b =>
      let row := (b.rows.get? p.lhs).getD OrderedMap.empty
      let rows := b.rows.insert p.lhs row
      let (predicted, memo) := Analysis.predict g p b.memo
      match claimCells strict p (predicted.erase Symbol.empty).toList row b.collisions with
      | (row, collisions, none) =>
          addProductions g strict ps ⟨rows.insert p.lhs row, collisions, memo, none⟩
      | (row, collisions, some c) => ⟨rows.insert p.lhs row, collisions, memo, some c⟩

/-- Builds the table of a grammar from a memo. -/
def build (g : Grammar) (strict : Bool) (m : Memo) : Build :=
  addProductions g strict g.productionList ⟨OrderedMap.empty, [], m, none⟩

namespace Build

/-- The table, or the fault of the collision at which the build stopped. -/
def result (g : Grammar) (b : Build) : Except GrammarFault ParseTable :=
  match b.stopped with
  | some c => .error (.collision (c.describe g))
  | none => .ok ⟨b.rows⟩

/-- The detail about a finished table. -/
def summary (t : ParseTable) : LogEntry :=
  ⟨.debug, "Built LL(1) table: " ++ Datum.natText t.rows.size ++ " nonterminals, " ++
    Datum.natText t.entryCount ++ " entries"⟩

/-- What the build tells: the collisions, if they are asked for, and the size of the table. -/
def log (g : Grammar) (showCollisions : Bool) (b : Build) : Log :=
  (if showCollisions then b.collisions.map (·.warning g) else []) ++
    (match b.stopped with
      | some _ => []
      | none => [summary ⟨b.rows⟩])

end Build

end ParseTable

end Predictive
