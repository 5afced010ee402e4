import Predictive.Table.Build

/-!
# Tables that are kept

An analysis that builds tables keeps the table that it has built last, beside the sets that it has
found. A build that fails keeps none, but what it has found of the sets stays.
-/

set_option autoImplicit false

namespace Predictive

/-- The sets that an analysis has found, and the table that it has built last. -/
structure TableAnalysis where
  memo : Memo
  kept : Option ParseTable

namespace TableAnalysis

/-- The analysis before every question. -/
def empty : TableAnalysis := ⟨.empty, none⟩

/-- Answers a question about the sets, and gives the analysis for the next one. -/
def ask (g : Grammar) (q : Query) (a : TableAnalysis) :
    Except GrammarFault Answer × TableAnalysis :=
  let (answer, m) := q.run g a.memo
  (answer, { a with memo := m })

/-- Builds the table, and keeps it: the table, what is told about it, and the analysis afterwards. -/
def build (g : Grammar) (strict showCollisions : Bool) (a : TableAnalysis) :
    Except GrammarFault ParseTable × Log × TableAnalysis :=
  let b := ParseTable.build g strict a.memo
  (b.result g, b.log g showCollisions, ⟨b.memo, (b.result g).toOption.or a.kept⟩)

/-- The table that is kept; it is built if there is none. -/
def table (g : Grammar) (strict showCollisions : Bool) (a : TableAnalysis) :
    Except GrammarFault ParseTable × Log × TableAnalysis :=
  match a.kept with
  | some t => (.ok t, [], a)
  | none => a.build g strict showCollisions

end TableAnalysis

end Predictive
