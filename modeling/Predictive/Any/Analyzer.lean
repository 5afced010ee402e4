import Predictive.Any.Grammar
import Predictive.Table.Kept

/-!
# Analyzers

An analyzer is a grammar of either kind with the memo of its analysis. It answers questions about
sets and builds tables, and its answers are values: a set is the list of its members in their order,
and sets are a list of pairs.
-/

set_option autoImplicit false

namespace Predictive

/-- The answer to a question as a value. -/
def Answer.toDatum : Answer → Datum
  | .set s => .list (s.toList.map .text)
  | .sets entries => .list (entries.map fun e => .list [.text e.1, .list (e.2.toList.map .text)])

namespace Unchecked

/-- The members of a set as a value; members without an order cannot be told. -/
def membersDatum (members : List Datum) : Except Failure Datum :=
  match ordered members with
  | .ok members => .ok (.list members)
  | .error _ => .error .untold

/-- Sets under their labels as a value. -/
def setsDatum (sets : List (Datum × List Datum)) : Except Failure Datum := do
  let shown ← sets.mapM fun e => do
    let members ← membersDatum e.2
    pure (Datum.list [e.1, members])
  .ok (.list shown)

/-- The answer to a question as a value. -/
def Answer.toDatum : Answer → Except Failure Datum
  | .set members => membersDatum members
  | .sets entries => setsDatum entries

end Unchecked

/-- A grammar of either kind with its analysis. -/
inductive Analyzer where
  | checked (g : Grammar) (a : TableAnalysis)
  | unchecked (g : Unchecked.Grammar) (m : Unchecked.Memo) (kept : Option Datum)

namespace Analyzer

/-- The analyzer of a grammar before every question. -/
def ofGrammar : AnyGrammar → Analyzer
  | .checked g => .checked g .empty
  | .unchecked g => .unchecked g .empty none

/-- Answers a question, and gives the analyzer for the next one. -/
def ask (q : Query) : Analyzer → Except Failure Datum × Analyzer
  | .checked g a =>
      let (answer, a) := a.ask g q
      (match answer with
        | .ok found => .ok found.toDatum
        | .error fault => .error (.grammar fault), .checked g a)
  | .unchecked g m kept =>
      let (answer, m) := (Unchecked.answer g q).run.run m
      (answer >>= Unchecked.Answer.toDatum, .unchecked g m kept)

/-- The First sets found so far, under their symbols. -/
def firstMemo : Analyzer → Except Failure Datum
  | .checked _ a => .ok (Answer.sets a.memo.first.entries).toDatum
  | .unchecked _ m _ => Unchecked.setsDatum m.first.entries

/-- The Follow sets found so far, under their symbols. -/
def followMemo : Analyzer → Except Failure Datum
  | .checked _ a => .ok (Answer.sets a.memo.follow.entries).toDatum
  | .unchecked _ m _ => Unchecked.setsDatum m.follow.entries

/-- A table as a value. -/
def tableDatum : Except GrammarFault ParseTable → Except Failure Datum
  | .ok t => .ok t.toDatum
  | .error fault => .error (.grammar fault)

/-- Builds the table, and gives what is told about it and the analyzer for the next question. -/
def buildTable (strict showCollisions : Bool) : Analyzer → Except Failure Datum × Log × Analyzer
  | .checked g a =>
      let (result, log, a) := a.build g strict showCollisions
      (tableDatum result, log, .checked g a)
  | .unchecked g m kept =>
      let ((result, log), m) := (Unchecked.Table.build g strict showCollisions).run m
      (result, log, .unchecked g m (result.toOption.or kept))

/-- The table that is kept; it is built if there is none. -/
def table (strict showCollisions : Bool) : Analyzer → Except Failure Datum × Log × Analyzer
  | .checked g a =>
      let (result, log, a) := a.table g strict showCollisions
      (tableDatum result, log, .checked g a)
  | .unchecked g m (some t) => (.ok t, [], .unchecked g m (some t))
  | .unchecked g m none => (unchecked g m none).buildTable strict showCollisions

end Analyzer

end Predictive
