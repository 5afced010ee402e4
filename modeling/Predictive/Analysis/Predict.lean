import Predictive.Analysis.Follow

/-!
# Predict sets and queries

The Predict set of a production is the First set of its right-hand side and, if that can vanish, the
Follow set of its left-hand side; the production of the empty symbol alone predicts just the Follow
set.

A `Query` asks the analysis for one set or for all sets of a kind. `Query.run` answers it and gives
the memo for the next query.
-/

set_option autoImplicit false

namespace Predictive

namespace Analysis

/-- The Predict set of a production, and the memo with what was found on the way. -/
def predict (g : Grammar) (p : Production) (m : Memo) : SymbolSet × Memo :=
  if p.isEmpty then followOf g p.lhs m
  else
    let (first, m) := firstOfRhs g p.rhs m
    if Symbol.empty ∈ first then
      let (follow, m) := followOf g p.lhs m
      (first ∪ follow, m)
    else (first, m)

/-- The memo after a search for each of the symbols. -/
def searchAll (search : Symbol → Memo → SymbolSet × Memo) : List Symbol → Memo → Memo
  | [], m => m
  | s :: ss, m => searchAll search ss (search s m).2

/-- The memo with the First sets of all nonterminals. -/
def firstSets (g : Grammar) (m : Memo) : Memo :=
  searchAll (firstOf g) g.nonterminals m

/-- The memo with the Follow sets of all nonterminals. -/
def followSets (g : Grammar) (m : Memo) : Memo :=
  searchAll (followOf g) g.nonterminals m

/-- The label of a production among the Predict sets: its place there and its line. -/
def predictLabel (place : Nat) (p : Production) : String :=
  Datum.natText place ++ ". " ++ p.render

/-- The Predict sets of those productions that are not the empty symbol alone, under their labels
with places counted from `place`. -/
def predictSetsFrom (g : Grammar) (place : Nat) :
    List Production → Memo → List (String × SymbolSet) × Memo
  | [], m => ([], m)
  | p :: ps, m =>
      if p.isEmpty then predictSetsFrom g place ps m
      else
        let (found, m) := predict g p m
        let (sets, m) := predictSetsFrom g (place + 1) ps m
        ((predictLabel place p, found) :: sets, m)

/-- The Predict sets of the productions, under their labels. -/
def predictSets (g : Grammar) (m : Memo) : List (String × SymbolSet) × Memo :=
  predictSetsFrom g 1 g.productionList m

end Analysis

/-- A question about the sets of a grammar. -/
inductive Query where
  | firstOf (s : Symbol)
  | followOf (s : Symbol)
  | firstOfRhs (rhs : List Symbol)
  | predictNumber (n : Int)
  | predict (p : Production)
  | firstSets
  | followSets
  | predictSets
deriving Repr

/-- The answer to a question. -/
inductive Answer where
  | set (s : SymbolSet)
  | sets (entries : List (String × SymbolSet))
deriving Repr

/-- Answers a question, and gives the memo for the next one. -/
def Query.run (g : Grammar) : Query → Memo → Except GrammarFault Answer × Memo
  | .firstOf s, m =>
      let (found, m) := Analysis.firstOf g s m
      (.ok (.set found), m)
  | .followOf s, m =>
      let (found, m) := Analysis.followOf g s m
      (.ok (.set found), m)
  | .firstOfRhs rhs, m =>
      let (found, m) := Analysis.firstOfRhs g rhs m
      (.ok (.set found), m)
  | .predictNumber n, m =>
      match g.getProduction n with
      | .error fault => (.error fault, m)
      | .ok p =>
          let (found, m) := Analysis.predict g p m
          (.ok (.set found), m)
  | .predict p, m =>
      let (found, m) := Analysis.predict g p m
      (.ok (.set found), m)
  | .firstSets, m =>
      let m := Analysis.firstSets g m
      (.ok (.sets m.first.entries), m)
  | .followSets, m =>
      let m := Analysis.followSets g m
      (.ok (.sets m.follow.entries), m)
  | .predictSets, m =>
      let (sets, m) := Analysis.predictSets g m
      (.ok (.sets sets), m)

/-- The memo after a list of questions. -/
def Query.runAll (g : Grammar) (queries : List Query) (m : Memo) : Memo :=
  queries.foldl (fun m q => (q.run g m).2) m

end Predictive
