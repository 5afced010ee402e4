import Predictive.Analysis.Predict
import Predictive.Unchecked.Grammar

/-!
# The sets of unchecked grammars

First, Follow and Predict sets are searched for as they are in a grammar, and a memo remembers what
was found. A search that fails on the way leaves the entries that it has begun.
-/

set_option autoImplicit false

namespace Predictive.Unchecked

/-- The First and Follow sets found so far. -/
structure Memo where
  first : OrderedMap Datum (List Datum)
  follow : OrderedMap Datum (List Datum)

namespace Memo

/-- The memo before every search. -/
def empty : Memo := ⟨OrderedMap.empty, OrderedMap.empty⟩

instance : Inhabited Memo := ⟨empty⟩

/-- The First set so far of a symbol. -/
def firstAt (m : Memo) (s : Datum) : List Datum := (m.first.get? s).getD []

/-- The Follow set so far of a symbol. -/
def followAt (m : Memo) (s : Datum) : List Datum := (m.follow.get? s).getD []

/-- Puts more members into a First entry, which is made if need be. -/
def addFirst (s : Datum) (found : List Datum) (m : Memo) : Memo :=
  { m with first := m.first.insert s (union (m.firstAt s) found) }

/-- Puts more members into a Follow entry, which is made if need be. -/
def addFollow (s : Datum) (found : List Datum) (m : Memo) : Memo :=
  { m with follow := m.follow.insert s (union (m.followAt s) found) }

end Memo

/-- A search that may fail and keeps its memo all the same. -/
abbrev Search (α : Type) := ExceptT Failure (StateM Memo) α

/-- The outcome of a step that needs no memo. -/
def Search.of {α : Type} (r : Except Failure α) : Search α :=
  match r with
  | .ok a => pure a
  | .error failure => throw failure

/-- The entry of a symbol in one part of the memo. -/
def Search.entry? (part : Memo → OrderedMap Datum (List Datum)) (s : Datum) :
    Search (Option (List Datum)) := do
  if s.isKey then return (part (← getThe Memo)).get? s else throw .wrongType

namespace Analysis

/-- The First set of a sequence, added to `found`, by a search for those of its symbols. -/
def firstOfSequence (find : Datum → Search (List Datum)) :
    List Datum → List Datum → Search (List Datum)
  | [], found => return union found [empty]
  | s :: rest, found => do
      if s == empty then return union found [empty]
      let first ← find s
      let found := union found (visible first)
      if first.contains empty then firstOfSequence find rest found else return found

/-- The First set of a right-hand side; that of no symbols at all has no members. -/
def firstOfRhs (find : Datum → Search (List Datum)) (rhs : List Datum) : Search (List Datum) :=
  if rhs.isEmpty then return [] else firstOfSequence find rhs []

/-- The First set of a symbol, by a search down to the given depth. -/
def firstOf (g : Grammar) : Nat → Datum → Search (List Datum)
  | 0, _ => return []
  | depth + 1, s => do
      match ← Search.entry? Memo.first s with
      | some found => return found
      | none =>
          modifyThe Memo (Memo.addFirst s [])
          if ← Search.of (g.isToken s) then modifyThe Memo (Memo.addFirst s [s])
          else
            for p in ← Search.of (g.productionsFor s) do
              let found ← firstOfRhs (firstOf g depth) (← Search.of (rhsOf p))
              modifyThe Memo (Memo.addFirst s found)
          return (← getThe Memo).firstAt s

/-- Puts all that can begin the sequence into the Follow entry of `s`, and tells whether the whole
sequence can vanish. -/
def gatherRest (find : Datum → Search (List Datum)) (s : Datum) : List Datum → Search Bool
  | [] => return true
  | x :: rest => do
      if x == empty then gatherRest find s rest
      else
        let first ← find x
        modifyThe Memo (Memo.addFollow s (visible first))
        if first.contains empty then gatherRest find s rest else return false

/-- What comes after each use of `s` in a sequence. -/
def restsAfter (s : Datum) : List Datum → List (List Datum)
  | [] => []
  | x :: xs => if x == s then xs :: restsAfter s xs else restsAfter s xs

/-- The Follow set of a symbol, by a search down to the given depth. -/
def followOf (g : Grammar) (find : Datum → Search (List Datum)) : Nat → Datum → Search (List Datum)
  | 0, _ => return []
  | depth + 1, s => do
      match ← Search.entry? Memo.follow s with
      | some found => return found
      | none =>
          modifyThe Memo (Memo.addFollow s (if s == g.start then [endMarker] else []))
          for p in ← Search.of (g.productionsWith s) do
            for rest in restsAfter s (← Search.of (rhsOf p)) do
              if ← gatherRest find s rest then
                let lhs ← Search.of (lhsOf p)
                if !(lhs == s) then
                  modifyThe Memo (Memo.addFollow s (← followOf g find depth lhs))
          return (← getThe Memo).followAt s

/-- The symbols that a value uses as a production. -/
def symbolsOf : Datum → List Datum
  | .production _ lhs rhs => lhs :: rhs
  | _ => []

/-- A depth that no search in the grammar needs to pass: more than it has symbols. -/
def depth (g : Grammar) : Nat :=
  match g.productionList with
  | .ok productions => (productions.flatMap symbolsOf).length + 2
  | .error _ => 2

/-- The First set of a symbol. -/
def first (g : Grammar) (s : Datum) : Search (List Datum) := firstOf g (depth g) s

/-- The Follow set of a symbol. -/
def follow (g : Grammar) (s : Datum) : Search (List Datum) := followOf g (first g) (depth g) s

/-- The Predict set of a production. -/
def predict (g : Grammar) (p : Datum) : Search (List Datum) := do
  let rhs ← Search.of (rhsOf p)
  let lhs ← Search.of (lhsOf p)
  if Datum.sameItems rhs [empty] then follow g lhs
  else
    let found ← firstOfRhs (first g) rhs
    if found.contains empty then return union found (← follow g lhs) else return found

/-- Searches for the set of every nonterminal. -/
def searchAll (g : Grammar) (search : Datum → Search (List Datum)) : Search Unit := do
  for s in ← Search.of g.nonterminals do
    let _ ← search s

/-- The Predict sets of those productions that are not the empty symbol alone, under their labels
with places counted from `place`. -/
def predictSets (g : Grammar) : Nat → List Datum → Search (List (Datum × List Datum))
  | _, [] => return []
  | place, p :: ps => do
      if Datum.sameItems (← Search.of (rhsOf p)) [empty] then predictSets g place ps
      else
        let found ← predict g p
        let line ← Search.of (Grammar.lineOf p)
        let label := Datum.text (Datum.natText place ++ ". " ++ line)
        return (label, found) :: (← predictSets g (place + 1) ps)

end Analysis

/-- The answer to a question about sets. -/
inductive Answer where
  | set (members : List Datum)
  | sets (entries : List (Datum × List Datum))

/-- Answers a question. -/
def answer (g : Grammar) : Query → Search Answer
  | .firstOf s => return .set (← Analysis.first g (.text s))
  | .followOf s => return .set (← Analysis.follow g (.text s))
  | .firstOfRhs rhs => return .set (← Analysis.firstOfRhs (Analysis.first g) (rhs.map .text))
  | .predictNumber n => do
      let p ← Search.of (g.findProduction (.int n))
      return .set (← Analysis.predict g p)
  | .predict p => return .set (← Analysis.predict g (Grammar.productionDatum p))
  | .firstSets => do
      Analysis.searchAll g (Analysis.first g)
      return .sets (← getThe Memo).first.entries
  | .followSets => do
      Analysis.searchAll g (Analysis.follow g)
      return .sets (← getThe Memo).follow.entries
  | .predictSets => do
      return .sets (← Analysis.predictSets g 1 (← Search.of g.productionList))

end Predictive.Unchecked
