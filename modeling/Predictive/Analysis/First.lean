import Predictive.Analysis.Memo

/-!
# First sets

The First set of a token is the token alone. The First set of another symbol gathers those of the
right-hand sides of its productions. The First set of a sequence is that of its first symbol without
the empty symbol and, if the first symbol can vanish, that of the rest; when all symbols can vanish,
the empty symbol is in it too.

`firstOf?` searches down to a given depth and gives `none` if that is not enough; `firstOf` searches
down to `Grammar.depth`, which no search needs to pass, since every step down makes the entry of a
symbol that had none.
-/

set_option autoImplicit false

namespace Predictive

/-- A search for the set of one symbol. -/
abbrev Finder := Symbol → Memo → Option (SymbolSet × Memo)

namespace Analysis

/-- The First set of a sequence, added to `found`, by a search for those of its symbols. -/
def firstOfSequence? (find : Finder) :
    List Symbol → SymbolSet → Memo → Option (SymbolSet × Memo)
  | [], found, m => some (found.insert Symbol.empty, m)
  | s :: rest, found, m =>
      if s = Symbol.empty then some (found.insert Symbol.empty, m)
      else
        match find s m with
        | none => none
        | some (first, m) =>
            if Symbol.empty ∈ first then
              firstOfSequence? find rest (found ∪ first.erase Symbol.empty) m
            else some (found ∪ first.erase Symbol.empty, m)

/-- The First set of a right-hand side; that of no symbols at all has no members. -/
def firstOfRhs? (find : Finder) (rhs : List Symbol) (m : Memo) : Option (SymbolSet × Memo) :=
  if rhs = [] then some (∅, m) else firstOfSequence? find rhs ∅ m

/-- Gathers the First sets of the right-hand sides of productions in the entry of `s`. -/
def gatherFirst? (find : Finder) (s : Symbol) : List Production → Memo → Option Memo
  | [], m => some m
  | p :: ps, m =>
      match firstOfRhs? find p.rhs m with
      | none => none
      | some (first, m) => gatherFirst? find s ps (m.addFirst s first)

/-- The First set of a symbol, by a search down to the given depth. -/
def firstOf? (g : Grammar) : Nat → Finder
  | 0, s, m =>
      match m.first.get? s with
      | some found => some (found, m)
      | none => none
  | depth + 1, s, m =>
      match m.first.get? s with
      | some found => some (found, m)
      | none =>
          if g.isToken s then
            let m := m.addFirst s (SymbolSet.singleton s)
            some (m.firstAt s, m)
          else
            match gatherFirst? (firstOf? g depth) s (g.productionsFor s) (m.addFirst s ∅) with
            | none => none
            | some m => some (m.firstAt s, m)

end Analysis

/-- A depth that no search in the grammar needs to pass: more than it has symbols. -/
def Grammar.depth (g : Grammar) : Nat :=
  (g.productionList.flatMap fun p => p.lhs :: p.rhs).length + 1

namespace Analysis

/-- The First set of a symbol, and the memo with what was found on the way. -/
def firstOf (g : Grammar) (s : Symbol) (m : Memo) : SymbolSet × Memo :=
  (firstOf? g g.depth s m).getD (∅, m)

/-- The First set of a sequence, and the memo with what was found on the way. -/
def firstOfRhs (g : Grammar) (rhs : List Symbol) (m : Memo) : SymbolSet × Memo :=
  (firstOfRhs? (firstOf? g g.depth) rhs m).getD (∅, m)

end Analysis

end Predictive
