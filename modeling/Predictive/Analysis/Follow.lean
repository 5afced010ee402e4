import Predictive.Analysis.First

/-!
# Follow sets

The end marker is in the Follow set of the start symbol. Wherever a right-hand side uses a symbol,
all that can begin what comes after it, without the empty symbol, is in its Follow set; and when all
that comes after it can vanish, so is the Follow set of the left-hand side.

`followOf?` searches down to a given depth, and `followOf` down to `Grammar.depth`.
-/

set_option autoImplicit false

namespace Predictive.Analysis

/-- What comes after each use of `s` in a sequence. -/
def restsAfter (s : Symbol) : List Symbol → List (List Symbol)
  | [] => []
  | x :: xs => if x = s then xs :: restsAfter s xs else restsAfter s xs

/-- Puts all that can begin the sequence into the Follow entry of `s`, and tells whether the whole
sequence can vanish. -/
def gatherRest? (find : Finder) (s : Symbol) : List Symbol → Memo → Option (Bool × Memo)
  | [], m => some (true, m)
  | x :: xs, m =>
      if x = Symbol.empty then gatherRest? find s xs m
      else
        match find x m with
        | none => none
        | some (first, m) =>
            let m := m.addFollow s (first.erase Symbol.empty)
            if Symbol.empty ∈ first then gatherRest? find s xs m else some (false, m)

/-- Gathers what the uses of `s` in one right-hand side give, by the searches for First and for
Follow sets. -/
def gatherUses? (findFirst findFollow : Finder) (s lhs : Symbol) :
    List (List Symbol) → Memo → Option Memo
  | [], m => some m
  | rest :: rests, m =>
      match gatherRest? findFirst s rest m with
      | none => none
      | some (false, m) => gatherUses? findFirst findFollow s lhs rests m
      | some (true, m) =>
          if lhs = s then gatherUses? findFirst findFollow s lhs rests m
          else
            match findFollow lhs m with
            | none => none
            | some (follow, m) =>
                gatherUses? findFirst findFollow s lhs rests (m.addFollow s follow)

/-- Gathers what all uses of `s` in productions give. -/
def gatherFollow? (findFirst findFollow : Finder) (s : Symbol) :
    List Production → Memo → Option Memo
  | [], m => some m
  | p :: ps, m =>
      match gatherUses? findFirst findFollow s p.lhs (restsAfter s p.rhs) m with
      | none => none
      | some m => gatherFollow? findFirst findFollow s ps m

/-- What the Follow set of a symbol holds before its uses are looked at. -/
def initialFollow (g : Grammar) (s : Symbol) : SymbolSet :=
  if s = g.start then SymbolSet.singleton Symbol.endMarker else ∅

/-- The Follow set of a symbol, by a search down to the given depth. -/
def followOf? (g : Grammar) : Nat → Finder
  | 0, s, m =>
      match m.follow.get? s with
      | some found => some (found, m)
      | none => none
  | depth + 1, s, m =>
      match m.follow.get? s with
      | some found => some (found, m)
      | none =>
          match gatherFollow? (firstOf? g g.depth) (followOf? g depth) s (g.productionsWith s)
              (m.addFollow s (initialFollow g s)) with
          | none => none
          | some m => some (m.followAt s, m)

/-- The Follow set of a symbol, and the memo with what was found on the way. -/
def followOf (g : Grammar) (s : Symbol) (m : Memo) : SymbolSet × Memo :=
  (followOf? g g.depth s m).getD (∅, m)

end Predictive.Analysis
