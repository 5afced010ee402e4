import Predictive.Grammar.Basic
import Predictive.SymbolSet

/-!
# Memos of First and Follow sets

The analysis of a grammar remembers the sets that it has found. An entry is made, empty, before the
search for its set begins, and grows while the search goes on; a search that comes back to the entry
meanwhile reads what is there so far. Entries stay in the order in which they were made.
-/

set_option autoImplicit false

namespace Predictive

/-- The First and Follow sets found so far. -/
structure Memo where
  first : OrderedMap Symbol SymbolSet
  follow : OrderedMap Symbol SymbolSet
deriving Repr

namespace Memo

/-- The memo before every search. -/
def empty : Memo := ⟨OrderedMap.empty, OrderedMap.empty⟩

instance : Inhabited Memo := ⟨empty⟩

/-- The First set so far of a symbol. -/
def firstAt (m : Memo) (s : Symbol) : SymbolSet := (m.first.get? s).getD ∅

/-- The Follow set so far of a symbol. -/
def followAt (m : Memo) (s : Symbol) : SymbolSet := (m.follow.get? s).getD ∅

/-- Puts more members into a First entry, which is made if need be. -/
def addFirst (m : Memo) (s : Symbol) (found : SymbolSet) : Memo :=
  { m with first := m.first.insert s (m.firstAt s ∪ found) }

/-- Puts more members into a Follow entry, which is made if need be. -/
def addFollow (m : Memo) (s : Symbol) (found : SymbolSet) : Memo :=
  { m with follow := m.follow.insert s (m.followAt s ∪ found) }

end Memo

end Predictive
