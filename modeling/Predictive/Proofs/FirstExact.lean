import Predictive.Proofs.Queries

/-!
# First sets are what can come first

Without left recursion a query for the First set of a symbol or a sequence gives the tokens with which
the forms that can be derived from it begin, and the empty symbol if it can vanish, and nothing else,
whatever has been asked before (`first_queries_exact`). This is told by derivations alone: symbols that
have no production begin nothing, and the productions of a symbol that is a token do not count.
-/

set_option autoImplicit false

namespace Predictive

namespace Analysis

variable {g : Grammar} {m : Memo}

/-- From a true memo the least First set of a symbol is found. -/
theorem mem_firstOf_iff (plain : g.Plain) (free : g.IsLeftRecursionFree)
    (holds : m.FirstHolds g []) {s t : Symbol} : t ∈ (firstOf g s m).1 ↔ InFirst g s t := by
  obtain ⟨answered, keeps⟩ := firstOf_spec g s m
  have holds' := keeps plain holds
  constructor
  · exact holds'.sound s _ answered.entry t
  · exact holds'.complete free s _ (by simp) answered.entry t

/-- From a true memo the least First set of a sequence is found. -/
theorem mem_firstOfRhs_iff (plain : g.Plain) (free : g.IsLeftRecursionFree)
    (holds : m.FirstHolds g []) {rhs : List Symbol} (filled : rhs ≠ [])
    (alone : Symbol.empty ∈ rhs → rhs = [Symbol.empty]) {t : Symbol} :
    t ∈ (firstOfRhs g rhs m).1 ↔ InFirstOf g rhs t := by
  obtain ⟨-, -, keeps⟩ := firstOfRhs_spec g rhs m
  have gathered := (keeps plain holds).2 filled alone
  constructor
  · intro ht
    exact (gathered.sound t ht).resolve_left (SymbolSet.not_mem_empty t)
  · exact gathered.complete free t

/-- After any queries, without left recursion, the First set of a symbol is what the symbol can begin
with, and so is that of a sequence. -/
theorem first_queries_exact {g : Grammar} (wf : g.WellFormed) (alone : g.EmptyStandsAlone)
    (free : g.IsLeftRecursionFree) (queries : List Query) :
    (∀ s, s ≠ Symbol.empty →
      ∀ t, t ∈ (firstOf g s (Query.runAll g queries .empty)).1 ↔ g.Begins [s] t) ∧
    ∀ rhs, rhs ≠ [] → Symbol.empty ∉ rhs →
      ∀ t, t ∈ (firstOfRhs g rhs (Query.runAll g queries .empty)).1 ↔ g.Begins rhs t := by
  have plain := wf.plain alone
  have holds := (Query.followHolds_runAll plain queries).first
  constructor
  · intro s hs t
    have hform : Symbol.empty ∉ [s] := by
      simpa using hs.symm
    rw [mem_firstOf_iff plain free holds, ← inFirstOf_singleton_iff hs]
    exact inFirstOf_iff_begins alone.emptyHasNoRule hform
  · intro rhs filled hrhs t
    rw [mem_firstOfRhs_iff plain free holds filled fun h => absurd h hrhs]
    exact inFirstOf_iff_begins alone.emptyHasNoRule hrhs

/-- A grammar whose start symbol begins with a symbol that vanishes. Then comes a token that has a
production all the same, or a symbol without one. -/
def sheltered : Grammar :=
  .ofRules [⟨"S", ["E", "N", "\"x\""]⟩, ⟨"S", ["E", "U", "\"y\""]⟩, ⟨"E", []⟩, ⟨"N", ["\"c\""]⟩]
    (.declared (.ofList [("[0-9]+", "N")])) ⟨.null, .null⟩

/-- Its start symbol begins with the token, not with the production of the token, and cannot vanish; the
symbol without a production begins nothing. -/
theorem first_queries_exact_sheltered :
    sheltered.WellFormed ∧ sheltered.EmptyStandsAlone ∧ sheltered.IsLeftRecursionFree ∧
      sheltered.Begins ["S"] "N" ∧ ¬ sheltered.Begins ["S"] "\"c\"" ∧
      ¬ sheltered.Begins ["E", "U", "\"y\""] Symbol.empty ∧ sheltered.Begins ["E"] Symbol.empty := by
  have wf : sheltered.WellFormed := Grammar.wellFormed_ofRules _ _ (by simp)
  have alone : sheltered.EmptyStandsAlone := by
    unfold Grammar.EmptyStandsAlone
    decide
  have free : sheltered.IsLeftRecursionFree :=
    isLeftRecursionFree_of_ranksFall (fun s => s == "E")
      (fun s => if s = "S" then 2 else if s = "N" then 1 else 0) (by decide)
  obtain ⟨symbol, sequence⟩ := first_queries_exact wf alone free [.followSets, .firstOf "E"]
  refine ⟨wf, alone, free, ?_, ?_, ?_, ?_⟩
  · exact (symbol "S" (by decide) _).1 (by decide)
  · exact fun h => absurd ((symbol "S" (by decide) _).2 h) (by decide)
  · exact fun h => absurd ((sequence _ (by simp) (by decide) _).2 h) (by decide)
  · exact (symbol "E" (by decide) _).1 (by decide)

end Analysis

end Predictive
