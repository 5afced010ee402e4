import Predictive.Proofs.FollowHistory

/-!
# When Follow sets are exact

Left recursion aside, the least Follow sets are found after every history of queries exactly when they
are found after each single query for the Follow set of a symbol that is used (`followOf_exact_iff`).
That they always are if no symbol needs itself over others is one case of it. `ordered` is a grammar
in which two symbols need each other and the sets are exact all the same; in `crossed`, which has the
same productions in another order, the answer for one of the symbols depends on which of them is asked
for first.
-/

set_option autoImplicit false

namespace Predictive

open Analysis

variable {g : Grammar}

/-! ## All histories -/

/-- Without left recursion: what is found for a symbol after any queries is in its least Follow set.
After given queries the least sets are found exactly when the memo is closed, and then for symbols that
are no nonterminals as well. They are found after all queries exactly when they are found after each
single query for the Follow set of a symbol that is used, as is the case if no symbol needs itself over
others. -/
theorem followOf_exact_iff (wf : g.WellFormed) (alone : g.EmptyStandsAlone)
    (free : g.IsLeftRecursionFree) :
    (∀ queries s t, t ∈ (followOf g s (Query.runAll g queries .empty)).1 → InFollow g s t) ∧
    (∀ queries, ((Query.runAll g queries .empty).FollowExact g ↔
        (Query.runAll g queries .empty).FollowClosed g) ∧
      ((Query.runAll g queries .empty).FollowClosed g → ∀ s t,
        t ∈ (followOf g s (Query.runAll g queries .empty)).1 ↔ InFollow g s t)) ∧
    ((∀ queries, (Query.runAll g queries .empty).FollowExact g) ↔
      ∀ p ∈ g.productionList, ∀ s ∈ p.rhs,
        (Query.runAll g [.followOf s] .empty).FollowExact g) ∧
    ((∀ s, ¬ Relation.TransGen (NeedsFollow g) s s) →
      ∀ queries, (Query.runAll g queries .empty).FollowExact g) := by
  have plain := wf.plain alone
  have holds := Query.followHolds_runAll plain
  have exact_iff : ∀ queries, (Query.runAll g queries .empty).FollowExact g ↔
      (Query.runAll g queries .empty).FollowClosed g := fun queries =>
    followExact_iff_closed plain free (holds queries)
  have all : g.QueriesClose → ∀ queries, (Query.runAll g queries .empty).FollowExact g := by
    intro closes queries
    rw [exact_iff]
    exact Query.followClosed_runAll closes plain free queries
  refine ⟨fun queries s t => inFollow_of_mem_followOf plain (holds queries),
    fun queries => ⟨exact_iff queries, fun closed s t => ?_⟩, ⟨fun exact p _ s _ => ?_, ?_⟩, ?_⟩
  · exact ⟨inFollow_of_mem_followOf plain (holds queries),
      mem_followOf_of_inFollow plain free (holds queries) closed⟩
  · exact exact [.followOf s]
  · -- single queries for symbols that are used decide about all histories
    intro single
    apply all
    apply Grammar.queriesClose_of_used plain free
    intro p member s hs
    exact (exact_iff [.followOf s]).1 (single p member s hs)
  · intro acyclic
    apply all
    exact Grammar.queriesClose_of_acyclic plain free acyclic

/-! ## Symbols that need each other -/

/-- A grammar in which `A` and `B` need each other. What `A` has of its own is found before `B` is
asked for. -/
def ordered : Grammar :=
  .ofRules [⟨"S", ["T"]⟩, ⟨"T", ["A", "\"c\""]⟩, ⟨"A", ["\"a\"", "B"]⟩, ⟨"A", []⟩,
    ⟨"B", ["\"b\"", "A"]⟩, ⟨"B", []⟩] .inferred ⟨.null, .null⟩

namespace ordered

theorem wellFormed : ordered.WellFormed := Grammar.wellFormed_ofRules _ _ (by simp)

theorem emptyStandsAlone : ordered.EmptyStandsAlone := by
  unfold Grammar.EmptyStandsAlone
  decide

theorem isLeftRecursionFree : ordered.IsLeftRecursionFree :=
  isLeftRecursionFree_of_ranksFall (fun s => s == "A" || s == "B")
    (fun s => if s = "S" then 3 else if s = "T" then 2 else if s = "A" ∨ s = "B" then 1 else 0)
    (by decide)

theorem followClosed_of_single {p : Production} (member : p ∈ ordered.productionList) {s : Symbol}
    (hs : s ∈ p.rhs) : (Query.runAll ordered [.followOf s] .empty).FollowClosed ordered := by
  have check : ∀ p ∈ ordered.productionList, ∀ s ∈ p.rhs,
      (Query.runAll ordered [.followOf s] .empty).ClosedAsFound ordered := by
    decide
  have plain := wellFormed.plain emptyStandsAlone
  have holds := Query.followHolds_runAll plain [.followOf s]
  exact followClosed_of_found plain isLeftRecursionFree holds (check p member s hs)

theorem needsFollow_cycle : Relation.TransGen (NeedsFollow ordered) "A" "A" := by
  have usesB : (⟨3, "A", ["\"a\"", "B"]⟩ : Production).rhs = ["\"a\""] ++ "B" :: [] := rfl
  have usesA : (⟨5, "B", ["\"b\"", "A"]⟩ : Production).rhs = ["\"b\""] ++ "A" :: [] := rfl
  have hAB : NeedsFollow ordered "A" "B" :=
    ⟨by decide, _, by decide, rfl, _, _, usesA, .nil⟩
  have hBA : NeedsFollow ordered "B" "A" :=
    ⟨by decide, _, by decide, rfl, _, _, usesB, .nil⟩
  exact .tail (.single hAB) hBA

end ordered

/-- Although symbols need each other, the least Follow sets are found whatever was asked for before. -/
theorem followOf_exact_ordered :
    Relation.TransGen (NeedsFollow ordered) "A" "A" ∧
      ∀ queries, (Query.runAll ordered queries .empty).FollowExact ordered := by
  obtain ⟨-, exact_iff, single_iff, -⟩ := followOf_exact_iff ordered.wellFormed
    ordered.emptyStandsAlone ordered.isLeftRecursionFree
  refine ⟨ordered.needsFollow_cycle, ?_⟩
  apply single_iff.2
  intro p member s hs
  apply (exact_iff [.followOf s]).1.2
  exact ordered.followClosed_of_single member hs

/-- The productions of `ordered`, but that with what `A` has of its own comes last. -/
def crossed : Grammar :=
  .ofRules [⟨"S", ["T"]⟩, ⟨"A", ["\"a\"", "B"]⟩, ⟨"A", []⟩, ⟨"B", ["\"b\"", "A"]⟩, ⟨"B", []⟩,
    ⟨"T", ["A", "\"c\""]⟩] .inferred ⟨.null, .null⟩

namespace crossed

theorem wellFormed : crossed.WellFormed := Grammar.wellFormed_ofRules _ _ (by simp)

theorem emptyStandsAlone : crossed.EmptyStandsAlone := by
  unfold Grammar.EmptyStandsAlone
  decide

theorem isLeftRecursionFree : crossed.IsLeftRecursionFree :=
  isLeftRecursionFree_of_ranksFall (fun s => s == "A" || s == "B")
    (fun s => if s = "S" then 3 else if s = "T" then 2 else if s = "A" ∨ s = "B" then 1 else 0)
    (by decide)

end crossed

/-- Asked for `A` first, the analysis does not find what follows `B`, although the grammar has no left
recursion. -/
theorem not_followOf_exact_crossed :
    ¬ ∀ g : Grammar, g.WellFormed → g.EmptyStandsAlone → g.IsLeftRecursionFree →
      ∀ queries, (Query.runAll g queries .empty).FollowExact g := by
  intro exact
  have follows : InFollow crossed "B" "\"c\"" := by
    have usesA : (⟨6, "T", ["A", "\"c\""]⟩ : Production).rhs = [] ++ "A" :: ["\"c\""] := rfl
    have usesB : (⟨2, "A", ["\"a\"", "B"]⟩ : Production).rhs = ["\"a\""] ++ "B" :: [] := rfl
    have afterA : InFirstOf crossed ["\"c\""] "\"c\"" :=
      .head (by decide) (.token (by decide +kernel)) (by decide)
    exact .last (by decide +kernel) usesB .nil
      (.next (by decide +kernel) usesA afterA (by decide))
  have missed : "\"c\"" ∉
      (followOf crossed "B" (Query.runAll crossed [.followOf "A"] .empty)).1 := by
    decide +kernel
  exact missed ((exact crossed crossed.wellFormed crossed.emptyStandsAlone
    crossed.isLeftRecursionFree [.followOf "A"] "B" (by decide +kernel) "\"c\"").2 follows)

end Predictive
