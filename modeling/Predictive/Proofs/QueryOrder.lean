import Predictive.Proofs.FirstExact
import Predictive.Proofs.StrictBuild

/-!
# The order of queries

Two analyses of one grammar may have been asked different questions. A table depends on the memo it is
built from through the Predict sets only (`ParseTable.build_alike`), these depend on it through the
Follow sets, and First sets do not depend on it at all, if the grammar has no left recursion. So the
history of queries does not matter exactly when the Follow sets that are found are always the least
ones (`answersAlike_iff`): a new analysis finds the least Follow set for the symbol that it is asked for
first.

In `crossed` the history matters. In a grammar that uses the empty symbol among others it matters even
to First sets (`severed`).
-/

set_option autoImplicit false

namespace Predictive

open Analysis

variable {g : Grammar}

/-- From both memos the analysis gives the same sets and builds the same tables. -/
structure AnswersAlike (g : Grammar) (m m' : Memo) : Prop where
  first : ∀ s, (firstOf g s m).1 = (firstOf g s m').1
  follow : ∀ s, (followOf g s m).1 = (followOf g s m').1
  predict : ∀ n p, g.production? n = some p → (predict g p m).1 = (predict g p m').1
  table : ∀ strict,
    (ParseTable.build g strict m).result g = (ParseTable.build g strict m').result g

/-! ## Sets -/

namespace Analysis

variable {m m' : Memo}

theorem firstOf_alike (plain : g.Plain) (free : g.IsLeftRecursionFree) (holds : m.FirstHolds g [])
    (holds' : m'.FirstHolds g []) (s : Symbol) : (firstOf g s m).1 = (firstOf g s m').1 := by
  ext t
  rw [mem_firstOf_iff plain free holds, mem_firstOf_iff plain free holds']

theorem firstOfRhs_alike (plain : g.Plain) (free : g.IsLeftRecursionFree)
    (holds : m.FirstHolds g []) (holds' : m'.FirstHolds g []) {p : Production}
    (member : p ∈ g.productionList) : (firstOfRhs g p.rhs m).1 = (firstOfRhs g p.rhs m').1 := by
  obtain ⟨-, filled, alone⟩ := plain p member
  ext t
  rw [mem_firstOfRhs_iff plain free holds filled alone,
    mem_firstOfRhs_iff plain free holds' filled alone]

/-- From a settled memo the least Follow set is found. -/
theorem mem_followOf_iff (plain : g.Plain) (free : g.IsLeftRecursionFree) (settled : m.Settled g)
    {s t : Symbol} : t ∈ (followOf g s m).1 ↔ InFollow g s t :=
  ⟨inFollow_of_mem_followOf plain settled.holds,
    mem_followOf_of_inFollow plain free settled.holds settled.closed⟩

theorem followOf_alike (plain : g.Plain) (free : g.IsLeftRecursionFree) (settled : m.Settled g)
    (settled' : m'.Settled g) (s : Symbol) : (followOf g s m).1 = (followOf g s m').1 := by
  ext t
  rw [mem_followOf_iff plain free settled, mem_followOf_iff plain free settled']

/-- A Predict set is made of sets that do not depend on the memo. -/
theorem predict_alike (plain : g.Plain) (free : g.IsLeftRecursionFree) (settled : m.Settled g)
    (settled' : m'.Settled g) {p : Production} (member : p ∈ g.productionList) :
    (predict g p m).1 = (predict g p m').1 := by
  cases h : p.isEmpty with
  | true =>
      rw [predict_of_isEmpty h, predict_of_isEmpty h]
      exact followOf_alike plain free settled settled' p.lhs
  | false =>
      have hfirst := firstOfRhs_alike plain free settled.holds.first settled'.holds.first member
      by_cases hempty : Symbol.empty ∈ (firstOfRhs g p.rhs m).1
      · rw [predict_of_mem h hempty, predict_of_mem h (hfirst ▸ hempty)]
        have hfollow := followOf_alike plain free (settled.firstOfRhs plain p.rhs)
          (settled'.firstOfRhs plain p.rhs) p.lhs
        simp only [hfirst, hfollow]
      · rw [predict_of_not_mem h hempty, predict_of_not_mem h (hfirst ▸ hempty)]
        exact hfirst

end Analysis

/-! ## Tables -/

namespace ParseTable

/-- The two builds are at the same point, but for their memos. -/
structure Build.Alike (b b' : Build) : Prop where
  rows : b.rows = b'.rows
  collisions : b.collisions = b'.collisions
  stopped : b.stopped = b'.stopped

theorem Build.Alike.result_eq {b b' : Build} (alike : b.Alike b') : b.result g = b'.result g := by
  rw [Build.result, Build.result, alike.stopped, alike.rows]

/-- A build goes the same way from two memos, if the searches keep a property of both by which
productions predict the same. -/
theorem addProductions_alike {P : Memo → Prop} (kept : KeptBySearches g P) (strict : Bool)
    (ps : List Production)
    (same : ∀ p ∈ ps, ∀ m m', P m → P m' → (predict g p m).1 = (predict g p m').1) {b b' : Build}
    (alike : b.Alike b') (hb : P b.memo) (hb' : P b'.memo) :
    (addProductions g strict ps b).Alike (addProductions g strict ps b') := by
  induction ps generalizing b b' with
  | nil => exact alike
  | cons p ps ih =>
      have hclaims : g.claims p b.memo = g.claims p b'.memo := by
        rw [Grammar.claims, Grammar.claims, same p List.mem_cons_self _ _ hb hb']
      have hrows : b.rowsWith = b'.rowsWith := by
        unfold Build.rowsWith
        rw [alike.rows]
      rw [addProductions_cons, addProductions_cons, hclaims, alike.rows, alike.collisions, hrows]
      -- the same cells are claimed of the same row, so both builds stop or go on
      split
      · apply ih
        · intro q hq
          exact same q (List.mem_cons_of_mem _ hq)
        · exact ⟨rfl, rfl, rfl⟩
        · exact kept.predict p hb
        · exact kept.predict p hb'
      · exact ⟨rfl, rfl, rfl⟩

/-- A table depends on the memo through the Predict sets only. -/
theorem build_alike {P : Memo → Prop} (kept : KeptBySearches g P) (strict : Bool)
    (same : ∀ p ∈ g.productionList, ∀ m m', P m → P m' →
      (predict g p m).1 = (predict g p m').1) {m m' : Memo} (hm : P m) (hm' : P m') :
    (build g strict m).Alike (build g strict m') :=
  addProductions_alike kept strict g.productionList same ⟨rfl, rfl, rfl⟩ hm hm'

end ParseTable

/-! ## Histories -/

/-- If single queries leave closed memos, all histories of queries lead to the same answers. -/
theorem answersAlike_of_queriesClose (plain : g.Plain) (free : g.IsLeftRecursionFree)
    (closes : g.QueriesClose) (queries queries' : List Query) :
    AnswersAlike g (Query.runAll g queries .empty) (Query.runAll g queries' .empty) := by
  have kept := closes.keptBySearches plain free
  -- every history leaves a settled memo, and settled memos answer alike
  have settled : ∀ queries, (Query.runAll g queries .empty).Settled g := by
    intro queries
    exact kept.runAll queries (Memo.settled_empty g)
  have hm := settled queries
  have hm' := settled queries'
  constructor
  · exact firstOf_alike plain free hm.holds.first hm'.holds.first
  · exact followOf_alike plain free hm hm'
  · intro n p numbered
    exact predict_alike plain free hm hm' (Grammar.mem_productionList numbered)
  · intro strict
    apply ParseTable.Build.Alike.result_eq
    apply ParseTable.build_alike kept strict _ hm hm'
    intro p member m m' settled settled'
    exact predict_alike plain free settled settled' member

/-- Without left recursion: First sets are the same after all histories of queries. All sets and tables
are exactly when each single query for the Follow set of a symbol that is used leads to the least Follow
sets, as is the case if no symbol needs itself over others. -/
theorem answersAlike_iff (wf : g.WellFormed) (alone : g.EmptyStandsAlone)
    (free : g.IsLeftRecursionFree) :
    (∀ queries queries' s, (firstOf g s (Query.runAll g queries .empty)).1 =
      (firstOf g s (Query.runAll g queries' .empty)).1) ∧
    ((∀ queries queries',
        AnswersAlike g (Query.runAll g queries .empty) (Query.runAll g queries' .empty)) ↔
      ∀ p ∈ g.productionList, ∀ s ∈ p.rhs,
        (Query.runAll g [.followOf s] .empty).FollowExact g) ∧
    ((∀ s, ¬ Relation.TransGen (NeedsFollow g) s s) → ∀ queries queries',
      AnswersAlike g (Query.runAll g queries .empty) (Query.runAll g queries' .empty)) := by
  have plain := wf.plain alone
  have holds := Query.followHolds_runAll plain
  refine ⟨?_, ⟨?_, ?_⟩, ?_⟩
  · intro queries queries'
    exact firstOf_alike plain free (holds queries).first (holds queries').first
  · -- a new analysis finds the least set for each symbol, so all histories lead to it
    intro alike p _ s _ x _ t
    rw [← (alike [] [.followOf s]).follow x]
    exact mem_followOf_iff plain free (Memo.settled_empty g)
  · intro exact
    apply answersAlike_of_queriesClose plain free
    apply Grammar.queriesClose_of_used plain free
    intro p member s hs
    exact followClosed_of_exact (holds [.followOf s]) free (exact p member s hs)
  · intro acyclic
    apply answersAlike_of_queriesClose plain free
    exact Grammar.queriesClose_of_acyclic plain free acyclic

/-- Although symbols of `ordered` need each other, the history of queries does not matter. -/
theorem answersAlike_ordered :
    Relation.TransGen (NeedsFollow ordered) "A" "A" ∧ ∀ queries queries',
      AnswersAlike ordered (Query.runAll ordered queries .empty)
        (Query.runAll ordered queries' .empty) := by
  have plain := ordered.wellFormed.plain ordered.emptyStandsAlone
  have free := ordered.isLeftRecursionFree
  refine ⟨ordered.needsFollow_cycle, ?_⟩
  apply (answersAlike_iff ordered.wellFormed ordered.emptyStandsAlone free).2.1.2
  intro p member s hs
  apply (followExact_iff_closed plain free (Query.followHolds_runAll plain _)).2
  exact ordered.followClosed_of_single member hs

/-- In `crossed` what follows `B` is found or not, depending on the symbol that is asked for first. A
table has a cell more when `B` has been asked for before it is built. -/
theorem not_answersAlike_crossed :
    crossed.WellFormed ∧ crossed.IsLeftRecursionFree ∧
      (followOf crossed "B" (Query.runAll crossed [.followOf "A"] .empty)).1 ≠
        (followOf crossed "B" (Query.runAll crossed [.followOf "B"] .empty)).1 ∧
      (ParseTable.build crossed false (Query.runAll crossed [] .empty)).result crossed ≠
        (ParseTable.build crossed false (Query.runAll crossed [.followOf "B"] .empty)).result
          crossed := by
  refine ⟨crossed.wellFormed, crossed.isLeftRecursionFree, by decide, ?_⟩
  intro h
  have cells := congrArg
    (fun result => result.toOption.map fun table => table.cell? "B" "\"c\"") h
  revert cells
  decide

/-- A grammar in which `A` begins with the empty symbol, before a token. Its First set is taken for the
empty symbol alone, so `X` and `Y` seem to begin with each other. -/
def severed : Grammar :=
  .ofRules [⟨"X", ["A", "Y"]⟩, ⟨"X", ["\"c\""]⟩, ⟨"Y", ["A", "X"]⟩, ⟨"Y", ["\"d\""]⟩,
    ⟨"A", ["ε", "\"a\""]⟩] .inferred ⟨.null, .null⟩

/-- Without left recursion, but with the empty symbol among others, the First set of `X` depends on
whether `Y` has been asked for. -/
theorem firstOf_severed :
    severed.WellFormed ∧ severed.IsLeftRecursionFree ∧
      (firstOf severed "X" (Query.runAll severed [] .empty)).1 ≠
        (firstOf severed "X" (Query.runAll severed [.firstOf "Y"] .empty)).1 := by
  refine ⟨Grammar.wellFormed_ofRules _ _ (by simp), ?_, by decide⟩
  exact isLeftRecursionFree_of_ranksFall (fun _ => false)
    (fun s => if s = "X" ∨ s = "Y" then 2 else if s = "A" then 1 else 0) (by decide)

end Predictive
