import Predictive.Proofs.ErasedRuns
import Predictive.Proofs.SetSoundness

/-!
# Sets and tables without embedded empty symbols

If the empty symbols of a grammar are sheltered, the analysis finds the same First and Follow sets for it
as for the erased grammar, and makes the same entries. So it does for Predict sets, but for the empty
symbol (`PredictsAlike`), and the tables are the same (`ParseTable.build_erased`). Hence two analyses
that are asked for the same things have the same memo all the time (`Request.runAll_erased`).
-/

set_option autoImplicit false

namespace Predictive

open Analysis

variable {g : Grammar}

section Sheltered

variable (wf : g.WellFormed) (noRule : g.EmptyHasNoRule) (sheltered : g.EmptySheltered)

include wf noRule sheltered

/-! ## Sets -/

/-- What is found for a grammar and for the erased one by runs of a job is the same. -/
theorem Runs.eq_of_erased {job : Job} {m : Memo} {opened opened' : List Search}
    {given given' : SymbolSet × Memo} (run : Runs g job m opened (.set given.1) given.2)
    (run' : Runs g.erased job.erased m opened' (.set given'.1) given'.2)
    (searches : job.Searches g) (sound : m.VanishSound g) :
    given' = given ∧ given.2.VanishSound g := by
  obtain ⟨also, sound', -⟩ := run.erased wf noRule sheltered searches sound
  obtain ⟨-, same⟩ := Prod.mk.inj (also.unique run')
  obtain ⟨found, memo⟩ := Prod.mk.inj same
  exact ⟨Prod.ext (Outcome.set.inj found) memo, sound'⟩

namespace Analysis

theorem firstOf_erased (s : Symbol) {m : Memo} (sound : m.VanishSound g) :
    firstOf g.erased s m = firstOf g s m ∧ (firstOf g s m).2.VanishSound g := by
  obtain ⟨opened, run⟩ := exists_run_firstOf g s m
  obtain ⟨opened', run'⟩ := exists_run_firstOf g.erased s m
  exact run.eq_of_erased wf noRule sheltered run' trivial sound

theorem firstOfRhs_erased {p : Production} (member : p ∈ g.productionList) {m : Memo}
    (sound : m.VanishSound g) :
    firstOfRhs g.erased p.erased.rhs m = firstOfRhs g p.rhs m ∧
      (firstOfRhs g p.rhs m).2.VanishSound g := by
  obtain ⟨opened, run⟩ := exists_run_firstOfRhs g p.rhs m
  obtain ⟨opened', run'⟩ := exists_run_firstOfRhs g.erased p.erased.rhs m
  exact run.eq_of_erased wf noRule sheltered run' ⟨wf.filled p member, sheltered p member⟩ sound

theorem followOf_erased {s : Symbol} (proper : s ≠ Symbol.empty) {m : Memo}
    (sound : m.VanishSound g) :
    followOf g.erased s m = followOf g s m ∧ (followOf g s m).2.VanishSound g := by
  obtain ⟨opened, run⟩ := exists_run_followOf g s m
  obtain ⟨opened', run'⟩ := exists_run_followOf g.erased s m
  exact run.eq_of_erased wf noRule sheltered run' proper sound

end Analysis

namespace Analysis

omit wf noRule sheltered in
theorem firstOfRhs_empty (g : Grammar) (m : Memo) :
    firstOfRhs g [Symbol.empty] m = (SymbolSet.singleton Symbol.empty, m) := by
  simp [firstOfRhs, firstOfRhs?, firstOfSequence?, SymbolSet.singleton]

/-- The Predict set of a production is the same for the erased grammar but for the empty symbol, and so
are the searches for it. -/
structure PredictsAlike (g : Grammar) (p : Production) (m : Memo) : Prop where
  memo : (predict g.erased p.erased m).2 = (predict g p m).2
  claims : g.erased.claims p.erased m = g.claims p m
  sound : (predict g p m).2.VanishSound g

/-- A production of empty symbols predicts the Follow set of its left-hand side. If it has more than one
of them, the empty symbol comes out too. -/
theorem predictsAlike_of_nil {p : Production} (member : p ∈ g.productionList)
    (hnil : properSymbols p.rhs = []) {m : Memo} (sound : m.VanishSound g) :
    PredictsAlike g p m := by
  obtain ⟨follow, sound'⟩ := followOf_erased wf noRule sheltered (noRule p member) sound
  have erased : predict g.erased p.erased m = followOf g p.lhs m := by
    rw [predict_of_isEmpty (Production.isEmpty_erased.2 hnil), Production.erased_lhs, follow]
  cases hempty : p.isEmpty with
  | true =>
      have given : predict g p m = followOf g p.lhs m := predict_of_isEmpty hempty m
      refine ⟨?_, ?_, ?_⟩
      · rw [erased, given]
      · rw [Grammar.claims, Grammar.claims, erased, given]
      · rw [given]
        exact sound'
  | false =>
      -- the erased right-hand side is one empty symbol, for which no search is made
      have first : firstOfRhs g p.rhs m = (SymbolSet.singleton Symbol.empty, m) := by
        rw [← (firstOfRhs_erased wf noRule sheltered member sound).1, Production.erased_rhs,
          erasedRhs_of_eq_nil hnil, firstOfRhs_empty]
      have given : predict g p m =
          (SymbolSet.singleton Symbol.empty ∪ (followOf g p.lhs m).1, (followOf g p.lhs m).2) := by
        rw [predict_of_mem hempty (by rw [first]; simp), first]
      refine ⟨?_, ?_, ?_⟩
      · rw [erased, given]
      · rw [Grammar.claims, Grammar.claims, erased, given]
        ext t
        simp only [SymbolSet.mem_erase, SymbolSet.mem_union, SymbolSet.mem_singleton]
        constructor
        · rintro ⟨ht, visible⟩
          exact ⟨.inr ht, visible⟩
        · rintro ⟨ht, visible⟩
          exact ⟨ht.resolve_left visible, visible⟩
      · rw [given]
        exact sound'

/-- A production with proper symbols is searched alike. -/
theorem predictsAlike_of_proper {p : Production} (member : p ∈ g.productionList)
    (proper : properSymbols p.rhs ≠ []) {m : Memo} (sound : m.VanishSound g) :
    PredictsAlike g p m := by
  obtain ⟨first, sound₁⟩ := firstOfRhs_erased wf noRule sheltered member sound
  have filled : p.isEmpty = false := Production.isEmpty_of_properSymbols proper
  have filled' : p.erased.isEmpty = false := by
    rw [← Bool.not_eq_true, Production.isEmpty_erased]
    exact proper
  -- what is predicted decides the claims and the memo
  suffices same : predict g.erased p.erased m = predict g p m ∧
      (predict g p m).2.VanishSound g from
    ⟨by rw [same.1], by rw [Grammar.claims, Grammar.claims, same.1], same.2⟩
  by_cases vanishes : Symbol.empty ∈ (firstOfRhs g p.rhs m).1
  · obtain ⟨follow, sound'⟩ := followOf_erased wf noRule sheltered (noRule p member) sound₁
    rw [predict_of_mem filled vanishes, predict_of_mem filled' (by rwa [first]), first,
      Production.erased_lhs, follow]
    exact ⟨rfl, sound'⟩
  · rw [predict_of_not_mem filled vanishes, predict_of_not_mem filled' (by rwa [first]), first]
    exact ⟨rfl, sound₁⟩

theorem predictsAlike {p : Production} (member : p ∈ g.productionList) {m : Memo}
    (sound : m.VanishSound g) : PredictsAlike g p m := by
  by_cases hnil : properSymbols p.rhs = []
  · exact predictsAlike_of_nil wf noRule sheltered member hnil sound
  · exact predictsAlike_of_proper wf noRule sheltered member hnil sound

end Analysis

/-! ## Tables -/

namespace ParseTable

omit wf noRule sheltered in
/-- The erased production claims the same cells, in whatever collisions it is named. -/
theorem claimCells_erased (strict : Bool) (p : Production) (ts : List Symbol) (row : TableRow)
    (collisions collisions' : List Collision) :
    (claimCells strict p.erased ts row collisions').1 = (claimCells strict p ts row collisions).1 ∧
      (claimCells strict p.erased ts row collisions').2.2.isSome =
        (claimCells strict p ts row collisions).2.2.isSome := by
  induction ts generalizing row collisions collisions' with
  | nil => exact ⟨rfl, rfl⟩
  | cons t ts ih =>
      rw [claimCells, claimCells]
      cases row.get? t with
      | none => exact ih (row.insert t p.number) collisions collisions'
      | some n =>
          -- the production is compared by its number, which erasing leaves as it is
          by_cases hn : n = p.number
          · have hn' : n = p.erased.number := hn
            simp only [if_pos hn, if_pos hn']
            exact ih (row.insert t p.number) collisions collisions'
          · have hn' : n ≠ p.erased.number := hn
            cases strict with
            | true =>
                simp only [if_neg hn, if_neg hn', if_true]
                exact ⟨trivial, rfl⟩
            | false =>
                simp only [if_neg hn, if_neg hn', Bool.false_eq_true, if_false]
                exact ih (row.insert t p.number) _ _

/-- The second build has come as far as the first one, and stopped if that has. -/
structure Build.ErasesTo (b b' : Build) : Prop where
  rows : b'.rows = b.rows
  memo : b'.memo = b.memo
  stopped : b'.stopped.isSome = b.stopped.isSome

theorem addProductions_erased (strict : Bool) (ps : List Production)
    (members : ∀ p ∈ ps, p ∈ g.productionList) {b b' : Build} (erases : b.ErasesTo b')
    (sound : b.memo.VanishSound g) :
    (addProductions g strict ps b).ErasesTo
        (addProductions g.erased strict (ps.map Production.erased) b') ∧
      (addProductions g strict ps b).memo.VanishSound g := by
  induction ps generalizing b b' with
  | nil => exact ⟨erases, sound⟩
  | cons p ps ih =>
      have predicts := predictsAlike wf noRule sheltered (members p List.mem_cons_self) sound
      have rows : b'.rowsWith p.lhs = b.rowsWith p.lhs := by
        unfold Build.rowsWith
        rw [erases.rows]
      rw [List.map_cons, addProductions_cons, addProductions_cons, Production.erased_lhs,
        erases.memo, erases.rows, predicts.claims, predicts.memo, rows]
      -- the same cells are claimed of the same row
      obtain ⟨sameRow, sameStop⟩ := claimCells_erased strict p (g.claims p b.memo).toList
        ((ParseTable.mk b.rows).row p.lhs) b.collisions b'.collisions
      rcases hclaim : claimCells strict p (g.claims p b.memo).toList
        ((ParseTable.mk b.rows).row p.lhs) b.collisions with ⟨row, collisions, stop⟩
      rcases hclaim' : claimCells strict p.erased (g.claims p b.memo).toList
        ((ParseTable.mk b.rows).row p.lhs) b'.collisions with ⟨row', collisions', stop'⟩
      rw [hclaim, hclaim'] at sameRow sameStop
      obtain rfl : row' = row := sameRow
      cases stop with
      | none =>
          obtain rfl : stop' = none := by simpa using sameStop
          apply ih
          · exact fun q hq => members q (List.mem_cons_of_mem _ hq)
          · exact ⟨rfl, rfl, rfl⟩
          · exact predicts.sound
      | some c =>
          obtain ⟨c', rfl⟩ : ∃ c', stop' = some c' := by
            simpa [Option.isSome_iff_exists] using sameStop
          exact ⟨⟨rfl, rfl, rfl⟩, predicts.sound⟩

/-- The build for the erased grammar gives the same table, or fails as well. -/
theorem build_erased (strict : Bool) {m : Memo} (sound : m.VanishSound g) :
    (build g strict m).ErasesTo (build g.erased strict m) ∧
      (build g strict m).memo.VanishSound g := by
  unfold build
  rw [Grammar.productionList_erased]
  exact addProductions_erased wf noRule sheltered strict g.productionList (fun p hp => hp)
    ⟨rfl, rfl, rfl⟩ sound

omit wf noRule sheltered in
theorem Build.ErasesTo.toOption_result {b b' : Build} (erases : b.ErasesTo b') :
    (b'.result g.erased).toOption = (b.result g).toOption := by
  have stopped := erases.stopped
  cases h : b.stopped with
  | none =>
      obtain h' : b'.stopped = none := by simpa [h] using stopped
      rw [result_of_going h, result_of_going h', erases.rows]
  | some c =>
      obtain ⟨c', h'⟩ : ∃ c', b'.stopped = some c' := by
        simpa [h, Option.isSome_iff_exists] using stopped
      rw [result_of_stopped h, result_of_stopped h']
      rfl

end ParseTable

/-! ## Histories -/

namespace Analysis

omit wf noRule sheltered in
theorem searchAll_alike {P : Memo → Prop} {search search' : Symbol → Memo → SymbolSet × Memo}
    (ss : List Symbol)
    (same : ∀ s ∈ ss, ∀ m, P m → search' s m = search s m ∧ P (search s m).2) {m : Memo}
    (hm : P m) : searchAll search' ss m = searchAll search ss m ∧ P (searchAll search ss m) := by
  induction ss generalizing m with
  | nil => exact ⟨rfl, hm⟩
  | cons s ss ih =>
      obtain ⟨head, kept⟩ := same s List.mem_cons_self m hm
      rw [searchAll, searchAll, head]
      exact ih (fun x hx => same x (List.mem_cons_of_mem _ hx)) kept

end Analysis

namespace Request

omit wf noRule sheltered in
/-- The request is for something that a grammar and the erased one both have. -/
def Shared : Request → Prop
  | .query (.firstOf _) | .query (.predictNumber _) | .query .firstSets | .query .followSets => True
  | .query (.followOf s) => s ≠ Symbol.empty
  | .query (.firstOfRhs _) | .query (.predict _) | .query .predictSets => False
  | .table _ => True

theorem run_erased {r : Request} (shared : r.Shared) {m : Memo} (sound : m.VanishSound g) :
    r.run g.erased m = r.run g m ∧ (r.run g m).VanishSound g := by
  cases r with
  | query q =>
      cases q with
      | firstOf s =>
          obtain ⟨same, sound'⟩ := firstOf_erased wf noRule sheltered s sound
          rw [run, run, Query.run, Query.run, same]
          exact ⟨rfl, sound'⟩
      | followOf s =>
          obtain ⟨same, sound'⟩ := followOf_erased wf noRule sheltered shared sound
          rw [run, run, Query.run, Query.run, same]
          exact ⟨rfl, sound'⟩
      -- these requests are given a right-hand side or a production of one of the two grammars
      | firstOfRhs rhs => exact shared.elim
      | predict p => exact shared.elim
      | predictNumber n =>
          rw [run, run, Query.run, Query.run, Grammar.getProduction, Grammar.getProduction,
            Grammar.production?_erased]
          cases h : g.production? n with
          | none => exact ⟨rfl, sound⟩
          | some p =>
              have alike := predictsAlike wf noRule sheltered (Grammar.mem_productionList h) sound
              exact ⟨alike.memo, alike.sound⟩
      | firstSets =>
          rw [run, run, Query.run, Query.run, firstSets, firstSets, Grammar.nonterminals_erased]
          exact searchAll_alike g.nonterminals
            (fun s _ m => firstOf_erased wf noRule sheltered s) sound
      | followSets =>
          rw [run, run, Query.run, Query.run, followSets, followSets, Grammar.nonterminals_erased]
          refine searchAll_alike g.nonterminals (fun s hs m => ?_) sound
          obtain ⟨p, hp, rfl⟩ := Grammar.mem_nonterminals.1 hs
          exact followOf_erased wf noRule sheltered (noRule p hp)
      | predictSets => exact shared.elim
  | table strict =>
      obtain ⟨erases, sound'⟩ := ParseTable.build_erased wf noRule sheltered strict sound
      exact ⟨erases.memo, sound'⟩

theorem runAll_erased (requests : List Request) (shared : ∀ r ∈ requests, r.Shared) {m : Memo}
    (sound : m.VanishSound g) :
    runAll g.erased requests m = runAll g requests m ∧ (runAll g requests m).VanishSound g := by
  induction requests generalizing m with
  | nil => exact ⟨rfl, sound⟩
  | cons r requests ih =>
      obtain ⟨same, sound'⟩ := run_erased wf noRule sheltered (shared r List.mem_cons_self) sound
      have later := ih (fun q hq => shared q (List.mem_cons_of_mem _ hq)) sound'
      rw [runAll, runAll, List.foldl_cons, List.foldl_cons, same]
      exact later

end Request

end Sheltered

end Predictive
