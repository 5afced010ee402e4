import Predictive.Proofs.FollowExact
import Predictive.Proofs.TableBuild

/-!
# Strict builds and conflicts

A production claims no cell that it does not predict, so a strict build stops only at a conflict
(`conflict_of_stoppedAt`). Without left recursion it claims all cells that begin its right-hand side,
and by a closed memo all that it predicts; then a strict build that does not stop shows that the
grammar is LL(1) (`isLL1_of_build`). `strict_build_error_iff` puts this together.

Where the Follow sets that are found are not closed, a conflict can go unnoticed: `overlooked` is such a
grammar, without left recursion.
-/

set_option autoImplicit false

namespace Predictive

open Analysis

variable {g : Grammar}

namespace ParseTable

/-! ## Claims and predictions -/

/-- Claims of a production from a true memo are predictions. -/
theorem inPredict_of_mem_claims (plain : g.Plain) {p : Production} (hp : p ∈ g.productionList)
    {m : Memo} (holds : m.FollowHolds g []) {t : Symbol} (ht : t ∈ g.claims p m) :
    InPredict g p t := by
  obtain ⟨ht, visible⟩ := SymbolSet.mem_erase.1 ht
  exact (predict_spec plain hp holds).sound t ht visible

/-- A strict build stops at a conflict. -/
theorem conflict_of_stoppedAt (plain : g.Plain) {p q : Production} {t : Symbol} {b : Build}
    (holds : b.memo.FollowHolds g []) (hp : p ∈ g.productionList) (hq : q ∈ g.productionList)
    (h : b.StoppedAt g p q t) : g.Conflict q p t := by
  obtain ⟨hlhs, hne, hqt, hpt, -⟩ := h
  exact ⟨hq, hp, fun e => hne (by rw [e]), hlhs, inPredict_of_mem_claims plain hq holds hqt,
    inPredict_of_mem_claims plain hp holds hpt⟩

/-- After a strict build that does not stop, no two productions of one symbol claim a cell. -/
theorem eq_of_claims (wf : g.WellFormed) {m : Memo} {b : Build}
    (holds : b.Holds g true m g.productionList) {p q : Production} (hp : p ∈ g.productionList)
    (hq : q ∈ g.productionList) (hlhs : p.lhs = q.lhs) {t : Symbol} (hpt : t ∈ g.claims p b.memo)
    (hqt : t ∈ g.claims q b.memo) : p = q := by
  obtain ⟨n, hn, hpn⟩ := holds.filled p hp t hpt
  obtain ⟨k, hk, hqk⟩ := holds.filled q hq t hqt
  rw [hlhs, hk, Option.some.injEq] at hn
  exact wf.eq_of_number_eq hp hq (by rw [← hpn rfl, ← hqk rfl, hn])

/-- A token that begins a right-hand side is claimed. -/
theorem mem_claims_of_inFirstOf (plain : g.Plain) (free : g.IsLeftRecursionFree) {p : Production}
    (hp : p ∈ g.productionList) {m : Memo} (holds : m.FollowHolds g []) {t : Symbol}
    (ht : InFirstOf g p.rhs t) (visible : t ≠ Symbol.empty) : t ∈ g.claims p m :=
  SymbolSet.mem_erase.2 ⟨(predict_spec plain hp holds).first free t ht visible, visible⟩

/-- The empty symbol is in no Follow set. -/
theorem InFollow.visible {s t : Symbol} (h : InFollow g s t) : t ≠ Symbol.empty := by
  induction h with
  | start => decide
  | next _ _ _ visible => exact visible
  | last _ _ _ _ ih => exact ih

/-- By a closed memo that has the answers for a production, it claims all that it predicts. -/
theorem mem_claims_of_inPredict (plain : g.Plain) (free : g.IsLeftRecursionFree) {p : Production}
    (hp : p ∈ g.productionList) {m : Memo} (holds : m.FollowHolds g []) (closed : m.FollowClosed g)
    (again : (predict g p m).2 = m) {t : Symbol} (ht : InPredict g p t) : t ∈ g.claims p m := by
  cases ht with
  | first h visible => exact mem_claims_of_inFirstOf plain free hp holds h visible
  | follow vanishes h =>
      obtain ⟨follow, hfollow, flow⟩ := (predict_spec plain hp holds).follow free vanishes
      rw [again] at hfollow
      exact SymbolSet.mem_erase.2
        ⟨flow t (holds.complete free closed hfollow h), InFollow.visible h⟩

/-- A build leaves a closed memo if single queries do. -/
theorem followClosed_of_build (closes : g.QueriesClose) (plain : g.Plain)
    (free : g.IsLeftRecursionFree) (strict : Bool) :
    (build g strict .empty).memo.FollowClosed g :=
  (build_keeps (closes.keptBySearches plain free) strict (Memo.settled_empty g)).closed

/-- A build from a true memo that is strict, does not stop and leaves a closed memo shows that the
grammar is LL(1). -/
theorem isLL1_of_build (wf : g.WellFormed) (plain : g.Plain) (free : g.IsLeftRecursionFree)
    {m : Memo} (holds : m.FollowHolds g []) {t : ParseTable}
    (h : (build g true m).result g = .ok t) (closed : (build g true m).memo.FollowClosed g) :
    g.IsLL1 := by
  rintro p q a ⟨hp, hq, hne, hlhs, hpa, hqa⟩
  rcases build_spec g true m with ⟨-, built⟩ | ⟨-, p, -, q, -, a, -, -, -, -, hstop⟩
  · have holds' := built.memo.holds plain holds
    exact hne (eq_of_claims wf built hp hq hlhs
      (mem_claims_of_inPredict plain free hp holds' closed (built.again p hp) hpa)
      (mem_claims_of_inPredict plain free hq holds' closed (built.again q hq) hqa))
  · rw [Build.result_of_stopped hstop] at h
    exact absurd h (by simp)

/-- So whether a grammar is LL(1) can be computed, wherever the memo left is seen to be closed. -/
theorem isLL1_of_passed (wf : g.WellFormed) (alone : g.EmptyStandsAlone)
    (free : g.IsLeftRecursionFree) {m : Memo} (holds : m.FollowHolds g [])
    (passed : ((build g true m).result g).isOk = true)
    (check : (build g true m).memo.ClosedAsFound g) : g.IsLL1 := by
  have plain := wf.plain alone
  obtain ⟨table, h⟩ := exists_eq_ok passed
  apply isLL1_of_build wf plain free holds h
  exact followClosed_of_found plain free ((build_advances g true m).holds plain holds) check

/-- A build for an LL(1) grammar does not stop, and its table has a number in a cell exactly where the
production with the number claims the cell. -/
theorem build_of_isLL1 (plain : g.Plain) (ll1 : g.IsLL1) (strict : Bool) {m : Memo}
    (holds : m.FollowHolds g []) :
    (build g strict m).stopped = none ∧
      ∀ s t n, (ParseTable.mk (build g strict m).rows).cell? s t = some n ↔
        ∃ p ∈ g.productionList, p.lhs = s ∧ p.number = n ∧
          t ∈ g.claims p (build g strict m).memo := by
  have holds' := (build_advances g strict m).holds plain holds
  rcases build_spec g strict m with ⟨going, built⟩ | ⟨-, p, hp, q, hq, t, hstop⟩
  · refine ⟨going, fun s t n => ⟨built.owned s t n, ?_⟩⟩
    rintro ⟨p, hp, rfl, rfl, ht⟩
    obtain ⟨n, hn, -⟩ := built.filled p hp t ht
    obtain ⟨q, hq, hlhs, rfl, hqt⟩ := built.owned p.lhs t n hn
    have hpq : p = q := Classical.byContradiction fun hne =>
      ll1 p q t ⟨hp, hq, hne, hlhs.symm, inPredict_of_mem_claims plain hp holds' ht,
        inPredict_of_mem_claims plain hq holds' hqt⟩
    rw [hn, hpq]
  · exact absurd (conflict_of_stoppedAt plain holds' hp hq hstop) (ll1 q p t)

/-! ## Strict builds -/

/-- The detail about a collision of two productions. -/
theorem describe_collision (wf : g.WellFormed) {p q : Production} (hp : p ∈ g.productionList)
    (t : Symbol) :
    Collision.describe g ⟨q.lhs, t, p.number, q⟩ =
      "Collision in " ++ q.lhs ++ " for " ++ t ++ ": " ++ p.render ++ ", " ++ q.render := by
  have hrender : ((g.production? p.number).map Production.render).getD "" = p.render := by
    rw [wf.production?_number hp, Option.map_some, Option.getD_some]
  unfold Collision.describe
  rw [← hrender]

/-- A strict build of a new analysis fails only at a conflict, whose productions the message names.
Without left recursion it fails if two right-hand sides of one symbol begin with one token; and it
decides whether there is a conflict if the Follow sets that it finds are closed under the flow. They
are if each single query for a Follow set leaves closed ones, in particular if no symbol needs itself
over others. -/
theorem strict_build_error_iff (wf : g.WellFormed) (alone : g.EmptyStandsAlone) :
    (∀ fault, (build g true .empty).result g = .error fault →
      ∃ p q t, g.Conflict p q t ∧ fault = .collision
        ("Collision in " ++ q.lhs ++ " for " ++ t ++ ": " ++ p.render ++ ", " ++ q.render)) ∧
    (g.IsLeftRecursionFree →
      (∀ p ∈ g.productionList, ∀ q ∈ g.productionList, p ≠ q → p.lhs = q.lhs →
        ∀ t, t ≠ Symbol.empty → InFirstOf g p.rhs t → InFirstOf g q.rhs t →
          ∃ fault, (build g true .empty).result g = .error fault) ∧
      ((build g true .empty).memo.FollowClosed g →
        ((∃ fault, (build g true .empty).result g = .error fault) ↔
          ∃ p q t, g.Conflict p q t)) ∧
      (g.QueriesClose → (build g true .empty).memo.FollowClosed g) ∧
      ((∀ s, ¬ Relation.TransGen (NeedsFollow g) s s) → g.QueriesClose)) := by
  have plain := wf.plain alone
  have holds : (build g true .empty).memo.FollowHolds g [] :=
    (build_advances g true .empty).holds plain (Memo.followHolds_empty g)
  -- a build stops where two productions claim a cell, and what is claimed is predicted
  have sound : ∀ fault, (build g true .empty).result g = .error fault →
      ∃ p q t, g.Conflict p q t ∧ fault = .collision
        ("Collision in " ++ q.lhs ++ " for " ++ t ++ ": " ++ p.render ++ ", " ++ q.render) := by
    intro fault h
    rcases build_spec g true .empty with ⟨going, -⟩ | ⟨-, p, hp, q, hq, t, hstop⟩
    · rw [Build.result_of_going going] at h
      exact absurd h (by simp)
    · refine ⟨q, p, t, conflict_of_stoppedAt plain holds hp hq hstop, ?_⟩
      rw [Build.result_of_stopped hstop.2.2.2.2, describe_collision wf hq] at h
      cases h
      rfl
  refine ⟨sound, fun free => ⟨?_, ?_, ?_, Grammar.queriesClose_of_acyclic plain free⟩⟩
  · intro p hp q hq hne hlhs t visible hpt hqt
    rcases build_spec g true .empty with ⟨-, built⟩ | ⟨-, p, -, q, -, t, -, -, -, -, hstop⟩
    · exact absurd (eq_of_claims wf built hp hq hlhs
        (mem_claims_of_inFirstOf plain free hp holds hpt visible)
        (mem_claims_of_inFirstOf plain free hq holds hqt visible)) hne
    · exact ⟨_, Build.result_of_stopped hstop⟩
  · intro closed
    constructor
    · rintro ⟨fault, h⟩
      obtain ⟨p, q, t, conflict, -⟩ := sound fault h
      exact ⟨p, q, t, conflict⟩
    · rintro ⟨p, q, t, conflict⟩
      cases h : (build g true .empty).result g with
      | error fault => exact ⟨fault, rfl⟩
      | ok table =>
          -- a table that was built from closed sets is free of conflicts
          exact absurd conflict
            (isLL1_of_build wf plain free (Memo.followHolds_empty g) h closed p q t)
  · intro closes
    exact followClosed_of_build closes plain free true

/-- A grammar with a token that can continue two phrases. -/
def dangling : Grammar :=
  .ofRules [⟨"S", ["\"if\"", "S", "E"]⟩, ⟨"S", ["\"do\""]⟩, ⟨"E", ["\"else\"", "S"]⟩, ⟨"E", []⟩]
    .inferred ⟨.null, .null⟩

/-- The strict build of `dangling` fails, so the grammar has a conflict. -/
theorem strict_build_error_dangling :
    dangling.WellFormed ∧ dangling.EmptyStandsAlone ∧ ∃ p q t, dangling.Conflict p q t := by
  have wf : dangling.WellFormed := Grammar.wellFormed_ofRules _ _ (by simp)
  have alone : dangling.EmptyStandsAlone := by
    unfold Grammar.EmptyStandsAlone
    decide +kernel
  have failed : ((build dangling true .empty).result dangling).isOk = false := by decide +kernel
  obtain ⟨fault, h⟩ := exists_eq_error failed
  obtain ⟨p, q, t, conflict, -⟩ := (strict_build_error_iff wf alone).1 fault h
  exact ⟨wf, alone, p, q, t, conflict⟩

/-- The grammar `crossed`, with the token that follows `B` as another production of `B`. -/
def overlooked : Grammar :=
  .ofRules [⟨"S", ["T"]⟩, ⟨"A", ["\"a\"", "B"]⟩, ⟨"A", []⟩, ⟨"B", ["\"b\"", "A"]⟩,
    ⟨"B", ["\"c\""]⟩, ⟨"B", []⟩, ⟨"T", ["A", "\"c\""]⟩] .inferred ⟨.null, .null⟩

/-- The strict build of `overlooked` does not fail, although one production of `B` begins with a token
that follows `B`, before which another one vanishes. The grammar has no left recursion. -/
theorem not_strict_build_error_overlooked :
    ¬ ∀ g : Grammar, g.WellFormed → g.EmptyStandsAlone → g.IsLeftRecursionFree →
      ((∃ fault, (build g true .empty).result g = .error fault) ↔ ∃ p q t, g.Conflict p q t) := by
  intro decides
  have wf : overlooked.WellFormed := Grammar.wellFormed_ofRules _ _ (by simp)
  have alone : overlooked.EmptyStandsAlone := by
    unfold Grammar.EmptyStandsAlone
    decide +kernel
  have free : overlooked.IsLeftRecursionFree :=
    isLeftRecursionFree_of_ranksFall (fun s => s == "A" || s == "B")
      (fun s => if s = "S" then 3 else if s = "T" then 2 else if s = "A" ∨ s = "B" then 1 else 0)
      (by decide +kernel)
  have begins : InFirstOf overlooked ["\"c\""] "\"c\"" :=
    .head (by decide) (.token (by decide +kernel)) (by decide)
  have follows : InFollow overlooked "B" "\"c\"" := by
    have usesA : (⟨7, "T", ["A", "\"c\""]⟩ : Production).rhs = [] ++ "A" :: ["\"c\""] := rfl
    have usesB : (⟨2, "A", ["\"a\"", "B"]⟩ : Production).rhs = ["\"a\""] ++ "B" :: [] := rfl
    -- what follows `A` follows `B`, with which a production of `A` ends
    exact .last (by decide +kernel) usesB .nil
      (.next (by decide +kernel) usesA begins (by decide))
  have conflict : overlooked.Conflict ⟨5, "B", ["\"c\""]⟩ ⟨6, "B", [Symbol.empty]⟩ "\"c\"" :=
    ⟨by decide +kernel, by decide +kernel, by decide, rfl, .first begins (by decide),
      .follow (.empty .nil) follows⟩
  obtain ⟨fault, h⟩ := (decides overlooked wf alone free).2 ⟨_, _, _, conflict⟩
  have passed : ((build overlooked true .empty).result overlooked).isOk = true := by decide +kernel
  obtain ⟨table, built⟩ := exists_eq_ok passed
  exact absurd (built.symm.trans h) (by simp)

end ParseTable

end Predictive
