import Predictive.Proofs.Queries

/-!
# Closed memos

The entries of a memo are the least Follow sets when they are closed under the flow between them
(`Memo.FollowClosed`), and a query for one more symbol finds its least Follow set then
(`mem_followOf_of_inFollow`). Left recursion aside, the memo can fail to be closed only where symbols
need each other: a search that comes back to a symbol under way reads an entry that is not complete,
and what it makes of it stays in the memo.
-/

set_option autoImplicit false

namespace Predictive

open Analysis

variable {g : Grammar}

/-- Each entry holds the Follow sets found for the symbols that its symbol needs. -/
def Memo.FollowClosed (g : Grammar) (m : Memo) : Prop :=
  ∀ s l, NeedsFollow g s l → m.follow.contains s = true →
    ∀ t ∈ m.followAt l, t ∈ m.followAt s

/-! ## Closed memos are complete -/

/-- The entries of a closed memo are complete. -/
theorem Memo.FollowHolds.complete {m : Memo} (holds : m.FollowHolds g [])
    (free : g.IsLeftRecursionFree) (closed : m.FollowClosed g) {s t : Symbol} {found : SymbolSet}
    (entry : m.follow.get? s = some found) (ht : InFollow g s t) : t ∈ found := by
  refine follow_induction (P := fun s t => ∀ found, m.follow.get? s = some found → t ∈ found)
    (fun s t own found entry => holds.own free s found (by simp) entry t own)
    (fun s l t hl _ ih found entry => ?_) ht found entry
  obtain ⟨follow, hfollow, -⟩ := holds.needs free s found (by simp) entry l hl
  rw [← followAt_eq entry]
  refine closed s l hl (OrderedMap.contains_iff.2 ⟨found, entry⟩) t ?_
  rw [followAt_eq hfollow]
  exact ih follow hfollow

/-- Each entry is the least Follow set of its symbol. -/
def Memo.FollowComplete (g : Grammar) (m : Memo) : Prop :=
  ∀ s found, m.follow.get? s = some found → ∀ t, t ∈ found ↔ InFollow g s t

theorem Memo.FollowHolds.followComplete {m : Memo} (holds : m.FollowHolds g [])
    (free : g.IsLeftRecursionFree) (closed : m.FollowClosed g) : m.FollowComplete g :=
  fun s found entry t => ⟨holds.sound s found entry t, holds.complete free closed entry⟩

/-- What a query finds is in the least set. -/
theorem inFollow_of_mem_followOf (plain : g.Plain) {m : Memo} (holds : m.FollowHolds g [])
    {s t : Symbol} (ht : t ∈ (followOf g s m).1) : InFollow g s t := by
  obtain ⟨answered, keeps⟩ := followOf_spec g s m
  exact (keeps plain holds).1.sound s _ answered.entry t ht

/-- The search from a closed memo finds a complete set: what all new entries have of their own and
need of old ones is harvested. -/
theorem mem_followOf_of_inFollow (plain : g.Plain) (free : g.IsLeftRecursionFree) {m : Memo}
    (holds : m.FollowHolds g []) (closed : m.FollowClosed g) {s t : Symbol}
    (ht : InFollow g s t) : t ∈ (followOf g s m).1 := by
  obtain ⟨answered, keeps⟩ := followOf_spec g s m
  obtain ⟨holds', harvested⟩ := keeps plain holds
  have harvested := harvested free
  cases hs : m.follow.get? s with
  | some found =>
      rw [followOf_of_entry hs]
      exact holds.complete free closed hs ht
  | none =>
      rw [← Memo.followAt_eq answered.entry]
      -- the members of all new sets, not only of that of `s`, are in the set of `s`
      refine follow_induction
        (P := fun y t => ∀ found, m.follow.get? y = none →
          (followOf g s m).2.follow.get? y = some found → t ∈ (followOf g s m).2.followAt s)
        (fun y t own found absent present => (harvested y found absent present).own t own)
        (fun y l t hl hlt ih found absent present => ?_) ht _ hs answered.entry
      obtain ⟨follow, hfollow, -⟩ := holds'.needs free y found (by simp) present l hl
      cases hold : m.follow.get? l with
      | some old =>
          refine (harvested y found absent present).needs l old hl hold t ?_
          exact holds.complete free closed hold hlt
      | none => exact ih follow hold hfollow

/-! ## When a memo is closed -/

theorem Memo.FollowComplete.closed {m : Memo} (complete : m.FollowComplete g) :
    m.FollowClosed g := by
  intro s l hl hs t ht
  obtain ⟨found, entry⟩ := OrderedMap.contains_iff.1 hs
  obtain ⟨follow, hfollow, ht⟩ := Memo.exists_of_mem_followAt ht
  rw [Memo.followAt_eq entry]
  exact (complete s found entry t).2 (hl.inFollow ((complete l follow hfollow t).1 ht))

/-- Queries for the nonterminals find their least Follow sets. -/
def Memo.FollowExact (g : Grammar) (m : Memo) : Prop :=
  ∀ s ∈ g.nonterminals, ∀ t, t ∈ (followOf g s m).1 ↔ InFollow g s t

/-- A memo from which the least sets are found is closed: only nonterminals can be needed, so the
entry of any other symbol is complete in any case. -/
theorem followClosed_of_exact {m : Memo} (holds : m.FollowHolds g [])
    (free : g.IsLeftRecursionFree) (exact : m.FollowExact g) : m.FollowClosed g := by
  intro s l hl hs t ht
  obtain ⟨found, entry⟩ := OrderedMap.contains_iff.1 hs
  obtain ⟨follow, hfollow, flow⟩ := holds.needs free s found (by simp) entry l hl
  rw [Memo.followAt_eq hfollow] at ht
  rw [Memo.followAt_eq entry]
  rcases flow with back | ⟨-, flow⟩
  · -- the two symbols need each other, so `s` has a production and was asked for
    have hmem : s ∈ g.nonterminals := by
      rcases Relation.ReflTransGen.cases_tail back with rfl | ⟨y, -, -, p, member, hlhs, -⟩
      · exact absurd rfl hl.1
      · exact Grammar.mem_nonterminals.2 ⟨p, member, hlhs⟩
    have hfound := (exact s hmem t).2 (hl.inFollow (holds.sound l follow hfollow t ht))
    rwa [followOf_of_entry entry] at hfound
  · exact flow t ht

theorem followExact_iff_closed (plain : g.Plain) (free : g.IsLeftRecursionFree) {m : Memo}
    (holds : m.FollowHolds g []) : m.FollowExact g ↔ m.FollowClosed g := by
  constructor
  · exact followClosed_of_exact holds free
  · intro closed s _ t
    exact ⟨inFollow_of_mem_followOf plain holds, mem_followOf_of_inFollow plain free holds closed⟩

/-- A memo is closed when no symbol needs itself over others. -/
theorem followClosed_of_acyclic {m : Memo} (holds : m.FollowHolds g [])
    (free : g.IsLeftRecursionFree)
    (acyclic : ∀ s, ¬ Relation.TransGen (NeedsFollow g) s s) : m.FollowClosed g := by
  intro s l hl hs t ht
  obtain ⟨found, entry⟩ := OrderedMap.contains_iff.1 hs
  obtain ⟨follow, hfollow, flow⟩ := holds.needs free s found (by simp) entry l hl
  rw [Memo.followAt_eq hfollow] at ht
  rw [Memo.followAt_eq entry]
  rcases flow with back | ⟨-, flow⟩
  · exact absurd (Relation.TransGen.head' hl back) (acyclic s)
  · exact flow t ht

/-- What the empty symbol in the First set of the rest found for a use says about it. -/
theorem mem_firstOfRhs_of_vanishes (plain : g.Plain) (free : g.IsLeftRecursionFree) {m : Memo}
    (holds : m.FollowHolds g []) {p : Production} (member : p ∈ g.productionList) {s : Symbol}
    {before rest : List Symbol} (used : p.rhs = before ++ s :: rest)
    (vanishes : InFirstOf g rest Symbol.empty) :
    rest = [] ∨ Symbol.empty ∈ (firstOfRhs g rest m).1 := by
  by_cases hrest : rest = []
  · exact .inl hrest
  · obtain ⟨-, -, keeps⟩ := firstOfRhs_spec g rest m
    -- the empty symbol would be the whole right-hand side, but `s` stands before the rest
    have alone : Symbol.empty ∈ rest → rest = [Symbol.empty] := by
      intro h
      have := (plain p member).2.2 (used ▸ List.mem_append_right _ (List.mem_cons_of_mem _ h))
      rw [used] at this
      have hlength := congrArg List.length this
      simp only [List.length_append, List.length_cons, List.length_nil] at hlength
      exact absurd (List.length_eq_zero_iff.1 (by omega)) hrest
    exact .inr (((keeps plain holds.first).2 hrest alone).complete free _ vanishes)

/-- The entries are closed under the flow as the First sets that are found from the memo show it. -/
def Memo.ClosedAsFound (g : Grammar) (m : Memo) : Prop :=
  ∀ p ∈ g.productionList, ∀ s ∈ p.rhs, ∀ rest ∈ restsAfter s p.rhs,
    (rest = [] ∨ Symbol.empty ∈ (firstOfRhs g rest m).1) → m.follow.contains s = true →
      ∀ t ∈ (m.followAt p.lhs).toList, t ∈ m.followAt s

instance (g : Grammar) (m : Memo) : Decidable (m.ClosedAsFound g) := by
  delta Memo.ClosedAsFound
  infer_instance

/-- So whether a memo is closed can be computed. -/
theorem followClosed_of_found (plain : g.Plain) (free : g.IsLeftRecursionFree) {m : Memo}
    (holds : m.FollowHolds g []) (check : m.ClosedAsFound g) : m.FollowClosed g := by
  rintro s l ⟨-, p, member, rfl, before, rest, used, vanishes⟩ hs t ht
  have hmem : s ∈ p.rhs := used ▸ List.mem_append_right _ List.mem_cons_self
  exact check p member s hmem rest (mem_restsAfter.2 ⟨before, used⟩)
    (mem_firstOfRhs_of_vanishes plain free holds member used vanishes) hs t ht

end Predictive
