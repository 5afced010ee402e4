import Predictive.Analysis.Predict
import Predictive.Proofs.FollowSearch

/-!
# Queries to the analysis

Whatever is asked, the memo of the analysis keeps its entries and stays true (`Query.runAll_advances`).
Hence a set that has been given is given again (`predict_again`), however many questions come in
between. The Predict set that is found for a production is made of its First set and of what the memo
holds for the Follow set of its left-hand side (`predict_spec`).
-/

set_option autoImplicit false

namespace Predictive

variable {g : Grammar}

/-! ## Advances -/

/-- The second memo has all entries of the first one, and is true if the first one is. -/
structure Advances (g : Grammar) (m m' : Memo) : Prop where
  first : m.first.Extends m'.first
  follow : m.follow.Extends m'.follow
  holds : g.Plain → m.FollowHolds g [] → m'.FollowHolds g []

theorem Advances.refl (g : Grammar) (m : Memo) : Advances g m m := ⟨.refl _, .refl _, fun _ => id⟩

theorem Advances.trans {m m₁ m' : Memo} (h : Advances g m m₁) (k : Advances g m₁ m') :
    Advances g m m' :=
  ⟨h.first.trans k.first, h.follow.trans k.follow,
    fun plain holds => k.holds plain (h.holds plain holds)⟩

namespace Analysis

theorem firstOf_advances (g : Grammar) (s : Symbol) (m : Memo) :
    Advances g m (firstOf g s m).2 := by
  obtain ⟨answered, keeps⟩ := firstOf_spec g s m
  exact ⟨answered.kept, answered.follow ▸ .refl _,
    fun plain holds => holds.of_follow_eq (keeps plain holds.first) answered.follow⟩

theorem firstOfRhs_advances (g : Grammar) (rhs : List Symbol) (m : Memo) :
    Advances g m (firstOfRhs g rhs m).2 := by
  obtain ⟨kept, follow, keeps⟩ := firstOfRhs_spec g rhs m
  exact ⟨kept, follow ▸ .refl _,
    fun plain holds => holds.of_follow_eq (keeps plain holds.first).1 follow⟩

theorem followOf_advances (g : Grammar) (s : Symbol) (m : Memo) :
    Advances g m (followOf g s m).2 := by
  obtain ⟨answered, keeps⟩ := followOf_spec g s m
  exact ⟨answered.first, answered.kept, fun plain holds => (keeps plain holds).1⟩

/-! ## Predict sets -/

theorem predict_of_isEmpty {p : Production} (h : p.isEmpty = true) (m : Memo) :
    predict g p m = followOf g p.lhs m := by
  rw [predict, if_pos h]

theorem predict_of_mem {p : Production} (h : p.isEmpty = false) {m : Memo}
    (hempty : Symbol.empty ∈ (firstOfRhs g p.rhs m).1) :
    predict g p m =
      ((firstOfRhs g p.rhs m).1 ∪ (followOf g p.lhs (firstOfRhs g p.rhs m).2).1,
        (followOf g p.lhs (firstOfRhs g p.rhs m).2).2) := by
  simp only [predict, h, Bool.false_eq_true, if_false, if_pos hempty]

theorem predict_of_not_mem {p : Production} (h : p.isEmpty = false) {m : Memo}
    (hempty : Symbol.empty ∉ (firstOfRhs g p.rhs m).1) :
    predict g p m = firstOfRhs g p.rhs m := by
  simp only [predict, h, Bool.false_eq_true, if_false, if_neg hempty]

/-- The set is the First set of the right-hand side and, if that can vanish, the entry of the memo for
the Follow set of the left-hand side. -/
structure Predicts (g : Grammar) (p : Production) (found : SymbolSet) (m : Memo) : Prop where
  sound : ∀ t ∈ found, t ≠ Symbol.empty → InPredict g p t
  first : g.IsLeftRecursionFree → ∀ t, InFirstOf g p.rhs t → t ≠ Symbol.empty → t ∈ found
  follow : g.IsLeftRecursionFree → InFirstOf g p.rhs Symbol.empty →
    ∃ follow, m.follow.get? p.lhs = some follow ∧ ∀ t ∈ follow, t ∈ found

theorem predicts_of_isEmpty {p : Production} {m : Memo} {found : SymbolSet}
    (h : p.rhs = [Symbol.empty]) (entry : m.follow.get? p.lhs = some found)
    (sound : ∀ t ∈ found, InFollow g p.lhs t) : Predicts g p found m := by
  have vanishes : InFirstOf g p.rhs Symbol.empty := h ▸ .empty .nil
  refine ⟨fun t ht _ => .follow vanishes (sound t ht), fun _ t ht visible => ?_,
    fun _ _ => ⟨found, entry, fun t ht => ht⟩⟩
  rw [h, inFirstOf_empty_cons, inFirstOf_nil_iff] at ht
  exact absurd ht visible

theorem predicts_of_mem {p : Production} {m : Memo} {first follow : SymbolSet}
    (gathered : FirstGathered g p.rhs ∅ first) (hempty : Symbol.empty ∈ first)
    (entry : m.follow.get? p.lhs = some follow) (sound : ∀ t ∈ follow, InFollow g p.lhs t) :
    Predicts g p (first ∪ follow) m := by
  have inFirst : ∀ t ∈ first, InFirstOf g p.rhs t := fun t ht =>
    (gathered.sound t ht).resolve_left (SymbolSet.not_mem_empty t)
  refine ⟨?_, ?_, fun _ _ => ⟨follow, entry, fun t ht => SymbolSet.mem_union.2 (.inr ht)⟩⟩
  · intro t ht visible
    rcases SymbolSet.mem_union.1 ht with ht | ht
    · exact .first (inFirst t ht) visible
    · exact .follow (inFirst _ hempty) (sound t ht)
  · intro free t ht _
    exact SymbolSet.mem_union.2 (.inl (gathered.complete free t ht))

theorem predicts_of_not_mem {p : Production} {m : Memo} {first : SymbolSet}
    (gathered : FirstGathered g p.rhs ∅ first) (hempty : Symbol.empty ∉ first) :
    Predicts g p first m := by
  refine ⟨fun t ht visible => ?_, fun free t ht _ => gathered.complete free t ht,
    fun free vanishes => absurd (gathered.complete free _ vanishes) hempty⟩
  exact .first ((gathered.sound t ht).resolve_left (SymbolSet.not_mem_empty t)) visible

/-- What a query for the Predict set of a production finds. -/
theorem predict_spec (plain : g.Plain) {p : Production} (member : p ∈ g.productionList) {m : Memo}
    (holds : m.FollowHolds g []) : Predicts g p (predict g p m).1 (predict g p m).2 := by
  obtain ⟨-, filled, alone⟩ := plain p member
  cases h : p.isEmpty with
  | true =>
      have hrhs : p.rhs = [Symbol.empty] := by simpa [Production.isEmpty] using h
      obtain ⟨answered, keeps⟩ := followOf_spec g p.lhs m
      rw [predict_of_isEmpty h]
      exact predicts_of_isEmpty hrhs answered.entry
        ((keeps plain holds).1.sound p.lhs _ answered.entry)
  | false =>
      obtain ⟨kept, follow, keeps⟩ := firstOfRhs_spec g p.rhs m
      obtain ⟨first, gathered⟩ := keeps plain holds.first
      have gathered := gathered filled alone
      -- the Follow set is asked for only if the right-hand side may vanish
      by_cases hempty : Symbol.empty ∈ (firstOfRhs g p.rhs m).1
      · obtain ⟨answered, keeps'⟩ := followOf_spec g p.lhs (firstOfRhs g p.rhs m).2
        rw [predict_of_mem h hempty]
        exact predicts_of_mem gathered hempty answered.entry
          ((keeps' plain (holds.of_follow_eq first follow)).1.sound p.lhs _ answered.entry)
      · rw [predict_of_not_mem h hempty]
        exact predicts_of_not_mem gathered hempty

/-! ## Questions asked again -/

theorem followOf_of_entry {s : Symbol} {m : Memo} {found : SymbolSet}
    (h : m.follow.get? s = some found) : followOf g s m = (found, m) := by
  rw [followOf, followOf?_of_entry g.depth h, Option.getD_some]

theorem firstOfSequence?_again {rhs : List Symbol} {found result : SymbolSet} {m m' m'' : Memo}
    (h : firstOfSequence? (firstOf? g g.depth) rhs found m = some (result, m'))
    (kept : m'.first.Extends m''.first) :
    firstOfSequence? (firstOf? g g.depth) rhs found m'' = some (result, m'') := by
  induction rhs generalizing found m with
  | nil =>
      rw [firstOfSequence?, Option.some.injEq, Prod.mk.injEq] at h
      rw [firstOfSequence?, h.1]
  | cons s rest ih =>
      by_cases hs : s = Symbol.empty
      · rw [firstOfSequence?, if_pos hs, Option.some.injEq, Prod.mk.injEq] at h
        rw [firstOfSequence?, if_pos hs, h.1]
      · obtain ⟨first, m₁, hfind, answered, -⟩ := findsFirst_depth g [] s m
        rw [firstOfSequence?, if_neg hs, hfind] at h
        by_cases hempty : Symbol.empty ∈ first
        · simp only [if_pos hempty] at h
          have finds : ∀ x ∈ rest, ∀ m₂ : Memo, m₁.first.Extends m₂.first →
              FindsFirst g (firstOf? g g.depth) [] x m₂ := fun x _ m₂ _ => findsFirst_depth g [] x m₂
          obtain ⟨result', m₂, hrest, kept₁, -⟩ :=
            firstOfSequence?_spec rest (found ∪ first.erase Symbol.empty) m₁ finds
          obtain ⟨-, rfl⟩ := Prod.mk.injEq .. ▸ Option.some.inj (hrest.symm.trans h)
          -- the later memo has the entry of the first symbol, so its search changes nothing
          have entry := kept s first (kept₁ s first answered.entry)
          rw [firstOfSequence?, if_neg hs, firstOf?_of_entry g.depth entry]
          simp only [if_pos hempty]
          exact ih h
        · simp only [if_neg hempty, Option.some.injEq, Prod.mk.injEq] at h
          obtain ⟨rfl, rfl⟩ := h
          rw [firstOfSequence?, if_neg hs,
            firstOf?_of_entry g.depth (kept s first answered.entry)]
          simp only [if_neg hempty]

theorem firstOfRhs_again (rhs : List Symbol) {m m'' : Memo}
    (kept : (firstOfRhs g rhs m).2.first.Extends m''.first) :
    firstOfRhs g rhs m'' = ((firstOfRhs g rhs m).1, m'') := by
  by_cases hrhs : rhs = []
  · simp only [firstOfRhs, firstOfRhs?, if_pos hrhs, Option.getD_some]
  · have finds : ∀ x ∈ rhs, ∀ m₁ : Memo, m.first.Extends m₁.first →
        FindsFirst g (firstOf? g g.depth) [] x m₁ := fun x _ m₁ _ => findsFirst_depth g [] x m₁
    obtain ⟨result, m', hseq, -⟩ := firstOfSequence?_spec rhs ∅ m finds
    simp only [firstOfRhs, firstOfRhs?, if_neg hrhs, hseq, Option.getD_some] at kept ⊢
    rw [firstOfSequence?_again hseq kept, Option.getD_some]

/-- A Predict set that has been given is given again from every later memo. -/
theorem predict_again (p : Production) {m m'' : Memo} (later : Advances g (predict g p m).2 m'') :
    predict g p m'' = ((predict g p m).1, m'') := by
  cases h : p.isEmpty with
  | true =>
      rw [predict_of_isEmpty h] at later
      rw [predict_of_isEmpty h, predict_of_isEmpty h]
      exact followOf_of_entry (later.follow _ _ (followOf_spec g p.lhs m).1.entry)
  | false =>
      by_cases hempty : Symbol.empty ∈ (firstOfRhs g p.rhs m).1
      · have hfollow := followOf_spec g p.lhs (firstOfRhs g p.rhs m).2
        rw [predict_of_mem h hempty] at later
        have hfirst := firstOfRhs_again p.rhs (hfollow.1.first.trans later.first)
        have hempty' : Symbol.empty ∈ (firstOfRhs g p.rhs m'').1 := by
          rw [hfirst]
          exact hempty
        rw [predict_of_mem h hempty, predict_of_mem h hempty', hfirst,
          followOf_of_entry (later.follow _ _ hfollow.1.entry)]
      · rw [predict_of_not_mem h hempty] at later
        have hfirst := firstOfRhs_again p.rhs later.first
        have hempty' : Symbol.empty ∉ (firstOfRhs g p.rhs m'').1 := by
          rw [hfirst]
          exact hempty
        rw [predict_of_not_mem h hempty, predict_of_not_mem h hempty', hfirst]

end Analysis

open Analysis

/-! ## What all queries keep -/

/-- What each search for one set keeps true of the memo. -/
structure KeptBySearches (g : Grammar) (P : Memo → Prop) : Prop where
  firstOf : ∀ s m, P m → P (firstOf g s m).2
  firstOfRhs : ∀ rhs m, P m → P (firstOfRhs g rhs m).2
  followOf : ∀ s m, P m → P (followOf g s m).2

namespace KeptBySearches

variable {P : Memo → Prop}

theorem predict (kept : KeptBySearches g P) (p : Production) {m : Memo} (hm : P m) :
    P (Analysis.predict g p m).2 := by
  cases h : p.isEmpty with
  | true =>
      rw [predict_of_isEmpty h]
      exact kept.followOf p.lhs m hm
  | false =>
      have hfirst := kept.firstOfRhs p.rhs m hm
      by_cases hempty : Symbol.empty ∈ (Analysis.firstOfRhs g p.rhs m).1
      · rw [predict_of_mem h hempty]
        exact kept.followOf p.lhs _ hfirst
      · rw [predict_of_not_mem h hempty]
        exact hfirst

theorem searchAll {search : Symbol → Memo → SymbolSet × Memo}
    (kept : ∀ s m, P m → P (search s m).2) (ss : List Symbol) {m : Memo} (hm : P m) :
    P (Analysis.searchAll search ss m) := by
  induction ss generalizing m with
  | nil => exact hm
  | cons s ss ih => exact ih (kept s m hm)

theorem predictSetsFrom (kept : KeptBySearches g P) (place : Nat) (ps : List Production) {m : Memo}
    (hm : P m) : P (Analysis.predictSetsFrom g place ps m).2 := by
  induction ps generalizing place m with
  | nil => exact hm
  | cons p ps ih =>
      rw [Analysis.predictSetsFrom]
      split
      · exact ih place hm
      · exact ih (place + 1) (kept.predict p hm)

theorem run (kept : KeptBySearches g P) (q : Query) {m : Memo} (hm : P m) : P (q.run g m).2 := by
  cases q with
  | firstOf s => exact kept.firstOf s m hm
  | followOf s => exact kept.followOf s m hm
  | firstOfRhs rhs => exact kept.firstOfRhs rhs m hm
  | predictNumber n =>
      rw [Query.run]
      cases g.getProduction n with
      | error fault => exact hm
      | ok p => exact kept.predict p hm
  | predict p => exact kept.predict p hm
  | firstSets => exact searchAll kept.firstOf g.nonterminals hm
  | followSets => exact searchAll kept.followOf g.nonterminals hm
  | predictSets => exact kept.predictSetsFrom 1 g.productionList hm

theorem runAll (kept : KeptBySearches g P) (queries : List Query) {m : Memo} (hm : P m) :
    P (Query.runAll g queries m) := by
  induction queries generalizing m with
  | nil => exact hm
  | cons q queries ih => exact ih (kept.run q hm)

end KeptBySearches

/-- The searches from a memo on advance it. -/
theorem keptBySearches_advances (g : Grammar) (m : Memo) : KeptBySearches g (Advances g m) where
  firstOf s m₁ h := h.trans (firstOf_advances g s m₁)
  firstOfRhs rhs m₁ h := h.trans (firstOfRhs_advances g rhs m₁)
  followOf s m₁ h := h.trans (followOf_advances g s m₁)

theorem predict_advances (g : Grammar) (p : Production) (m : Memo) :
    Advances g m (predict g p m).2 :=
  (keptBySearches_advances g m).predict p (.refl g m)

/-- Every list of queries keeps the memo true and its entries as they are. -/
theorem Query.runAll_advances (g : Grammar) (queries : List Query) (m : Memo) :
    Advances g m (Query.runAll g queries m) :=
  (keptBySearches_advances g m).runAll queries (.refl g m)

/-- After any queries to a new analysis the memo is true. -/
theorem Query.followHolds_runAll (plain : g.Plain) (queries : List Query) :
    (Query.runAll g queries .empty).FollowHolds g [] :=
  (Query.runAll_advances g queries .empty).holds plain (Memo.followHolds_empty g)

end Predictive
