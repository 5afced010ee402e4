import Predictive.Proofs.Queries
import Predictive.Table.Build

/-!
# Tables that are built

A production claims the cells of its row under the tokens of the Predict set that is found for it
(`claims`). `ParseTable.build_spec` says what a build does: each cell of the table goes to a production
that claims it, and each claim is met by some cell, in a strict build by its own; a strict build stops
only where two productions of one symbol claim a cell. Hence all tables that are built fit their
grammars (`ParseTable.fits_of_build`).
-/

set_option autoImplicit false

namespace Predictive

open Analysis

variable {g : Grammar}

/-- The tokens for which a production claims cells, by a memo. -/
def Grammar.claims (g : Grammar) (p : Production) (m : Memo) : SymbolSet :=
  (predict g p m).1.erase Symbol.empty

namespace ParseTable

/-! ## One production -/

/-- A collision among the cells that a production claims: one of them holds another number. -/
def Collides (p : Production) (ts : List Symbol) (row : TableRow) (c : Collision) : Prop :=
  ∃ t ∈ ts, ∃ n, row.get? t = some n ∧ n ≠ p.number ∧ c = ⟨p.lhs, t, n, p⟩

/-- All cells for the tokens go to the production and the others stay; in a strict build no cell was
taken from another production. -/
structure ClaimsAll (strict : Bool) (p : Production) (ts : List Symbol) (row row' : TableRow) :
    Prop where
  cells : ∀ t, row'.get? t = if t ∈ ts then some p.number else row.get? t
  clear : strict = true → ∀ t ∈ ts, ∀ n, row.get? t = some n → n = p.number

theorem ClaimsAll.cons {strict : Bool} {p : Production} {t : Symbol} {ts : List Symbol}
    {row row' : TableRow} (head : strict = true → ∀ n, row.get? t = some n → n = p.number)
    (tail : ClaimsAll strict p ts (row.insert t p.number) row') :
    ClaimsAll strict p (t :: ts) row row' := by
  constructor
  · intro u
    rw [tail.cells, OrderedMap.get?_insert]
    by_cases hut : t = u
    · subst hut
      simp
    · simp [hut, Ne.symm hut]
  · intro hstrict u hu n hn
    by_cases hut : t = u
    · exact head hstrict n (hut ▸ hn)
    · apply tail.clear hstrict u ((List.mem_cons.1 hu).resolve_left (Ne.symm hut)) n
      rw [OrderedMap.get?_insert, if_neg hut]
      exact hn

theorem Collides.cons {p : Production} {t : Symbol} {ts : List Symbol} {row : TableRow}
    {c : Collision} (tail : Collides p ts (row.insert t p.number) c) :
    Collides p (t :: ts) row c := by
  obtain ⟨u, hu, n, hn, hne, hc⟩ := tail
  refine ⟨u, List.mem_cons_of_mem _ hu, n, ?_, hne, hc⟩
  rw [OrderedMap.get?_insert] at hn
  by_cases hut : t = u
  · -- the cell claimed before belongs to the production itself
    rw [if_pos hut, Option.some.injEq] at hn
    exact absurd hn.symm hne
  · rwa [if_neg hut] at hn

/-- Claiming cells gives all of them to the production, or a strict build stops at a collision. -/
theorem claimCells_spec (strict : Bool) (p : Production) (ts : List Symbol) (row : TableRow)
    (collisions : List Collision) :
    ∃ row' collisions',
      (claimCells strict p ts row collisions = (row', collisions', none) ∧
        ClaimsAll strict p ts row row') ∨
      ∃ c, claimCells strict p ts row collisions = (row', collisions', some c) ∧
        strict = true ∧ Collides p ts row c := by
  induction ts generalizing row collisions with
  | nil =>
      refine ⟨row, collisions, .inl ⟨rfl, ?_, ?_⟩⟩
      · simp
      · simp
  | cons t ts ih =>
      -- what the claims after the first one do, whatever has collided before
      have more : (strict = true → ∀ n, row.get? t = some n → n = p.number) →
          ∀ cs, claimCells strict p (t :: ts) row collisions =
            claimCells strict p ts (row.insert t p.number) cs →
          ∃ row' collisions',
            (claimCells strict p (t :: ts) row collisions = (row', collisions', none) ∧
              ClaimsAll strict p (t :: ts) row row') ∨
            ∃ c, claimCells strict p (t :: ts) row collisions = (row', collisions', some c) ∧
              strict = true ∧ Collides p (t :: ts) row c := by
        intro head cs heq
        rw [heq]
        obtain ⟨row', collisions', ⟨hrun, claimed⟩ | ⟨c, hrun, hstrict, collides⟩⟩ :=
          ih (row.insert t p.number) cs
        · exact ⟨row', collisions', .inl ⟨hrun, claimed.cons head⟩⟩
        · exact ⟨row', collisions', .inr ⟨c, hrun, hstrict, collides.cons⟩⟩
      cases hrow : row.get? t with
      | none =>
          refine more (fun _ n hn => absurd (hrow.symm.trans hn) (by simp)) collisions ?_
          rw [claimCells, hrow]
      | some n =>
          by_cases hn : n = p.number
          · -- the production claims its own cell again
            refine more (fun _ k hk => ?_) collisions ?_
            · rw [← Option.some.inj (hrow.symm.trans hk)]
              exact hn
            · rw [claimCells, hrow]
              simp only [if_pos hn]
          · -- the cell is taken: only a build that is not strict goes on
            cases strict with
            | true =>
                refine ⟨row, collisions, .inr ⟨⟨p.lhs, t, n, p⟩, ?_, rfl, t, List.mem_cons_self, n,
                  hrow, hn, rfl⟩⟩
                rw [claimCells, hrow]
                simp only [if_neg hn, if_true]
            | false =>
                refine more (fun h => absurd h (by simp)) (collisions ++ [⟨p.lhs, t, n, p⟩]) ?_
                rw [claimCells, hrow]
                simp only [if_neg hn, Bool.false_eq_true, if_false]

/-! ## All productions -/

/-- What a build that began with the memo `m` has reached when it has entered the productions of
`done`: each cell belongs to one of them that claims it, and each claim has led to a cell. -/
structure Build.Holds (g : Grammar) (strict : Bool) (m : Memo) (done : List Production)
    (b : Build) : Prop where
  memo : Advances g m b.memo
  again : ∀ p ∈ done, (predict g p b.memo).2 = b.memo
  owned : ∀ s t n, (ParseTable.mk b.rows).cell? s t = some n →
    ∃ p ∈ done, p.lhs = s ∧ p.number = n ∧ t ∈ g.claims p b.memo
  filled : ∀ p ∈ done, ∀ t ∈ g.claims p b.memo, ∃ n,
    (ParseTable.mk b.rows).cell? p.lhs t = some n ∧ (strict = true → n = p.number)

theorem Build.holds_start (g : Grammar) (strict : Bool) (m : Memo) :
    Build.Holds g strict m [] ⟨OrderedMap.empty, [], m, none⟩ where
  memo := .refl g m
  again _ h := absurd h (by simp)
  owned s t n h := by simp [cell?, row] at h
  filled _ h := absurd h (by simp)

/-- What is found for a production stays when the memo advances. -/
theorem predict_advance {p : Production} {m m' : Memo} (again : (predict g p m).2 = m)
    (advance : Advances g m m') : predict g p m' = ((predict g p m).1, m') :=
  predict_again p (again.symm ▸ advance)

theorem claims_advance {p : Production} {m m' : Memo} (again : (predict g p m).2 = m)
    (advance : Advances g m m') : g.claims p m' = g.claims p m := by
  rw [Grammar.claims, predict_advance again advance, Grammar.claims]

theorem predict_predict (g : Grammar) (p : Production) (m : Memo) :
    predict g p (predict g p m).2 = predict g p m :=
  predict_again p (.refl g _)

/-- The rows of a build with a new row for a symbol, which has its place among them first. -/
def Build.rowsWith (b : Build) (s : Symbol) (row : TableRow) : OrderedMap Symbol TableRow :=
  (b.rows.insert s ((ParseTable.mk b.rows).row s)).insert s row

theorem Build.cell?_rowsWith (b : Build) (l s t : Symbol) (row : TableRow) :
    (ParseTable.mk (b.rowsWith l row)).cell? s t =
      if l = s then row.get? t else (ParseTable.mk b.rows).cell? s t := by
  simp only [cell?, ParseTable.row, rowsWith, OrderedMap.get?_insert]
  by_cases h : l = s
  · simp [h]
  · simp [h]

theorem addProductions_cons (g : Grammar) (strict : Bool) (p : Production) (ps : List Production)
    (b : Build) :
    addProductions g strict (p :: ps) b =
      match claimCells strict p (g.claims p b.memo).toList ((ParseTable.mk b.rows).row p.lhs)
          b.collisions with
      | (row, collisions, none) =>
          addProductions g strict ps
            ⟨b.rowsWith p.lhs row, collisions, (predict g p b.memo).2, none⟩
      | (row, collisions, some c) =>
          ⟨b.rowsWith p.lhs row, collisions, (predict g p b.memo).2, some c⟩ := rfl

theorem cell?_of_claimsAll {strict : Bool} {p : Production} {b : Build} {row : TableRow}
    (claimed : ClaimsAll strict p (g.claims p b.memo).toList ((ParseTable.mk b.rows).row p.lhs) row)
    (s t : Symbol) :
    (ParseTable.mk (b.rowsWith p.lhs row)).cell? s t =
      if p.lhs = s ∧ t ∈ g.claims p b.memo then some p.number
      else (ParseTable.mk b.rows).cell? s t := by
  rw [Build.cell?_rowsWith]
  by_cases hs : p.lhs = s
  · subst hs
    rw [if_pos rfl, claimed.cells]
    simp only [true_and]
    rfl
  · simp [hs]

/-- The cells that a production has claimed belong to it, and the others to those before it. -/
theorem Build.Holds.next {strict : Bool} {m : Memo} {done : List Production} {b : Build}
    (holds : b.Holds g strict m done) {p : Production} {row : TableRow}
    {collisions : List Collision}
    (claimed : ClaimsAll strict p (g.claims p b.memo).toList ((ParseTable.mk b.rows).row p.lhs)
      row) :
    Build.Holds g strict m (done ++ [p])
      ⟨b.rowsWith p.lhs row, collisions, (predict g p b.memo).2, none⟩ := by
  have advance : Advances g b.memo (predict g p b.memo).2 := predict_advances g p b.memo
  have others : ∀ q ∈ done, g.claims q (predict g p b.memo).2 = g.claims q b.memo :=
    fun q hq => claims_advance (holds.again q hq) advance
  have own : g.claims p (predict g p b.memo).2 = g.claims p b.memo := by
    rw [Grammar.claims, predict_predict, Grammar.claims]
  refine ⟨holds.memo.trans advance, ?_, ?_, ?_⟩
  · -- the Predict sets found are found again
    intro q hq
    rcases List.mem_append.1 hq with hq | hq
    · rw [predict_advance (holds.again q hq) advance]
    · rw [List.mem_singleton.1 hq, predict_predict]
  · -- each cell has an owner
    intro s t n hn
    rw [cell?_of_claimsAll claimed] at hn
    split at hn
    · next h =>
        exact ⟨p, List.mem_append_right _ List.mem_cons_self, h.1, Option.some.inj hn,
          own.symm ▸ h.2⟩
    · obtain ⟨q, hq, hlhs, hnumber, ht⟩ := holds.owned s t n hn
      exact ⟨q, List.mem_append_left _ hq, hlhs, hnumber, (others q hq).symm ▸ ht⟩
  · -- each claim has led to a cell
    intro q hq t ht
    rw [cell?_of_claimsAll claimed]
    rcases List.mem_append.1 hq with hq | hq
    · rw [others q hq] at ht
      obtain ⟨n, hn, hown⟩ := holds.filled q hq t ht
      split
      · next h =>
          refine ⟨p.number, rfl, fun hstrict => ?_⟩
          rw [← hown hstrict]
          refine (claimed.clear hstrict t h.2 n ?_).symm
          rw [h.1]
          exact hn
      · exact ⟨n, hn, hown⟩
    · rw [List.mem_singleton.1 hq] at ht ⊢
      rw [own] at ht
      exact ⟨p.number, by rw [if_pos ⟨rfl, ht⟩], fun _ => rfl⟩

/-- Two productions of one symbol claim one cell, and the build has stopped there. -/
def Build.StoppedAt (g : Grammar) (p q : Production) (t : Symbol) (b : Build) : Prop :=
  q.lhs = p.lhs ∧ q.number ≠ p.number ∧ t ∈ g.claims q b.memo ∧ t ∈ g.claims p b.memo ∧
    b.stopped = some ⟨p.lhs, t, q.number, p⟩

/-- One more production. -/
theorem addProduction_spec {strict : Bool} {m : Memo} {done : List Production} {b : Build}
    (holds : b.Holds g strict m done) (p : Production) (ps : List Production) :
    (∃ b' : Build, addProductions g strict (p :: ps) b = addProductions g strict ps b' ∧
      b'.stopped = none ∧ b'.Holds g strict m (done ++ [p])) ∨
    (strict = true ∧
      ∃ q ∈ done, ∃ t, (addProductions g strict (p :: ps) b).StoppedAt g p q t) := by
  rw [addProductions_cons]
  obtain ⟨row, collisions, ⟨hclaim, claimed⟩ | ⟨c, hclaim, hstrict, t, ht, n, hn, hne, hc⟩⟩ :=
    claimCells_spec strict p (g.claims p b.memo).toList ((ParseTable.mk b.rows).row p.lhs)
      b.collisions
  · rw [hclaim]
    exact .inl ⟨_, rfl, rfl, holds.next claimed⟩
  · rw [hclaim]
    have advance : Advances g b.memo (predict g p b.memo).2 := predict_advances g p b.memo
    obtain ⟨q, hq, hlhs, rfl, hqt⟩ := holds.owned p.lhs t n hn
    refine .inr ⟨hstrict, q, hq, t, hlhs, hne, ?_, ?_, hc ▸ rfl⟩
    · rw [claims_advance (holds.again q hq) advance]
      exact hqt
    · rw [Grammar.claims, predict_predict]
      exact ht

/-- A run of `addProductions` enters all productions, or a strict one stops. -/
theorem addProductions_spec {strict : Bool} {m : Memo} (ps : List Production)
    {done : List Production} {b : Build} (holds : b.Holds g strict m done)
    (going : b.stopped = none) :
    ((addProductions g strict ps b).stopped = none ∧
      (addProductions g strict ps b).Holds g strict m (done ++ ps)) ∨
    (strict = true ∧
      ∃ p ∈ done ++ ps, ∃ q ∈ done ++ ps, ∃ t,
        (addProductions g strict ps b).StoppedAt g p q t) := by
  induction ps generalizing done b with
  | nil =>
      rw [List.append_nil, addProductions]
      exact .inl ⟨going, holds⟩
  | cons p ps ih =>
      rcases addProduction_spec holds p ps with
        ⟨b', heq, going', holds'⟩ | ⟨hstrict, q, hq, t, hstop⟩
      · have := ih holds' going'
        rw [heq]
        rwa [List.append_assoc, List.singleton_append] at this
      · refine .inr ⟨hstrict, p, ?_, q, List.mem_append_left _ hq, t, hstop⟩
        exact List.mem_append_right _ List.mem_cons_self

/-- What a build does. -/
theorem build_spec (g : Grammar) (strict : Bool) (m : Memo) :
    ((build g strict m).stopped = none ∧
      (build g strict m).Holds g strict m g.productionList) ∨
    (strict = true ∧
      ∃ p ∈ g.productionList, ∃ q ∈ g.productionList, ∃ t,
        (build g strict m).StoppedAt g p q t) :=
  addProductions_spec g.productionList (Build.holds_start g strict m) rfl

/-- A build keeps what the searches for single sets keep. -/
theorem addProductions_keeps {P : Memo → Prop} (kept : KeptBySearches g P) (strict : Bool)
    (ps : List Production) {b : Build} (hb : P b.memo) : P (addProductions g strict ps b).memo := by
  induction ps generalizing b with
  | nil => exact hb
  | cons p ps ih =>
      have hp := kept.predict p hb
      rw [addProductions_cons]
      split
      · exact ih hp
      · exact hp

theorem build_keeps {P : Memo → Prop} (kept : KeptBySearches g P) (strict : Bool) {m : Memo}
    (hm : P m) : P (build g strict m).memo :=
  addProductions_keeps kept strict g.productionList hm

theorem build_advances (g : Grammar) (strict : Bool) (m : Memo) :
    Advances g m (build g strict m).memo :=
  build_keeps (keptBySearches_advances g m) strict (.refl g m)

namespace Build

theorem result_of_stopped {b : Build} {c : Collision} (h : b.stopped = some c) :
    b.result g = .error (.collision (c.describe g)) := by
  rw [result, h]

theorem result_of_going {b : Build} (h : b.stopped = none) : b.result g = .ok ⟨b.rows⟩ := by
  rw [result, h]

end Build

/-- Tables that are built fit their grammars. -/
theorem fits_of_build (wf : g.WellFormed) {strict : Bool} {m : Memo} {t : ParseTable}
    (h : (build g strict m).result g = .ok t) : t.Fits g := by
  intro s a n hn
  rcases build_spec g strict m with ⟨going, holds⟩ | ⟨-, p, -, q, -, a, -, -, -, -, hstop⟩
  · rw [Build.result_of_going going] at h
    cases h
    obtain ⟨p, hp, hlhs, rfl, -⟩ := holds.owned s a n hn
    exact ⟨p, wf.production?_number hp, hlhs⟩
  · rw [Build.result_of_stopped hstop] at h
    exact absurd h (by simp)

end ParseTable

end Predictive
