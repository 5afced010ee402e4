import Mathlib.Data.List.Pairwise
import Mathlib.Order.Bounds.Basic
import Predictive.Proofs.Repetition
import Predictive.Table.Kept

/-!
# What stands in the cells of a table

The productions of a grammar go into its table in the order of their numbers, and of those that claim a
cell the last one gets it. `Build.Tops` says this of a build under way: there is a row for every
left-hand side that has come by, and no number in a cell is less than that of a production that claims
the cell. With what `Build.Holds` says it follows that a finished table is the chart of the Predict sets
(`ParseTable.Charts`).

Those sets are still being found while the table is built. But what has been found stays, so a build
that is repeated later runs alike (`build_again`); all that is said about a build is therefore said of
one at a memo that it does not change any more, and with the Predict sets of that memo.

A strict build that does not stop has done what one does that is not strict (`build_lax`).
-/

set_option autoImplicit false

namespace Predictive

open Analysis

variable {g : Grammar}

/-- Productions with one number are one production. -/
theorem Grammar.Ascending.eq_of_number_eq (h : g.Ascending) {p q : Production}
    (hp : p ∈ g.productionList) (hq : q ∈ g.productionList) (e : p.number = q.number) : p = q := by
  have differ : g.productionList.Pairwise fun p q => p.number ≠ q.number := h.imp Int.ne_of_lt
  have symmetric : Std.Symm fun p q : Production => p.number ≠ q.number := ⟨fun _ _ => Ne.symm⟩
  exact Classical.byContradiction fun hne => differ.forall hp hq hne e

/-- Two different productions of one symbol share a token of their sets, the empty symbol aside. -/
def Grammar.Clash (g : Grammar) (predicted : Production → SymbolSet) : Prop :=
  ∃ p ∈ g.productionList, ∃ q ∈ g.productionList, p ≠ q ∧ p.lhs = q.lhs ∧
    ∃ t, t ≠ Symbol.empty ∧ t ∈ predicted p ∧ t ∈ predicted q

namespace ParseTable

/-- The table has a row for each left-hand side, in the order in which they come first, with a cell for
each token, the empty symbol aside, in the set of a production of the row. The cell holds the highest
number of those productions. -/
structure Charts (g : Grammar) (predicted : Production → SymbolSet) (table : ParseTable) :
    Prop where
  rows : table.rows.keys = g.nonterminals
  present : ∀ s t, (∃ n, table.cell? s t = some n) ↔
    t ≠ Symbol.empty ∧ ∃ p ∈ g.productionList, p.lhs = s ∧ t ∈ predicted p
  highest : ∀ s t n, table.cell? s t = some n →
    IsGreatest {k | ∃ p ∈ g.productionList, p.lhs = s ∧ t ∈ predicted p ∧ p.number = k} n

/-! ## Rows and highest numbers -/

theorem Build.keys_rowsWith (b : Build) (s : Symbol) (row : TableRow) :
    (b.rowsWith s row).keys = if s ∈ b.rows.keys then b.rows.keys else b.rows.keys ++ [s] := by
  have known : (b.rows.insert s ((ParseTable.mk b.rows).row s)).contains s = true :=
    OrderedMap.contains_iff.2 ⟨_, OrderedMap.get?_insert_self _ _ _⟩
  have old : b.rows.contains s = true ↔ s ∈ b.rows.keys := by
    rw [OrderedMap.contains_iff, OrderedMap.mem_keys_iff]
  rw [rowsWith, OrderedMap.keys_insert, if_pos known, OrderedMap.keys_insert]
  simp only [old]

/-- A production makes a row if it is the first one of its symbol. -/
theorem Build.keys_next {b : Build} {done : List Production}
    (rows : b.rows.keys = distinct (done.map (·.lhs))) (p : Production) (row : TableRow) :
    (b.rowsWith p.lhs row).keys = distinct ((done ++ [p]).map (·.lhs)) := by
  rw [List.map_append, List.map_singleton, distinct_concat, Build.keys_rowsWith, rows]
  simp only [mem_distinct]

/-- A run of `addProductions` that does not stop makes a row for each left-hand side. -/
theorem addProductions_keys {strict : Bool} (ps : List Production) {done : List Production}
    {b : Build} (rows : b.rows.keys = distinct (done.map (·.lhs)))
    (going : (addProductions g strict ps b).stopped = none) :
    (addProductions g strict ps b).rows.keys = distinct ((done ++ ps).map (·.lhs)) := by
  induction ps generalizing done b with
  | nil =>
      rw [List.append_nil]
      exact rows
  | cons p ps ih =>
      rw [List.append_cons]
      rw [addProductions_cons] at going ⊢
      split at going
      · next row collisions hclaim => exact ih (Build.keys_next rows p row) going
      · exact absurd going (by simp)

theorem Build.keys_of_going {strict : Bool} {m : Memo}
    (going : (build g strict m).stopped = none) : (build g strict m).rows.keys = g.nonterminals := by
  have start : (OrderedMap.empty : OrderedMap Symbol TableRow).keys =
      distinct (([] : List Production).map (·.lhs)) := rfl
  exact addProductions_keys g.productionList start going

/-- What a build has reached when it has entered the productions of `done`: it has a row for each
left-hand side among them, and no cell with a number less than that of one of them that claims it. -/
structure Build.Tops (g : Grammar) (done : List Production) (b : Build) : Prop where
  rows : b.rows.keys = distinct (done.map (·.lhs))
  top : ∀ p ∈ done, ∀ t n, t ∈ g.claims p b.memo →
    (ParseTable.mk b.rows).cell? p.lhs t = some n → p.number ≤ n

theorem Build.tops_start (g : Grammar) (m : Memo) :
    Build.Tops g [] ⟨OrderedMap.empty, [], m, none⟩ where
  rows := rfl
  top p h := absurd h (by simp)

/-- A production with a number above those before it takes all cells that it claims. -/
theorem Build.Tops.next {strict : Bool} {m : Memo} {done : List Production} {b : Build}
    (tops : b.Tops g done) (holds : b.Holds g strict m done) {p : Production}
    (above : ∀ q ∈ done, q.number ≤ p.number) {row : TableRow} {collisions : List Collision}
    (claimed : ClaimsAll strict p (g.claims p b.memo).toList ((ParseTable.mk b.rows).row p.lhs)
      row) :
    Build.Tops g (done ++ [p])
      ⟨b.rowsWith p.lhs row, collisions, (predict g p b.memo).2, none⟩ := by
  constructor
  · exact Build.keys_next tops.rows p row
  · intro q hq t n ht hn
    rw [cell?_of_claimsAll claimed] at hn
    split at hn
    · -- the cell holds the number of `p` now
      rw [← Option.some.inj hn]
      rcases List.mem_append.1 hq with hq | hq
      · exact above q hq
      · rw [List.mem_singleton.1 hq]
    · next other =>
        rcases List.mem_append.1 hq with hq | hq
        · have advance : Advances g b.memo (predict g p b.memo).2 := predict_advances g p b.memo
          rw [claims_advance (holds.again q hq) advance] at ht
          exact tops.top q hq t n ht hn
        · -- a cell that `p` claims has been taken
          rw [List.mem_singleton.1 hq, Grammar.claims, predict_predict] at ht
          exact absurd ⟨by rw [List.mem_singleton.1 hq], ht⟩ other

/-- A run of `addProductions` that does not stop leaves the highest numbers in the cells. -/
theorem addProductions_tops {strict : Bool} {m : Memo} (ps : List Production)
    {done : List Production} {b : Build} (holds : b.Holds g strict m done) (tops : b.Tops g done)
    (ascending : (done ++ ps).Pairwise fun p q => p.number < q.number)
    (going : (addProductions g strict ps b).stopped = none) :
    (addProductions g strict ps b).Tops g (done ++ ps) := by
  induction ps generalizing done b with
  | nil =>
      rw [List.append_nil]
      exact tops
  | cons p ps ih =>
      have above : ∀ q ∈ done, q.number ≤ p.number := fun q hq =>
        Int.le_of_lt ((List.pairwise_append.1 ascending).2.2 q hq p List.mem_cons_self)
      rw [List.append_cons] at ascending ⊢
      rw [addProductions_cons] at going ⊢
      obtain ⟨row, collisions, ⟨hclaim, claimed⟩ | ⟨c, hclaim, -⟩⟩ :=
        claimCells_spec strict p (g.claims p b.memo).toList ((ParseTable.mk b.rows).row p.lhs)
          b.collisions
      · rw [hclaim] at going ⊢
        exact ih (holds.next claimed) (tops.next holds above claimed) ascending going
      · rw [hclaim] at going
        exact absurd going (by simp)

theorem build_tops (ascending : g.Ascending) {strict : Bool} {m : Memo}
    (going : (build g strict m).stopped = none) : (build g strict m).Tops g g.productionList :=
  addProductions_tops g.productionList (Build.holds_start g strict m) (Build.tops_start g m)
    ascending going

/-- The table of a build that has found all Predict sets is their chart. -/
theorem Build.Holds.charts {strict : Bool} {m : Memo} {b : Build}
    (holds : b.Holds g strict m g.productionList) (tops : b.Tops g g.productionList) :
    (ParseTable.mk b.rows).Charts g fun p => (predict g p b.memo).1 := by
  refine ⟨tops.rows, fun s t => ⟨?_, ?_⟩, fun s t n hn => ⟨?_, ?_⟩⟩
  · rintro ⟨n, hn⟩
    obtain ⟨p, hp, hlhs, -, ht⟩ := holds.owned s t n hn
    obtain ⟨ht, visible⟩ := SymbolSet.mem_erase.1 ht
    exact ⟨visible, p, hp, hlhs, ht⟩
  · rintro ⟨visible, p, hp, rfl, ht⟩
    obtain ⟨n, hn, -⟩ := holds.filled p hp t (SymbolSet.mem_erase.2 ⟨ht, visible⟩)
    exact ⟨n, hn⟩
  · obtain ⟨p, hp, hlhs, hnumber, ht⟩ := holds.owned s t n hn
    exact ⟨p, hp, hlhs, (SymbolSet.mem_erase.1 ht).1, hnumber⟩
  · rintro k ⟨p, hp, rfl, ht, rfl⟩
    have visible : t ≠ Symbol.empty := by
      obtain ⟨q, -, -, -, hq⟩ := holds.owned p.lhs t n hn
      exact (SymbolSet.mem_erase.1 hq).2
    exact tops.top p hp t n (SymbolSet.mem_erase.2 ⟨ht, visible⟩) hn

theorem Build.result_eq_ok_iff {b : Build} {t : ParseTable} :
    b.result g = .ok t ↔ b.stopped = none ∧ ParseTable.mk b.rows = t := by
  cases h : b.stopped with
  | none => simp [result_of_going h]
  | some c => simp [result_of_stopped h]

theorem Build.exists_error_iff {b : Build} :
    (∃ fault, b.result g = .error fault) ↔ ∃ c, b.stopped = some c := by
  cases h : b.stopped with
  | none => simp [result_of_going h]
  | some c => simp [result_of_stopped h]

/-- A build that finds nothing new gives the chart of the Predict sets at its memo. -/
theorem charts_of_build (ascending : g.Ascending) {strict : Bool} {m : Memo} {t : ParseTable}
    (h : (build g strict m).result g = .ok t) (settled : (build g strict m).memo = m) :
    t.Charts g fun p => (predict g p m).1 := by
  obtain ⟨going, rfl⟩ := Build.result_eq_ok_iff.1 h
  rcases build_spec g strict m with ⟨-, holds⟩ | ⟨-, p, -, q, -, a, -, -, -, -, hstop⟩
  · have charts := holds.charts (build_tops ascending going)
    rwa [settled] at charts
  · exact absurd (going.symm.trans hstop) (by simp)

/-! ## Strict builds -/

/-- Claims without a collision go as they do in a build that is not strict. -/
theorem claimCells_lax {p : Production} {ts : List Symbol} {row row' : TableRow}
    {collisions collisions' : List Collision}
    (h : claimCells true p ts row collisions = (row', collisions', none)) :
    claimCells false p ts row collisions = (row', collisions', none) := by
  induction ts generalizing row with
  | nil => exact h
  | cons t ts ih =>
      rw [claimCells] at h ⊢
      cases hrow : row.get? t with
      | none =>
          rw [hrow] at h
          exact ih h
      | some n =>
          rw [hrow] at h
          by_cases hn : n = p.number
          · simp only [if_pos hn] at h ⊢
            exact ih h
          · -- here a strict build stops
            simp only [if_neg hn, if_true] at h
            exact absurd (congrArg (·.2.2) h) (by simp)

theorem addProductions_lax (ps : List Production) {b : Build}
    (going : (addProductions g true ps b).stopped = none) :
    addProductions g false ps b = addProductions g true ps b := by
  induction ps generalizing b with
  | nil => rfl
  | cons p ps ih =>
      rw [addProductions_cons] at going ⊢
      rw [addProductions_cons]
      obtain ⟨row, collisions, ⟨hclaim, -⟩ | ⟨c, hclaim, -⟩⟩ :=
        claimCells_spec true p (g.claims p b.memo).toList ((ParseTable.mk b.rows).row p.lhs)
          b.collisions
      · rw [hclaim] at going
        rw [hclaim, claimCells_lax hclaim]
        exact ih going
      · rw [hclaim] at going
        exact absurd going (by simp)

/-- A strict build that does not stop is the build that is not strict. -/
theorem build_lax {m : Memo} (going : (build g true m).stopped = none) :
    build g false m = build g true m :=
  addProductions_lax g.productionList going

/-- A build that is not strict does not stop. -/
theorem lax_going (g : Grammar) (m : Memo) : (build g false m).stopped = none := by
  rcases build_spec g false m with ⟨going, -⟩ | ⟨strict, -⟩
  · exact going
  · exact absurd strict (by simp)

/-- A strict build that does not change its memo any more stops exactly at a clash. -/
theorem stopped_iff (ascending : g.Ascending) {m : Memo} (settled : (build g true m).memo = m) :
    (∃ c, (build g true m).stopped = some c) ↔ g.Clash fun p => (predict g p m).1 := by
  constructor
  · rintro ⟨c, hc⟩
    rcases build_spec g true m with ⟨going, -⟩ | ⟨-, p, hp, q, hq, t, hlhs, hne, hqt, hpt, -⟩
    · rw [going] at hc
      exact absurd hc (by simp)
    · rw [settled] at hqt hpt
      obtain ⟨hqt, visible⟩ := SymbolSet.mem_erase.1 hqt
      refine ⟨q, hq, p, hp, ?_, hlhs, t, visible, hqt, (SymbolSet.mem_erase.1 hpt).1⟩
      rintro rfl
      exact hne rfl
  · rintro ⟨p, hp, q, hq, hne, hlhs, t, visible, hpt, hqt⟩
    rcases build_spec g true m with ⟨-, holds⟩ | ⟨-, p, -, q, -, t, -, -, -, -, hstop⟩
    · -- the cell would hold both numbers
      rw [← settled] at hpt hqt
      obtain ⟨n, hn, hpn⟩ := holds.filled p hp t (SymbolSet.mem_erase.2 ⟨hpt, visible⟩)
      obtain ⟨k, hk, hqk⟩ := holds.filled q hq t (SymbolSet.mem_erase.2 ⟨hqt, visible⟩)
      rw [hlhs, hk, Option.some.injEq] at hn
      refine absurd (ascending.eq_of_number_eq hp hq ?_) hne
      rw [← hpn rfl, ← hqk rfl, hn]
    · exact ⟨_, hstop⟩

end ParseTable

/-! ## Analyses that keep tables -/

namespace TableAnalysis

/-- What can be done with an analysis that builds tables. -/
inductive Call where
  | ask (q : Query)
  | build
  /-- The table that is kept. -/
  | table

/-- The analysis after a call. -/
def Call.run (g : Grammar) (strict showCollisions : Bool) (a : TableAnalysis) : Call → TableAnalysis
  | .ask q => (a.ask g q).2
  | .build => (a.build g strict showCollisions).2.2
  | .table => (a.table g strict showCollisions).2.2

/-- The analysis after a list of calls. -/
def runAll (g : Grammar) (strict showCollisions : Bool) (calls : List Call) (a : TableAnalysis) :
    TableAnalysis :=
  calls.foldl (Call.run g strict showCollisions) a

/-- The set that is reported as the Predict set of a production. -/
def predicted (g : Grammar) (a : TableAnalysis) (p : Production) : SymbolSet :=
  (predict g p a.memo).1

theorem ask_predict (g : Grammar) (a : TableAnalysis) (p : Production) :
    (a.ask g (.predict p)).1 = .ok (.set (a.predicted g p)) := rfl

/-- A call keeps what the searches for single sets keep. -/
theorem run_keeps {P : Memo → Prop} (kept : KeptBySearches g P) (strict showCollisions : Bool)
    {a : TableAnalysis} (ha : P a.memo) (call : Call) :
    P (call.run g strict showCollisions a).memo := by
  have built : P (a.build g strict showCollisions).2.2.memo := ParseTable.build_keeps kept strict ha
  cases call with
  | ask q => exact kept.run q ha
  | build => exact built
  | table =>
      rw [Call.run, table]
      split
      · exact ha
      · exact built

theorem runAll_keeps {P : Memo → Prop} (kept : KeptBySearches g P) (strict showCollisions : Bool)
    (calls : List Call) {a : TableAnalysis} (ha : P a.memo) :
    P (runAll g strict showCollisions calls a).memo := by
  induction calls generalizing a with
  | nil => exact ha
  | cons call calls ih => exact ih (run_keeps kept strict showCollisions ha call)

theorem run_advances (g : Grammar) (strict showCollisions : Bool) (a : TableAnalysis)
    (call : Call) : Advances g a.memo (call.run g strict showCollisions a).memo :=
  run_keeps (keptBySearches_advances g a.memo) strict showCollisions (.refl g a.memo) call

theorem runAll_advances (g : Grammar) (strict showCollisions : Bool) (calls : List Call)
    (a : TableAnalysis) : Advances g a.memo (runAll g strict showCollisions calls a).memo :=
  runAll_keeps (keptBySearches_advances g a.memo) strict showCollisions calls (.refl g a.memo)

variable {strict showCollisions : Bool}

/-- The table that is kept, if one is, is that of a build that finds nothing new. -/
def Settled (g : Grammar) (strict : Bool) (a : TableAnalysis) : Prop :=
  ∀ t, a.kept = some t → (ParseTable.build g strict a.memo).result g = .ok t ∧
    (ParseTable.build g strict a.memo).memo = a.memo

/-- A build at a later memo has the same result and leaves that memo as it is. -/
theorem result_again {m m' : Memo} (later : Advances g (ParseTable.build g strict m).memo m') :
    (ParseTable.build g strict m').result g = (ParseTable.build g strict m).result g ∧
      (ParseTable.build g strict m').memo = m' := by
  rw [ParseTable.build_again later]
  exact ⟨rfl, rfl⟩

theorem Settled.build {a : TableAnalysis} (settled : a.Settled g strict) :
    (a.build g strict showCollisions).2.2.Settled g strict := by
  intro t ht
  -- a build right after a build finds nothing new
  obtain ⟨same, memo⟩ := result_again (.refl g (ParseTable.build g strict a.memo).memo)
  refine ⟨?_, memo⟩
  change (ParseTable.build g strict (ParseTable.build g strict a.memo).memo).result g = .ok t
  rw [same]
  cases hresult : (ParseTable.build g strict a.memo).result g with
  | error fault =>
      -- what is kept has been kept before
      rw [TableAnalysis.build, hresult] at ht
      rw [(settled t ht).1] at hresult
      exact absurd hresult (by simp)
  | ok t' =>
      rw [TableAnalysis.build, hresult] at ht
      rw [Option.some.inj ht]

theorem Settled.run {a : TableAnalysis} (settled : a.Settled g strict) (call : Call) :
    (call.run g strict showCollisions a).Settled g strict := by
  cases call with
  | ask q =>
      intro t ht
      obtain ⟨built, memo⟩ := settled t ht
      have later : Advances g (ParseTable.build g strict a.memo).memo (a.ask g q).2.memo := by
        rw [memo]
        exact run_advances g strict showCollisions a (.ask q)
      rw [← built]
      exact result_again later
  | build => exact settled.build
  | table =>
      rw [Call.run, table]
      split
      · exact settled
      · exact settled.build

theorem settled_runAll (calls : List Call) {a : TableAnalysis} (settled : a.Settled g strict) :
    (runAll g strict showCollisions calls a).Settled g strict := by
  induction calls generalizing a with
  | nil => exact settled
  | cons call calls ih => exact ih (settled.run call)

/-- A build keeps its table, and no table if it fails. -/
theorem Settled.kept_build {a : TableAnalysis} (settled : a.Settled g strict) :
    (a.build g strict showCollisions).2.2.kept =
      (a.build g strict showCollisions).1.toOption := by
  rw [TableAnalysis.build]
  cases hresult : (ParseTable.build g strict a.memo).result g with
  | ok t => rfl
  | error fault =>
      cases hkept : a.kept with
      | none => rfl
      | some t => exact absurd ((settled t hkept).1.symm.trans hresult) (by simp)

/-- So it is after every later call, as builds end alike from now on. -/
theorem Settled.kept_later {a : TableAnalysis} (settled : a.Settled g strict) (calls : List Call) :
    (runAll g strict showCollisions calls (a.build g strict showCollisions).2.2).kept =
      (a.build g strict showCollisions).1.toOption := by
  -- what is kept is the result of a build at the memo of the time
  suffices later : ∀ b : TableAnalysis, b.Settled g strict →
      Advances g (ParseTable.build g strict a.memo).memo b.memo →
      b.kept = (a.build g strict showCollisions).1.toOption →
      (runAll g strict showCollisions calls b).kept =
        (a.build g strict showCollisions).1.toOption from
    later _ settled.build (.refl g _) settled.kept_build
  induction calls with
  | nil => exact fun b _ _ kept => kept
  | cons call calls ih =>
      intro b hb advance kept
      refine ih _ (hb.run call) (advance.trans (run_advances g strict showCollisions b call)) ?_
      have rebuilt : (b.build g strict showCollisions).2.2.kept =
          (a.build g strict showCollisions).1.toOption := by
        rw [hb.kept_build]
        exact congrArg Except.toOption (result_again advance).1
      cases call with
      | ask q => exact kept
      | build => exact rebuilt
      | table =>
          rw [Call.run, table]
          split
          · exact kept
          · exact rebuilt

/-- A set that has been reported for a production is reported for it ever after. -/
theorem predicted_again (a : TableAnalysis) (p : Production) (calls : List Call) :
    (runAll g strict showCollisions calls (a.ask g (.predict p)).2).predicted g p =
      a.predicted g p := by
  have later : Advances g (predict g p a.memo).2 _ :=
    runAll_advances g strict showCollisions calls (a.ask g (.predict p)).2
  rw [predicted, predict_again p later, predicted]

/-- A build of an analysis, whatever has been done with it before, against the Predict sets that it
reports for the productions at any time afterwards, which are those that it has reported before, if it
was asked. A table that it gives is the chart of these sets, and the one that is given when the build is
not strict. A build that is not strict always gives a table, a strict one fails exactly at a clash, and
what is kept from then on is the table, or nothing if the build has failed. -/
theorem build_charts (ascending : g.Ascending) (strict showCollisions : Bool)
    (before after : List Call) :
    let a := runAll g strict showCollisions before .empty
    let result := (a.build g strict showCollisions).1
    let later := runAll g strict showCollisions after (a.build g strict showCollisions).2.2
    (∀ table, result = .ok table →
      table.Charts g (later.predicted g) ∧ (a.build g false showCollisions).1 = .ok table) ∧
    (strict = false → ∃ table, result = .ok table) ∧
    (strict = true → ((∃ fault, result = .error fault) ↔ g.Clash (later.predicted g))) ∧
    later.kept = result.toOption ∧
    ∀ earlier p more, before = earlier ++ .ask (.predict p) :: more →
      (runAll g strict showCollisions earlier .empty).predicted g p = later.predicted g p := by
  intro a result later
  have settled : a.Settled g strict :=
    settled_runAll before fun t ht => absurd ht (by simp [empty])
  have advance : Advances g (ParseTable.build g strict a.memo).memo later.memo :=
    runAll_advances g strict showCollisions after (a.build g strict showCollisions).2.2
  -- the build is one that finds nothing new at the later memo
  obtain ⟨same, memo⟩ := result_again advance
  refine ⟨?_, ?_, ?_, settled.kept_later after, ?_⟩
  · intro table built
    refine ⟨ParseTable.charts_of_build ascending (same.trans built) memo, ?_⟩
    cases strict with
    | false => exact built
    | true =>
        have going := (ParseTable.Build.result_eq_ok_iff.1 built).1
        rw [← built]
        exact congrArg (ParseTable.Build.result g) (ParseTable.build_lax going)
  · rintro rfl
    exact ⟨_, ParseTable.Build.result_of_going (ParseTable.lax_going g a.memo)⟩
  · rintro rfl
    rw [show result = (ParseTable.build g true later.memo).result g from same.symm,
      ParseTable.Build.exists_error_iff]
    exact ParseTable.stopped_iff ascending memo
  · rintro earlier p more rfl
    -- the later memo has come from the one after the question
    let asked := ((runAll g strict showCollisions earlier .empty).ask g (.predict p)).2
    have reached : later =
        runAll g strict showCollisions (more ++ .build :: after) asked := by
      simp only [later, a, runAll, asked, List.foldl_append, List.foldl_cons]
      rfl
    rw [reached]
    exact (predicted_again _ p _).symm

open ParseTable (dangling) in
/-- In `dangling`, the production of nothing for `E` takes the cell of the other one under `else` when the
build is not strict. A strict one fails, since both claim the cell, and nothing is kept. -/
theorem build_charts_dangling :
    dangling.Ascending ∧
    (∃ table, (empty.build dangling false true).1 = .ok table ∧ table.rows.keys = ["S", "E"] ∧
      table.cell? "E" "\"else\"" = some 4 ∧
      IsGreatest {k | ∃ p ∈ dangling.productionList, p.lhs = "E" ∧ "\"else\"" ∈
        (empty.build dangling false true).2.2.predicted dangling p ∧ p.number = k} 4) ∧
    (∃ fault, (empty.build dangling true true).1 = .error fault) ∧
    dangling.Clash ((empty.build dangling true true).2.2.predicted dangling) ∧
    (empty.build dangling true true).2.2.kept = none := by
  have ascending : dangling.Ascending := Grammar.ascending_ofRules _ _ _
  obtain ⟨charts, given, -⟩ := build_charts ascending false true [] []
  obtain ⟨-, -, fails, kept, -⟩ := build_charts ascending true true [] []
  obtain ⟨table, built⟩ := given rfl
  -- both productions of `E` claim the cell of the token
  have failed : (empty.build dangling true true).1.isOk = false := by decide
  obtain ⟨fault, hfault⟩ := exists_eq_error failed
  have cell : table.cell? "E" "\"else\"" = some 4 := by
    have found : (empty.build dangling false true).1.toOption.bind (·.cell? "E" "\"else\"") =
        some 4 := by
      decide
    rw [show (empty.build dangling false true).1 = .ok table from built] at found
    exact found
  refine ⟨ascending, ⟨table, built, ?_, cell, ?_⟩, ⟨fault, hfault⟩, ?_, ?_⟩
  · rw [(charts table built).1.rows]
    decide
  · exact (charts table built).1.highest "E" "\"else\"" 4 cell
  · exact (fails rfl).1 ⟨fault, hfault⟩
  · have kept' : (empty.build dangling true true).2.2.kept =
        (empty.build dangling true true).1.toOption := kept
    rw [kept', hfault]
    rfl

end TableAnalysis

end Predictive
