import Predictive.Proofs.SearchRuns
import Predictive.Proofs.TableCells
import Predictive.Proofs.Unmatched

/-!
# Tables that are shown

A table is shown with a column for each terminal and each lexical variable of its grammar and one for the
end marker. Nothing is lost by this: whatever has been asked before, the analysis finds no other symbols
than these (`Runs.columned`), but for the empty symbol and, in answers about sequences that the grammar
does not hold, tokens of these sequences. The empty symbol is taken out of the sets before cells are
claimed. Neither the searched productions nor their symbols need be in order: left-hand sides may be
tokens, and symbols may stand for nothing.

So each entry of the table stands in the row of its left-hand side under its lookahead, and nothing stands
anywhere else (`TableAnalysis.tables_show_all`).
-/

set_option autoImplicit false

namespace Predictive

open Analysis

variable {g : Grammar}

/-! ## Symbols that are found -/

namespace Grammar

/-- Tokens that are used have a column. -/
theorem mem_columnsOf {s : Symbol} (used : s ∈ g.usedSymbols) (token : g.isToken s = true) :
    s ∈ Engine.columnsOf g := by
  rw [Engine.columnsOf, List.mem_append, List.mem_append]
  cases named : Symbol.isTerminal s with
  | true =>
      rw [usedSymbols, mem_distinct, List.mem_flatMap] at used
      obtain ⟨p, hp, hs⟩ := used
      refine .inl (.inl ?_)
      rw [terminals, mem_distinct, List.mem_flatMap]
      exact ⟨p, hp, List.mem_filter.2 ⟨hs, named⟩⟩
  | false =>
      -- any other token is the name of a lexical rule
      exact .inl (.inr (mem_lexicalVariables token named))

/-- The columns of terminals are in the order of first uses: each comes after those of the terminals that
are used before it. -/
theorem exists_first_use {front back : List Symbol} {s : Symbol}
    (h : g.terminals = front ++ s :: back) :
    ∃ earlier later, g.productionList.flatMap (·.rhs) = earlier ++ s :: later ∧ s ∉ earlier ∧
      ∀ r ∈ earlier, Symbol.isTerminal r = true → r ∈ front := by
  obtain ⟨before, after, hused, hbefore⟩ := exists_append_of_distinct h
  rw [← List.filter_flatMap, List.filter_eq_append_iff] at hused
  obtain ⟨used, rest, huses, rfl, hrest⟩ := hused
  obtain ⟨skipped, later, rfl, hskipped, named, -⟩ := List.filter_eq_cons_iff.1 hrest
  have first : ∀ r ∈ used ++ skipped, Symbol.isTerminal r = true → r ∈ front := by
    intro r hr hterminal
    rcases List.mem_append.1 hr with hr | hr
    · exact hbefore r (List.mem_filter.2 ⟨hr, hterminal⟩)
    · exact absurd hterminal (hskipped r hr)
  refine ⟨used ++ skipped, later, by simp [huses], fun hs => ?_, first⟩
  -- a column comes once
  have distinct : (front ++ s :: back).Nodup := h ▸ nodup_distinct _
  exact (List.nodup_append.1 distinct).2.2 s (first s hs named) s List.mem_cons_self rfl

theorem endMarker_mem_columnsOf (g : Grammar) : Symbol.endMarker ∈ Engine.columnsOf g :=
  List.mem_append_right _ (List.mem_singleton.2 rfl)

theorem mem_usedSymbols {s : Symbol} {p : Production} (hp : p ∈ g.productionList) (hs : s ∈ p.rhs) :
    s ∈ g.usedSymbols := by
  rw [usedSymbols, mem_distinct, List.mem_flatMap]
  exact ⟨p, hp, hs⟩

/-- What can be found for a sequence: the empty symbol, symbols with a column, and tokens of it. -/
inductive Findable (g : Grammar) (symbols : List Symbol) : Symbol → Prop
  | empty : Findable g symbols Symbol.empty
  | column {t : Symbol} (column : t ∈ Engine.columnsOf g) : Findable g symbols t
  | token {t : Symbol} (member : t ∈ symbols) (token : g.isToken t = true) : Findable g symbols t

namespace Findable

variable {symbols more : List Symbol} {t : Symbol}

theorem mono (h : g.Findable symbols t) (all : ∀ s ∈ symbols, s ∈ more) : g.Findable more t := by
  cases h with
  | empty => exact .empty
  | column column => exact .column column
  | token member token => exact .token (all t member) token

/-- What is found for used symbols can be found for any symbols. -/
theorem of_used (h : g.Findable symbols t) (used : ∀ s ∈ symbols, s ∈ g.usedSymbols) :
    g.Findable more t := by
  cases h with
  | empty => exact .empty
  | column column => exact .column column
  | token member token => exact .column (Grammar.mem_columnsOf (used t member) token)

/-- It has a column, unless it is the empty symbol. -/
theorem mem_columnsOf (h : g.Findable symbols t) (used : ∀ s ∈ symbols, s ∈ g.usedSymbols)
    (visible : t ≠ Symbol.empty) : t ∈ Engine.columnsOf g := by
  cases h with
  | empty => exact absurd rfl visible
  | column column => exact column
  | token member token => exact Grammar.mem_columnsOf (used t member) token

theorem of_insert {found : SymbolSet} (ht : t ∈ found.insert Symbol.empty) :
    t ∈ found ∨ g.Findable symbols t := by
  rcases SymbolSet.mem_insert.1 ht with rfl | ht
  · exact .inr .empty
  · exact .inl ht

/-- What is found for the first symbol of a sequence is found for the sequence. -/
theorem of_union {s : Symbol} {found first : SymbolSet} (finds : ∀ t ∈ first, g.Findable [s] t)
    (ht : t ∈ found ∪ first.erase Symbol.empty) : t ∈ found ∨ g.Findable (s :: symbols) t := by
  rcases SymbolSet.mem_union.1 ht with ht | ht
  · exact .inl ht
  · exact .inr ((finds t (SymbolSet.mem_erase.1 ht).1).mono (by simp))

end Findable

end Grammar

/-! ## Memos -/

/-- The entries hold symbols with a column only, those of First sets also the empty symbol and the symbol
of the entry, if it is a token. -/
structure Memo.Columned (g : Grammar) (m : Memo) : Prop where
  first : ∀ s found, m.first.get? s = some found → ∀ t ∈ found, g.Findable [s] t
  follow : ∀ s found, m.follow.get? s = some found → ∀ t ∈ found, t ∈ Engine.columnsOf g

namespace Memo

variable {m : Memo} {s : Symbol} {found : SymbolSet}

theorem columned_empty (g : Grammar) : Memo.empty.Columned g where
  first _ _ h := absurd h (by simp [empty])
  follow _ _ h := absurd h (by simp [empty])

namespace Columned

theorem firstAt (columned : m.Columned g) : ∀ t ∈ m.firstAt s, g.Findable [s] t := by
  intro t ht
  obtain ⟨found, hfound, ht⟩ := exists_of_mem_firstAt ht
  exact columned.first s found hfound t ht

theorem followAt (columned : m.Columned g) : ∀ t ∈ m.followAt s, t ∈ Engine.columnsOf g := by
  intro t ht
  obtain ⟨found, hfound, ht⟩ := exists_of_mem_followAt ht
  exact columned.follow s found hfound t ht

theorem addFirst (columned : m.Columned g) (h : ∀ t ∈ found, g.Findable [s] t) :
    (m.addFirst s found).Columned g := by
  refine ⟨?_, columned.follow⟩
  intro k set hk t ht
  rcases mem_of_get?_addFirst hk ht with ⟨old, hold, ht⟩ | ⟨rfl, ht⟩
  · exact columned.first k old hold t ht
  · exact h t ht

theorem addFollow (columned : m.Columned g) (h : ∀ t ∈ found, t ∈ Engine.columnsOf g) :
    (m.addFollow s found).Columned g := by
  refine ⟨columned.first, ?_⟩
  intro k set hk t ht
  rcases mem_of_get?_addFollow hk ht with ⟨old, hold, ht⟩ | ⟨rfl, ht⟩
  · exact columned.follow k old hold t ht
  · exact h t ht

/-- What is found for a right-hand side can go into any First entry. -/
theorem addRhs {p : Production} (columned : m.Columned g) (hp : p ∈ g.productionList)
    (finds : ∀ t ∈ found, g.Findable p.rhs t) : (m.addFirst s found).Columned g :=
  columned.addFirst fun t ht => (finds t ht).of_used fun _ hx => Grammar.mem_usedSymbols hp hx

/-- What is found for a used symbol can go into any Follow entry, without the empty symbol. -/
theorem addAfter {x : Symbol} (columned : m.Columned g) (used : x ∈ g.usedSymbols)
    (finds : ∀ t ∈ found, g.Findable [x] t) :
    (m.addFollow s (found.erase Symbol.empty)).Columned g := by
  refine columned.addFollow fun t ht => ?_
  obtain ⟨ht, visible⟩ := SymbolSet.mem_erase.1 ht
  exact (finds t ht).mem_columnsOf (by simpa using used) visible

end Columned

end Memo

/-! ## Runs -/

namespace Job

/-- What the job gathers is gathered from productions of the grammar, or from symbols that are used. -/
def Within (g : Grammar) : Job → Prop
  | .gatherFirst _ ps => ∀ p ∈ ps, p ∈ g.productionList
  | .gatherRest _ rest => ∀ x ∈ rest, x ∈ g.usedSymbols
  | .gatherUses _ _ rests => ∀ rest ∈ rests, ∀ x ∈ rest, x ∈ g.usedSymbols
  | .gatherFollow _ ps => ∀ p ∈ ps, p ∈ g.productionList
  | _ => True

/-- What the job can find. -/
def Finds (g : Grammar) (t : Symbol) : Job → Prop
  | .firstOf s => g.Findable [s] t
  | .firstOfRhs rhs => g.Findable rhs t
  | .firstOfSequence rest before => t ∈ before ∨ g.Findable rest t
  | .followOf _ => t ∈ Engine.columnsOf g
  | .predict p => g.Findable p.rhs t
  | _ => True

/-- The job can find what has come out of it. -/
def FindsAll (g : Grammar) (job : Job) : Outcome → Prop
  | .set found => ∀ t ∈ found, job.Finds g t
  | _ => True

end Job

theorem Search.within_job (search : Search) : search.job.Within g := by
  cases search with
  | first s => trivial
  | follow s => trivial

theorem Analysis.initialFollow_columned (s : Symbol) :
    ∀ t ∈ initialFollow g s, t ∈ Engine.columnsOf g := by
  intro t ht
  rw [initialFollow] at ht
  split at ht
  · rw [SymbolSet.mem_singleton.1 ht]
    exact g.endMarker_mem_columnsOf
  · exact absurd ht (SymbolSet.not_mem_empty t)

/-- A run keeps a memo to the symbols with a column, and finds no others for what the grammar holds. -/
theorem Runs.columned {job : Job} {m m' : Memo} {opened : List Search} {result : Outcome}
    (h : Runs g job m opened result m') (within : job.Within g) (columned : m.Columned g) :
    m'.Columned g ∧ job.FindsAll g result := by
  -- A search for any symbols at all may find tokens among them, as the entry of a token holds the token
  -- itself. What is gathered comes from symbols that productions use (`Job.Within`), and their tokens
  -- have columns.
  induction h with
  | firstKnown entry => exact ⟨columned, columned.first _ _ entry⟩
  | @firstToken s m absent token =>
      have own : ∀ t ∈ SymbolSet.singleton s, g.Findable [s] t := by
        intro t ht
        obtain rfl := SymbolSet.mem_singleton.1 ht
        exact .token (List.mem_singleton.2 rfl) token
      exact ⟨columned.addFirst own, (columned.addFirst own).firstAt⟩
  | @firstGathered s m m' opened absent expandable _ ih =>
      have started : (m.addFirst s ∅).Columned g :=
        columned.addFirst fun t ht => absurd ht (SymbolSet.not_mem_empty t)
      have gathered := (ih (fun p hp => (Grammar.mem_productionsFor.1 hp).1) started).1
      exact ⟨gathered, gathered.firstAt⟩
  | gatherFirstEnd => exact ⟨columned, trivial⟩
  | gatherFirstNext _ _ ih ih' =>
      have members := List.forall_mem_cons.1 within
      obtain ⟨columned₁, finds⟩ := ih trivial columned
      exact ih' members.2 (columned₁.addRhs members.1 finds)
  | rhsEmpty => exact ⟨columned, fun t ht => absurd ht (SymbolSet.not_mem_empty t)⟩
  | rhsFilled filled _ ih =>
      obtain ⟨columned', finds⟩ := ih trivial columned
      exact ⟨columned', fun t ht => (finds t ht).resolve_left (SymbolSet.not_mem_empty t)⟩
  | sequenceEnd => exact ⟨columned, fun t ht => Grammar.Findable.of_insert ht⟩
  | sequenceEmpty _ => exact ⟨columned, fun t ht => Grammar.Findable.of_insert ht⟩
  | sequenceLast _ _ _ ih =>
      obtain ⟨columned', finds⟩ := ih trivial columned
      exact ⟨columned', fun t ht => Grammar.Findable.of_union finds ht⟩
  | sequenceNext _ _ _ _ ih ih' =>
      obtain ⟨columned₁, finds⟩ := ih trivial columned
      obtain ⟨columned', finds'⟩ := ih' trivial columned₁
      refine ⟨columned', fun t ht => ?_⟩
      rcases finds' t ht with ht | findable
      · exact Grammar.Findable.of_union finds ht
      · exact .inr (findable.mono fun x hx => List.mem_cons_of_mem _ hx)
  | followKnown entry => exact ⟨columned, columned.follow _ _ entry⟩
  | @followGathered s m m' opened absent _ ih =>
      have started : (m.addFollow s (initialFollow g s)).Columned g :=
        columned.addFollow (initialFollow_columned s)
      have gathered := (ih (fun p hp => (Grammar.mem_productionsWith.1 hp).1) started).1
      exact ⟨gathered, gathered.followAt⟩
  | gatherFollowEnd => exact ⟨columned, trivial⟩
  | @gatherFollowNext s p ps m m₁ m' opened opened' _ _ ih ih' =>
      have members := List.forall_mem_cons.1 within
      have used : ∀ rest ∈ restsAfter s p.rhs, ∀ x ∈ rest, x ∈ g.usedSymbols := by
        intro rest hrest x hx
        obtain ⟨before, hrhs⟩ := mem_restsAfter.1 hrest
        exact Grammar.mem_usedSymbols members.1 (by simp [hrhs, hx])
      exact ih' members.2 (ih used columned).1
  | usesEnd => exact ⟨columned, trivial⟩
  | usesSkip _ _ _ ih ih' =>
      have used := List.forall_mem_cons.1 within
      exact ih' used.2 (ih used.1 columned).1
  | usesFlow _ _ _ _ ih ih₁ ih' =>
      have used := List.forall_mem_cons.1 within
      obtain ⟨columned₂, flow⟩ := ih₁ trivial (ih used.1 columned).1
      exact ih' used.2 (columned₂.addFollow flow)
  | restEnd => exact ⟨columned, trivial⟩
  | restEmpty _ _ ih => exact ih (List.forall_mem_cons.1 within).2 columned
  | restLast _ _ _ ih =>
      have used := List.forall_mem_cons.1 within
      obtain ⟨columned₁, finds⟩ := ih trivial columned
      exact ⟨columned₁.addAfter used.1 finds, trivial⟩
  | restNext _ _ _ _ ih ih' =>
      have used := List.forall_mem_cons.1 within
      obtain ⟨columned₁, finds⟩ := ih trivial columned
      exact ih' used.2 (columned₁.addAfter used.1 finds)
  | predictEmpty _ _ ih =>
      obtain ⟨columned', finds⟩ := ih trivial columned
      exact ⟨columned', fun t ht => .column (finds t ht)⟩
  | predictFirst _ _ _ ih => exact ih trivial columned
  | predictBoth _ _ _ _ ih ih' =>
      obtain ⟨columned₁, finds⟩ := ih trivial columned
      obtain ⟨columned', finds'⟩ := ih' trivial columned₁
      refine ⟨columned', fun t ht => ?_⟩
      rcases SymbolSet.mem_union.1 ht with ht | ht
      · exact finds t ht
      · exact .column (finds' t ht)
  | eachEnd => exact ⟨columned, trivial⟩
  | eachNext _ _ ih ih' => exact ih' trivial (ih (Search.within_job _) columned).1
  | predictSetsEnd => exact ⟨columned, trivial⟩
  | predictSetsSkip _ _ ih => exact ih trivial columned
  | predictSetsNext _ _ _ ih ih' => exact ⟨(ih' trivial (ih trivial columned).1).1, trivial⟩
  | tableEnd => exact ⟨columned, trivial⟩
  | tableNext _ _ _ ih ih' => exact ih' trivial (ih trivial columned).1
  | tableStop _ _ ih => exact ⟨(ih trivial columned).1, trivial⟩

theorem keptBySearches_columned (g : Grammar) : KeptBySearches g (Memo.Columned g) where
  firstOf s m columned := by
    obtain ⟨opened, run⟩ := exists_run_firstOf g s m
    exact (run.columned trivial columned).1
  firstOfRhs rhs m columned := by
    obtain ⟨opened, run⟩ := exists_run_firstOfRhs g rhs m
    exact (run.columned trivial columned).1
  followOf s m columned := by
    obtain ⟨opened, run⟩ := exists_run_followOf g s m
    exact (run.columned trivial columned).1

/-- A production of the grammar claims cells in columns only. -/
theorem Grammar.mem_columnsOf_of_claims {p : Production} (hp : p ∈ g.productionList) {m : Memo}
    (columned : m.Columned g) {t : Symbol} (ht : t ∈ g.claims p m) : t ∈ Engine.columnsOf g := by
  obtain ⟨found, visible⟩ := SymbolSet.mem_erase.1 ht
  obtain ⟨opened, run⟩ := exists_run_predict g p m
  exact ((run.columned trivial columned).2 t found).mem_columnsOf
    (fun x hx => Grammar.mem_usedSymbols hp hx) visible

/-! ## Tables -/

namespace ParseTable

/-- The table, shown with the columns of the grammar, has a row for each left-hand side, in the order of
their first productions. All rows have a cell for each column, which holds the number that the table has
there, and the mark `blank` where the table has none. For each entry of the table there is a row and a
column. -/
structure ShowsAll (g : Grammar) (blank : Datum) (t : ParseTable) : Prop where
  labels : (t.grid (Engine.columnsOf g) blank).map List.head? =
    g.nonterminals.map fun s => some (Datum.text s)
  width : ∀ row ∈ t.grid (Engine.columnsOf g) blank, row.length = 1 + (Engine.columnsOf g).length
  entry : ∀ s a n, t.cell? s a = some n →
    a ∈ Engine.columnsOf g ∧ ∃ cells, .text s :: cells ∈ t.grid (Engine.columnsOf g) blank
  cell : ∀ (s : Symbol) (cells : List Datum), .text s :: cells ∈ t.grid (Engine.columnsOf g) blank →
    ∀ (i : Nat) (a : Symbol), (Engine.columnsOf g)[i]? = some a →
      (∀ n, t.cell? s a = some n → cells[i]? = some (.int n)) ∧
      (t.cell? s a = none → cells[i]? = some blank)

variable {t : ParseTable}

/-- An entry stands in the row of its nonterminal. -/
theorem exists_row_of_cell? {s a : Symbol} {n : Int} (h : t.cell? s a = some n) :
    ∃ row, (s, row) ∈ t.rows.entries := by
  rw [cell?, ParseTable.row] at h
  cases hrow : t.rows.get? s with
  | none => simp [hrow] at h
  | some row => exact ⟨row, OrderedMap.get?_eq_some_iff.1 hrow⟩

/-- A table with these rows shows all if all of its lookaheads have columns. -/
theorem showsAll_of_columns (rows : t.rows.keys = g.nonterminals)
    (columns : ∀ s a n, t.cell? s a = some n → a ∈ Engine.columnsOf g) (blank : Datum) :
    t.ShowsAll g blank where
  labels := by
    rw [← rows, grid, OrderedMap.keys, List.map_map, List.map_map]
    rfl
  width := by
    intro row hrow
    obtain ⟨entry, -, rfl⟩ := List.mem_map.1 hrow
    rw [List.length_cons, List.length_map, Nat.add_comm]
  entry := by
    intro s a n h
    obtain ⟨row, hrow⟩ := exists_row_of_cell? h
    exact ⟨columns s a n h, _, List.mem_map.2 ⟨(s, row), hrow, rfl⟩⟩
  cell := by
    intro s cells hcells i a ha
    obtain ⟨⟨s', row⟩, hentry, hcut⟩ := List.mem_map.1 hcells
    obtain ⟨hs, rfl⟩ := List.cons.inj hcut
    obtain rfl := Datum.text.inj hs
    -- a row of the grid is the row of the table that its label names
    have hrow : t.row s' = row := by
      rw [ParseTable.row, OrderedMap.get?_eq_some_iff.2 hentry, Option.getD_some]
    rw [cell?, hrow, List.getElem?_map, ha]
    constructor
    · intro n hn
      simp [hn]
    · intro hnone
      simp [hnone]

theorem showsAll_of_build {strict : Bool} {m : Memo} (columned : m.Columned g)
    (h : (build g strict m).result g = .ok t) (blank : Datum) : t.ShowsAll g blank := by
  obtain ⟨going, rfl⟩ := Build.result_eq_ok_iff.1 h
  refine showsAll_of_columns (Build.keys_of_going going) ?_ blank
  intro s a n hn
  rcases build_spec g strict m with ⟨-, holds⟩ | ⟨-, p, -, q, -, a, -, -, -, -, hstop⟩
  · -- a production of the grammar has claimed the cell
    obtain ⟨p, hp, -, -, ha⟩ := holds.owned s a n hn
    exact Grammar.mem_columnsOf_of_claims hp
      (build_keeps (keptBySearches_columned g) strict columned) ha
  · exact absurd (going.symm.trans hstop) (by simp)

end ParseTable

namespace TableAnalysis

/-- A table that an analysis gives, whatever has been done with it before, shows all of its entries: in one
row for each left-hand side, and with columns for the terminals in the order of their first uses, for the
lexical variables and for the end marker. An analysis that is not strict always gives a table. -/
theorem tables_show_all (g : Grammar) (strict showCollisions : Bool) (before : List Call)
    (blank : Datum) :
    let a := runAll g strict showCollisions before .empty
    (strict = false → (∃ t, (a.build g strict showCollisions).1 = .ok t) ∧
      ∃ t, (a.table g strict showCollisions).1 = .ok t) ∧
    g.nonterminals.Nodup ∧ (∀ s, s ∈ g.nonterminals ↔ ∃ p ∈ g.productionList, p.lhs = s) ∧
    (∀ front s back, g.terminals = front ++ s :: back → ∃ earlier later,
      g.productionList.flatMap (·.rhs) = earlier ++ s :: later ∧ s ∉ earlier ∧
        ∀ r ∈ earlier, Symbol.isTerminal r = true → r ∈ front) ∧
    ∀ t, (a.build g strict showCollisions).1 = .ok t ∨ (a.table g strict showCollisions).1 = .ok t →
      t.ShowsAll g blank := by
  intro a
  have columned : a.memo.Columned g :=
    runAll_keeps (keptBySearches_columned g) strict showCollisions before (Memo.columned_empty g)
  have settled : a.Settled g strict :=
    settled_runAll before fun t ht => absurd ht (by simp [empty])
  -- a table that is kept is one that would be built
  have given : ∀ t, (a.table g strict showCollisions).1 = .ok t →
      (ParseTable.build g strict a.memo).result g = .ok t := by
    intro t ht
    rw [table] at ht
    split at ht
    · next kept hkept =>
        rw [← Except.ok.inj ht]
        exact (settled kept hkept).1
    · exact ht
  refine ⟨?_, nodup_distinct _, ?_, fun front s back h => Grammar.exists_first_use h, ?_⟩
  · rintro rfl
    have built : (a.build g false showCollisions).1 = .ok _ :=
      ParseTable.Build.result_of_going (ParseTable.lax_going g a.memo)
    refine ⟨⟨_, built⟩, ?_⟩
    rw [table]
    split
    · exact ⟨_, rfl⟩
    · exact ⟨_, built⟩
  · intro s
    rw [Grammar.nonterminals, mem_distinct, List.mem_map]
  · rintro t (built | tabled)
    · exact ParseTable.showsAll_of_build columned built blank
    · exact ParseTable.showsAll_of_build columned (given t tabled) blank

/-- A grammar with a token that has a production, a symbol that stands for nothing and a lexical variable
that is not used. -/
def unusual : Grammar :=
  .ofRules [⟨"S", ["\"x\"", "NUM", "S"]⟩, ⟨"S", ["U"]⟩, ⟨"NUM", []⟩, ⟨"S", []⟩]
    (.declared (OrderedMap.ofList [("[0-9]+", "NUM"), ("x", "\"x\""), ("y", "IDLE")]))
    ⟨.null, .null⟩

open ParseTable (blankCell) in
/-- Its table is shown in full, also after questions about symbols that it does not have. -/
theorem tables_show_all_unusual :
    ∃ t, ((runAll unusual false true [.ask (.firstOf "\"z\""), .ask .followSets, .build]
        .empty).table unusual false true).1 = .ok t ∧
      t.ShowsAll unusual blankCell ∧ Engine.columnsOf unusual = ["\"x\"", "NUM", "IDLE", "$"] ∧
      t.cell? "NUM" "\"x\"" = some 3 ∧
      ∃ cells, .text "NUM" :: cells ∈ t.grid (Engine.columnsOf unusual) blankCell ∧
        cells.length = 4 ∧ cells[0]? = some (.int 3) ∧ cells[1]? = some blankCell := by
  obtain ⟨given, -, -, -, shown⟩ := tables_show_all unusual false true
    [.ask (.firstOf "\"z\""), .ask .followSets, .build] blankCell
  obtain ⟨-, t, ht⟩ := given rfl
  have all := shown t (.inr ht)
  have found : (((runAll unusual false true [.ask (.firstOf "\"z\""), .ask .followSets, .build]
      .empty).table unusual false true).1.toOption.map fun t =>
        (t.cell? "NUM" "\"x\"", t.cell? "NUM" "NUM")) = some (some 3, none) := by
    decide
  rw [ht] at found
  obtain ⟨number, none⟩ := Prod.mk.inj (Option.some.inj found)
  have columns : Engine.columnsOf unusual = ["\"x\"", "NUM", "IDLE", "$"] := by decide
  obtain ⟨-, cells, row⟩ := all.entry "NUM" _ _ number
  have width := all.width _ row
  refine ⟨t, ht, all, columns, number, cells, row, ?_, ?_, ?_⟩
  · rw [columns] at width
    simpa using width
  · exact (all.cell "NUM" cells row 0 _ (by rw [columns]; rfl)).1 3 number
  · exact (all.cell "NUM" cells row 1 _ (by rw [columns]; rfl)).2 none

end TableAnalysis

end Predictive
