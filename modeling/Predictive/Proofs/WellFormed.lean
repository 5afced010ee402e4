import Predictive.Engine.Basic
import Predictive.Proofs.Maps

/-!
# Well-formed grammars

In a well-formed grammar every production stands under its own number and has a right-hand side, and
the start symbol has a production. All grammars that are made from rules are well-formed
(`wellFormed_ofRules`), hence all grammars that are read (`wellFormed_of_obtain`).

The indexes of a grammar hold what a search through its productions finds (`productionsFor_eq`,
`productionsWith_eq`).
-/

set_option autoImplicit false

namespace Predictive

/-! ## Results -/

section Results

variable {ε α : Type} {x : Except ε α}

theorem exists_eq_ok (h : x.isOk = true) : ∃ a, x = .ok a := by
  cases x with
  | error e => exact absurd h (by simp [Except.isOk, Except.toBool])
  | ok a => exact ⟨a, rfl⟩

theorem exists_eq_error (h : x.isOk = false) : ∃ e, x = .error e := by
  cases x with
  | error e => exact ⟨e, rfl⟩
  | ok a => exact absurd h (by simp [Except.isOk, Except.toBool])

theorem eq_ok_of_toOption {a : α} (h : x.toOption = some a) : x = .ok a := by
  cases x with
  | error e => exact absurd h (by simp [Except.toOption])
  | ok b =>
      rw [Except.toOption, Option.some.injEq] at h
      rw [h]

/-- What is known of a result comes with the result. -/
theorem exists_of_map_toOption {β : Type} {f : α → β} {b : β} (h : x.toOption.map f = some b) :
    ∃ a, x = .ok a ∧ f a = b := by
  obtain ⟨a, ha, rfl⟩ := Option.map_eq_some_iff.1 h
  exact ⟨a, eq_ok_of_toOption ha, rfl⟩

/-- A chain of two computations succeeds only when both do. -/
theorem exists_of_bind_eq_ok {β : Type} {f : α → Except ε β} {b : β} (h : x >>= f = .ok b) :
    ∃ a, x = .ok a ∧ f a = .ok b := by
  cases x with
  | error e => exact absurd h (by simp [bind, Except.bind])
  | ok a => exact ⟨a, rfl, h⟩

end Results

namespace Grammar

/-! ## Indexes -/

theorem mem_productionList_iff {g : Grammar} {p : Production} :
    p ∈ g.productionList ↔ ∃ n, g.production? n = some p :=
  OrderedMap.mem_values_iff

theorem productionsFor_eq (g : Grammar) (s : Symbol) :
    g.productionsFor s = g.productionList.filter fun p => p.lhs = s := by
  unfold productionsFor byLhs groupBy
  rw [getD_get?_foldl_append]
  simp

theorem getD_get?_foldl_distinct (groups : OrderedMap Symbol (List Production)) (s : Symbol)
    (p : Production) :
    (((distinct p.rhs).foldl (fun groups s => groups.append s p) groups).get? s).getD [] =
      (groups.get? s).getD [] ++ if s ∈ p.rhs then [p] else [] := by
  rw [getD_get?_foldl_append (fun s => s) (fun _ => p)]
  congr 1
  -- a symbol stands at most once among the distinct ones
  have hcount : (distinct p.rhs).count s = if s ∈ p.rhs then 1 else 0 := by
    simp only [(nodup_distinct p.rhs).count, mem_distinct]
  rw [List.filter_eq, hcount]
  split <;> simp

theorem getD_get?_byRhs (groups : OrderedMap Symbol (List Production)) (s : Symbol)
    (ps : List Production) :
    ((ps.foldl (fun groups p => (distinct p.rhs).foldl (fun groups s => groups.append s p) groups)
        groups).get? s).getD [] =
      (groups.get? s).getD [] ++ ps.filter fun p => s ∈ p.rhs := by
  induction ps generalizing groups with
  | nil => simp
  | cons p ps ih =>
      rw [List.foldl_cons, ih, getD_get?_foldl_distinct]
      by_cases h : s ∈ p.rhs <;> simp [h]

theorem productionsWith_eq (g : Grammar) (s : Symbol) :
    g.productionsWith s = g.productionList.filter fun p => s ∈ p.rhs := by
  unfold productionsWith byRhs
  rw [getD_get?_byRhs]
  simp

theorem mem_productionsFor {g : Grammar} {s : Symbol} {p : Production} :
    p ∈ g.productionsFor s ↔ p ∈ g.productionList ∧ p.lhs = s := by
  simp [productionsFor_eq]

theorem mem_productionsWith {g : Grammar} {s : Symbol} {p : Production} :
    p ∈ g.productionsWith s ↔ p ∈ g.productionList ∧ s ∈ p.rhs := by
  simp [productionsWith_eq]

theorem mem_nonterminals {g : Grammar} {s : Symbol} :
    s ∈ g.nonterminals ↔ ∃ p ∈ g.productionList, p.lhs = s := by
  simp [nonterminals]

/-! ## Well-formedness -/

/-- Every production stands under its number and has a right-hand side, and the start symbol has a
production. -/
structure WellFormed (g : Grammar) : Prop where
  numbered : ∀ n p, g.production? n = some p → p.number = n
  filled : ∀ p ∈ g.productionList, p.rhs ≠ []
  headed : ∃ p ∈ g.productionList, p.lhs = g.start

/-- Productions with one number are one production. -/
theorem WellFormed.eq_of_number_eq {g : Grammar} (h : g.WellFormed) {p q : Production}
    (hp : p ∈ g.productionList) (hq : q ∈ g.productionList) (e : p.number = q.number) : p = q := by
  obtain ⟨n, hn⟩ := mem_productionList_iff.1 hp
  obtain ⟨m, hm⟩ := mem_productionList_iff.1 hq
  have hnm : n = m := by
    rw [← h.numbered n p hn, ← h.numbered m q hm, e]
  subst hnm
  rw [hn] at hm
  exact Option.some.inj hm

theorem WellFormed.production?_number {g : Grammar} (h : g.WellFormed) {p : Production}
    (hp : p ∈ g.productionList) : g.production? p.number = some p := by
  obtain ⟨n, hn⟩ := mem_productionList_iff.1 hp
  rw [h.numbered n p hn]
  exact hn

theorem fst_mem_number {first : Nat} {rules : List Rule} {e : Int × Production}
    (h : e ∈ number first rules) : (first : Int) ≤ e.1 ∧ e.2.number = e.1 ∧ e.2.rhs ≠ [] := by
  induction rules generalizing first with
  | nil => simp [number] at h
  | cons r rs ih =>
      unfold number at h
      rcases List.mem_cons.1 h with rfl | hmem
      · refine ⟨Int.le_refl _, rfl, ?_⟩
        show (if r.rhs = [] then [Symbol.empty] else r.rhs) ≠ []
        split
        · simp
        · next hr => exact hr
      · obtain ⟨hle, hrest⟩ := ih hmem
        exact ⟨by omega, hrest⟩

theorem pairwise_number (first : Nat) (rules : List Rule) :
    (number first rules).Pairwise fun x y => (x.1 == y.1) = false := by
  induction rules generalizing first with
  | nil => simp [number]
  | cons r rs ih =>
      unfold number
      refine List.pairwise_cons.2 ⟨fun e he => ?_, ih _⟩
      have := (fst_mem_number he).1
      rw [beq_eq_false_iff_ne]
      intro heq
      simp only at heq
      omega

theorem entries_ofRules (rules : List Rule) (lexicon : Lexicon) (source : Source) :
    (ofRules rules lexicon source).productions.entries = number 1 rules :=
  OrderedMap.entries_ofList (pairwise_number 1 rules)

/-- The grammar of at least one rule is well-formed. -/
theorem wellFormed_ofRules {rules : List Rule} (lexicon : Lexicon) (source : Source)
    (some : rules ≠ []) : (ofRules rules lexicon source).WellFormed where
  numbered n p h := by
    have hmem := OrderedMap.get?_eq_some_iff.1 h
    rw [entries_ofRules] at hmem
    exact (fst_mem_number hmem).2.1
  filled p h := by
    obtain ⟨n, hn⟩ := mem_productionList_iff.1 h
    have hmem := OrderedMap.get?_eq_some_iff.1 hn
    rw [entries_ofRules] at hmem
    exact (fst_mem_number hmem).2.2
  headed := by
    cases rules with
    | nil => exact absurd rfl some
    | cons r rs =>
        refine ⟨Production.of ((1 : Nat) : Int) r.lhs r.rhs, ?_, rfl⟩
        unfold productionList OrderedMap.values
        rw [entries_ofRules]
        exact List.mem_map_of_mem List.mem_cons_self

/-- Productions stand in the order of their numbers. -/
def Ascending (g : Grammar) : Prop :=
  g.productionList.Pairwise fun p q => p.number < q.number

theorem ascending_number (first : Nat) (rules : List Rule) :
    (number first rules).Pairwise fun x y => x.2.number < y.2.number := by
  induction rules generalizing first with
  | nil => simp [number]
  | cons r rs ih =>
      unfold number
      refine List.pairwise_cons.2 ⟨fun e he => ?_, ih _⟩
      obtain ⟨hle, hnumber, -⟩ := fst_mem_number he
      rw [hnumber]
      change (first : Int) < e.1
      omega

/-- Rules are numbered in their order. -/
theorem ascending_ofRules (rules : List Rule) (lexicon : Lexicon) (source : Source) :
    (ofRules rules lexicon source).Ascending := by
  unfold Ascending productionList OrderedMap.values
  rw [entries_ofRules]
  exact List.pairwise_map.2 (ascending_number 1 rules)

/-! ## Reading gives well-formed grammars -/

theorem readRules_ne_nil {lines : List (List Char)} {rules : List Rule}
    (h : readRules lines = .ok rules) : rules ≠ [] := by
  unfold readRules at h
  cases hr : RuleLine.readFrom none (RuleLine.numberFrom 1 lines) with
  | error fault =>
      rw [hr] at h
      exact absurd h (by simp [bind, Except.bind])
  | ok found =>
      rw [hr] at h
      simp only [bind, Except.bind] at h
      split at h
      · exact absurd h (by simp)
      · next hne =>
          cases h
          exact hne

theorem rulesOfDatum_ne_nil {d : Datum} {rules : List Rule} (h : rulesOfDatum d = .ok rules) :
    rules ≠ [] := by
  obtain ⟨lines, -, h⟩ := exists_of_bind_eq_ok h
  cases hr : readRules lines with
  | error fault =>
      rw [hr] at h
      exact absurd h (by simp)
  | ok found =>
      rw [hr] at h
      cases h
      exact readRules_ne_nil hr

theorem wellFormed_of_ofDatum {d : Datum} {g : Grammar} (h : ofDatum d = .ok g) :
    g.WellFormed := by
  obtain ⟨source, -, h⟩ := exists_of_bind_eq_ok h
  obtain ⟨lexicon, -, h⟩ := exists_of_bind_eq_ok h
  obtain ⟨rules, hr, h⟩ := exists_of_bind_eq_ok h
  cases h
  exact wellFormed_ofRules lexicon source (rulesOfDatum_ne_nil hr)

theorem wellFormed_of_read {input : GrammarInput} {g : Grammar} (h : read input = .ok g) :
    g.WellFormed := by
  cases input with
  | value d => exact wellFormed_of_ofDatum h
  | file text => exact wellFormed_of_ofDatum h
  | grammar g' => exact absurd h (by simp [read])

end Grammar

/-- A grammar among the inputs is well-formed; all other inputs are read first. -/
def GrammarInput.Proper : GrammarInput → Prop
  | .grammar g => g.WellFormed
  | .value _ => True
  | .file _ => True

/-- Every grammar that a proper input gives is well-formed. -/
theorem Grammar.wellFormed_of_obtain {input : GrammarInput} {g : Grammar} {log : Log}
    (proper : input.Proper) (h : Grammar.obtain input = .ok (g, log)) : g.WellFormed := by
  cases input with
  | grammar g' =>
      cases h
      exact proper
  | value d =>
      obtain ⟨g', hr, h⟩ := exists_of_bind_eq_ok h
      cases h
      exact Grammar.wellFormed_of_read hr
  | file text =>
      obtain ⟨g', hr, h⟩ := exists_of_bind_eq_ok h
      cases h
      exact Grammar.wellFormed_of_read hr

end Predictive
