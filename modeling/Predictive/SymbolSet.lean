import Predictive.Symbol

/-!
# Finite sets of symbols

A set of symbols is the ascending list of its members, so two sets with the same members are equal
(`ext`) and the list is also the order in which a set is shown. `mem_insert`, `mem_union` and
`mem_erase` say what the operations do to membership.
-/

set_option autoImplicit false

namespace Predictive

/-- A finite set of symbols, kept as the ascending list of its members. -/
structure SymbolSet where
  toList : List Symbol
  ascending : toList.Pairwise (· < ·)
deriving Repr, DecidableEq

namespace SymbolSet

/-! ## Ascending lists -/

/-- The ascending list with one more member. -/
def insertSorted (x : Symbol) : List Symbol → List Symbol
  | [] => [x]
  | y :: ys => if x < y then x :: y :: ys else if x = y then y :: ys else y :: insertSorted x ys

theorem mem_insertSorted {x z : Symbol} {ys : List Symbol} :
    z ∈ insertSorted x ys ↔ z = x ∨ z ∈ ys := by
  induction ys with
  | nil => simp [insertSorted]
  | cons y ys ih =>
      unfold insertSorted
      split
      · simp
      · split
        · next h => subst h; simp
        · simp only [List.mem_cons, ih]; exact or_left_comm

theorem pairwise_insertSorted {x : Symbol} {ys : List Symbol} (h : ys.Pairwise (· < ·)) :
    (insertSorted x ys).Pairwise (· < ·) := by
  induction ys with
  | nil => simp [insertSorted]
  | cons y ys ih =>
      have hy := (List.pairwise_cons.1 h).1
      have hys := (List.pairwise_cons.1 h).2
      unfold insertSorted
      split
      · next hxy =>
          refine List.pairwise_cons.2 ⟨fun z hz => ?_, h⟩
          cases List.mem_cons.1 hz with
          | inl hz => rw [hz]; exact hxy
          | inr hz => exact String.lt_trans hxy (hy z hz)
      · split
        · exact h
        · next hxy hne =>
            refine List.pairwise_cons.2 ⟨fun z hz => ?_, ih hys⟩
            cases mem_insertSorted.1 hz with
            | inl hz =>
                rw [hz]
                have hle : y ≤ x := String.not_lt.1 hxy
                rcases Decidable.em (y < x) with hlt | hnlt
                · exact hlt
                · exact absurd (String.le_antisymm (String.not_lt.1 hnlt) hle) hne
            | inr hz => exact hy z hz

/-- Two ascending lists with the same members are equal. -/
theorem eq_of_mem_iff {xs ys : List Symbol} (hx : xs.Pairwise (· < ·)) (hy : ys.Pairwise (· < ·))
    (h : ∀ z, z ∈ xs ↔ z ∈ ys) : xs = ys := by
  induction xs generalizing ys with
  | nil =>
      cases ys with
      | nil => rfl
      | cons y ys => exact absurd ((h y).2 List.mem_cons_self) (by simp)
  | cons x xs ih =>
      cases ys with
      | nil => exact absurd ((h x).1 List.mem_cons_self) (by simp)
      | cons y ys =>
          have hx' := List.pairwise_cons.1 hx
          have hy' := List.pairwise_cons.1 hy
          -- both heads are the least members, so they are the same
          have hxy : x = y := by
            cases List.mem_cons.1 ((h x).1 List.mem_cons_self) with
            | inl e => exact e
            | inr hxys =>
                cases List.mem_cons.1 ((h y).2 List.mem_cons_self) with
                | inl e => exact e.symm
                | inr hyxs =>
                    exact absurd (hx'.1 y hyxs) (String.lt_asymm (hy'.1 x hxys))
          subst hxy
          congr 1
          refine ih hx'.2 hy'.2 fun z => ⟨fun hz => ?_, fun hz => ?_⟩
          · cases List.mem_cons.1 ((h z).1 (List.mem_cons_of_mem _ hz)) with
            | inl e => exact absurd (hx'.1 z hz) (e ▸ String.lt_irrefl z)
            | inr hz => exact hz
          · cases List.mem_cons.1 ((h z).2 (List.mem_cons_of_mem _ hz)) with
            | inl e => exact absurd (hy'.1 z hz) (e ▸ String.lt_irrefl z)
            | inr hz => exact hz

/-! ## The operations -/

/-- The set without members. -/
def empty : SymbolSet := ⟨[], List.Pairwise.nil⟩

instance : EmptyCollection SymbolSet := ⟨empty⟩

instance : Inhabited SymbolSet := ⟨empty⟩

instance : Membership Symbol SymbolSet := ⟨fun s x => x ∈ s.toList⟩

instance (x : Symbol) (s : SymbolSet) : Decidable (x ∈ s) :=
  inferInstanceAs (Decidable (x ∈ s.toList))

/-- The set with one more member. -/
def insert (x : Symbol) (s : SymbolSet) : SymbolSet :=
  ⟨insertSorted x s.toList, pairwise_insertSorted s.ascending⟩

/-- The set with one member only. -/
def singleton (x : Symbol) : SymbolSet := insert x ∅

/-- The members of both sets. -/
def union (s t : SymbolSet) : SymbolSet :=
  t.toList.foldl (fun r x => r.insert x) s

instance : Union SymbolSet := ⟨union⟩

/-- The set without one member. -/
def erase (s : SymbolSet) (x : Symbol) : SymbolSet :=
  ⟨s.toList.filter (· ≠ x), s.ascending.filter _⟩

/-- The set of the members of a list. -/
def ofList (xs : List Symbol) : SymbolSet :=
  xs.foldl (fun r x => r.insert x) ∅

/-! ## Membership -/

@[ext] theorem ext {s t : SymbolSet} (h : ∀ x, x ∈ s ↔ x ∈ t) : s = t := by
  have := eq_of_mem_iff s.ascending t.ascending h
  cases s; cases t; simp_all

@[simp] theorem not_mem_empty (x : Symbol) : ¬ x ∈ (∅ : SymbolSet) :=
  List.not_mem_nil

@[simp] theorem mem_insert {x y : Symbol} {s : SymbolSet} :
    x ∈ s.insert y ↔ x = y ∨ x ∈ s :=
  mem_insertSorted

@[simp] theorem mem_singleton {x y : Symbol} : x ∈ singleton y ↔ x = y := by
  simp [singleton]

theorem mem_foldl_insert {x : Symbol} {xs : List Symbol} {s : SymbolSet} :
    x ∈ xs.foldl (fun r x => r.insert x) s ↔ x ∈ s ∨ x ∈ xs := by
  induction xs generalizing s with
  | nil => simp
  | cons y ys ih =>
      simp only [List.foldl_cons, ih, mem_insert, List.mem_cons, or_assoc]
      exact or_left_comm

@[simp] theorem mem_union {x : Symbol} {s t : SymbolSet} : x ∈ s ∪ t ↔ x ∈ s ∨ x ∈ t :=
  mem_foldl_insert

@[simp] theorem mem_erase {x y : Symbol} {s : SymbolSet} :
    x ∈ s.erase y ↔ x ∈ s ∧ x ≠ y := by
  show x ∈ s.toList.filter (· ≠ y) ↔ _
  rw [List.mem_filter]
  simp only [decide_eq_true_eq]
  rfl

@[simp] theorem mem_ofList {x : Symbol} {xs : List Symbol} : x ∈ ofList xs ↔ x ∈ xs := by
  simp [ofList, mem_foldl_insert]

end SymbolSet

end Predictive
