import Mathlib.Logic.Relation
import Predictive.Proofs.Lookahead

/-!
# Left corners

A left corner of a symbol is a symbol of one of its right-hand sides before which all can vanish: the
symbols whose First sets the search for the First set of a symbol asks for. A symbol that is its own
left corner over some productions is left-recursive (`leftRecursive_of_transGen`), so without left
recursion the search never comes back to a symbol on the way.

`Low` bounds the ranks of all symbols with which a form can begin. A grammar is free of left recursion
when ranks fall from each left-hand side to all symbols with which its right-hand sides can begin
(`isLeftRecursionFree_of_ranksFall`).
-/

set_option autoImplicit false

namespace Predictive

variable {g : Grammar}

/-! ## Left corners -/

/-- A sequence with the empty symbol in its First set can vanish. -/
theorem InFirstOf.vanishes {rhs : List Symbol} (h : InFirstOf g rhs Symbol.empty) :
    Derives g (rhs.filter (· ≠ Symbol.empty)) [] := by
  cases h.begins with
  | token visible _ _ => exact absurd rfl visible
  | vanishing derived => exact derived

/-- A symbol of a right-hand side of `s` before which all can vanish. -/
def LeftCorner (g : Grammar) (s x : Symbol) : Prop :=
  ∃ p ∈ g.productionList, p.lhs = s ∧ g.isToken s = false ∧ x ≠ Symbol.empty ∧
    ∃ before after, p.rhs = before ++ x :: after ∧ InFirstOf g before Symbol.empty

/-- A form that begins with a left corner can be derived in at least one step. -/
theorem LeftCorner.derives {s x : Symbol} (h : LeftCorner g s x) :
    ∃ form after, Expands g [s] form ∧ Derives g form (x :: after) := by
  obtain ⟨p, member, rfl, expandable, hx, before, after, hrhs, hbefore⟩ := h
  have hcontent : p.content =
      before.filter (· ≠ Symbol.empty) ++ x :: after.filter (· ≠ Symbol.empty) := by
    simp [Production.content, hrhs, hx]
  refine ⟨p.content, after.filter (· ≠ Symbol.empty), ?_, ?_⟩
  · have := Expands.intro p [] [] member expandable
    simpa using this
  · rw [hcontent]
    exact hbefore.vanishes.append (.refl _)

/-- A form that begins with a left corner of a left corner, and so on. -/
theorem derives_of_transGen {s x : Symbol} (h : Relation.TransGen (LeftCorner g) s x) :
    ∃ form after, Expands g [s] form ∧ Derives g form (x :: after) := by
  induction h with
  | single h => exact h.derives
  | tail _ last ih =>
      obtain ⟨form, after, hform, hderives⟩ := ih
      obtain ⟨form', after', hform', hderives'⟩ := last.derives
      refine ⟨form, after' ++ after, hform, hderives.trans (.step (hform'.inContext [] after) ?_)⟩
      exact hderives'.append (.refl after)

/-- A symbol that is its own left corner over some productions is left-recursive. -/
theorem leftRecursive_of_transGen {s : Symbol} (h : Relation.TransGen (LeftCorner g) s s) :
    g.LeftRecursive s :=
  derives_of_transGen h

/-! ## Ranks that fall to left corners -/

/-- The ranks of all symbols with which the form can begin are below `bound`, when the symbols for
which `vanishing` holds may vanish. -/
def Low (vanishing : Symbol → Bool) (rank : Symbol → Nat) (bound : Nat) : List Symbol → Prop
  | [] => True
  | x :: rest => rank x < bound ∧ (vanishing x = true → Low vanishing rank bound rest)

instance (vanishing : Symbol → Bool) (rank : Symbol → Nat) (bound : Nat) :
    (form : List Symbol) → Decidable (Low vanishing rank bound form)
  | [] => isTrue trivial
  | x :: rest =>
      have : Decidable (Low vanishing rank bound rest) :=
        instDecidableLow vanishing rank bound rest
      inferInstanceAs
        (Decidable (rank x < bound ∧ (vanishing x = true → Low vanishing rank bound rest)))

section Ranks

variable {vanishing : Symbol → Bool} {rank : Symbol → Nat}

theorem low_append_iff {bound : Nat} {first second : List Symbol} :
    Low vanishing rank bound (first ++ second) ↔
      Low vanishing rank bound first ∧
        ((∀ x ∈ first, vanishing x = true) → Low vanishing rank bound second) := by
  induction first with
  | nil => simp [Low]
  | cons x first ih =>
      simp only [List.cons_append, Low, ih, List.mem_cons, forall_eq_or_imp]
      constructor
      · rintro ⟨hx, h⟩
        exact ⟨⟨hx, fun hv => (h hv).1⟩, fun hv => (h hv.1).2 hv.2⟩
      · rintro ⟨⟨hx, hfirst⟩, hsecond⟩
        exact ⟨hx, fun hv => ⟨hfirst hv, fun hvs => hsecond ⟨hv, hvs⟩⟩⟩

theorem Low.mono {bound bound' : Nat} {form : List Symbol} (h : Low vanishing rank bound form)
    (hle : bound ≤ bound') : Low vanishing rank bound' form := by
  induction form with
  | nil => trivial
  | cons x form ih => exact ⟨Nat.lt_of_lt_of_le h.1 hle, fun hv => ih (h.2 hv)⟩

/-- Ranks that fall from the left-hand side of every production to all symbols with which its
content can begin, where `vanishing` holds at least of the symbols that can vanish. -/
def Grammar.RanksFall (g : Grammar) (vanishing : Symbol → Bool) (rank : Symbol → Nat) : Prop :=
  ∀ p ∈ g.productionList, Low vanishing rank (rank p.lhs) p.content ∧
    ((∀ x ∈ p.content, vanishing x = true) → vanishing p.lhs = true)

instance : Decidable (g.RanksFall vanishing rank) :=
  inferInstanceAs (Decidable (∀ p ∈ g.productionList, _))

theorem Low.expands (fall : g.RanksFall vanishing rank) {bound : Nat} {first second : List Symbol}
    (h : Low vanishing rank bound first) (hstep : Expands g first second) :
    Low vanishing rank bound second := by
  cases hstep with
  | intro p before after member expandable =>
      obtain ⟨hbefore, h⟩ := low_append_iff.1 h
      obtain ⟨hlow, hvanish⟩ := fall p member
      refine low_append_iff.2 ⟨hbefore, fun hv => ?_⟩
      obtain ⟨hrank, hafter⟩ := h hv
      refine low_append_iff.2 ⟨hlow.mono (Nat.le_of_lt hrank), fun hcontent => ?_⟩
      exact hafter (hvanish hcontent)

/-- A grammar whose ranks fall to left corners has no left recursion. -/
theorem isLeftRecursionFree_of_ranksFall (vanishing : Symbol → Bool) (rank : Symbol → Nat)
    (fall : g.RanksFall vanishing rank) : g.IsLeftRecursionFree := by
  rintro s ⟨form, after, hform, hderives⟩
  -- every symbol that a derivation can bring to the front has a lower rank
  have hlow : Low vanishing rank (rank s) form := by
    generalize hs : [s] = first at hform
    cases hform with
    | intro p before after' member expandable =>
        cases before with
        | cons x before => simp at hs
        | nil =>
            rw [List.nil_append, List.cons.injEq] at hs
            obtain ⟨rfl, rfl⟩ := hs
            rw [List.nil_append, List.append_nil]
            exact (fall p member).1
  have hlast : ∀ {first last : List Symbol}, Derives g first last →
      Low vanishing rank (rank s) first → Low vanishing rank (rank s) last := by
    intro first last h
    induction h with
    | refl form => exact id
    | step head _ ih => exact fun hfirst => ih (hfirst.expands fall head)
  exact absurd (hlast hderives hlow).1 (Nat.lt_irrefl _)

end Ranks

end Predictive
