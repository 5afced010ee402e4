import Predictive.Grammar.Derivation
import Predictive.Proofs.WellFormed

/-!
# Leftmost derivations of token sequences

A token at the front of a form is passed by every derivation that follows (`LeftDerives.of_cons`), so
a leftmost derivation of a token sequence falls into those of the parts of its form
(`LeftDerives.split`), and leftmost derivations of the parts make one of the whole
(`LeftDerives.append`). Hence every token sequence that can be derived at all has a leftmost
derivation (`exists_leftDerives`).
-/

set_option autoImplicit false

namespace Predictive

variable {g : Grammar}

namespace Grammar

theorem allTokens_nil : g.allTokens [] := by
  simp [allTokens]

theorem allTokens_cons {s : Symbol} {form : List Symbol} :
    g.allTokens (s :: form) ↔ g.isToken s = true ∧ g.allTokens form := by
  simp [allTokens]

theorem allTokens_append {first second : List Symbol} :
    g.allTokens (first ++ second) ↔ g.allTokens first ∧ g.allTokens second := by
  simp only [allTokens, List.mem_append]
  constructor
  · intro h
    exact ⟨fun t ht => h t (.inl ht), fun t ht => h t (.inr ht)⟩
  · rintro ⟨h, k⟩ t (ht | ht)
    · exact h t ht
    · exact k t ht

end Grammar

/-! ## Tokens at the front -/

/-- A leftmost derivation passes a token at the front. -/
theorem LeftDerives.of_cons {t : Symbol} {form last : List Symbol} {ns : List Int}
    (h : LeftDerives g (t :: form) ns last) (ht : g.isToken t = true) :
    ∃ rest, last = t :: rest ∧ LeftDerives g form ns rest := by
  generalize hform : t :: form = first at h
  induction h generalizing form with
  | refl _ => exact ⟨form, hform.symm, .refl form⟩
  | @step n p tokens after last ns numbered expandable passed tail ih =>
      cases tokens with
      | nil =>
          -- the leftmost symbol would be the token itself
          rw [List.nil_append, List.cons.injEq] at hform
          rw [hform.1, expandable] at ht
          exact absurd ht (by simp)
      | cons u tokens =>
          rw [List.cons_append, List.cons.injEq] at hform
          obtain ⟨rfl, rfl⟩ := hform
          have hnext : t :: (tokens ++ (p.content ++ after)) =
              t :: tokens ++ (p.content ++ after) := rfl
          obtain ⟨rest, hlast, hrest⟩ := ih hnext
          exact ⟨rest, hlast,
            .step numbered expandable (fun u hu => passed u (List.mem_cons_of_mem _ hu)) hrest⟩

theorem LeftDerives.of_append {tokens form last : List Symbol} {ns : List Int}
    (h : LeftDerives g (tokens ++ form) ns last) (ht : g.allTokens tokens) :
    ∃ rest, last = tokens ++ rest ∧ LeftDerives g form ns rest := by
  induction tokens generalizing last with
  | nil => exact ⟨last, rfl, h⟩
  | cons t tokens ih =>
      obtain ⟨htok, ht⟩ := Grammar.allTokens_cons.1 ht
      obtain ⟨rest, rfl, hrest⟩ := h.of_cons htok
      obtain ⟨rest', rfl, hrest'⟩ := ih hrest ht
      exact ⟨rest', rfl, hrest'⟩

theorem LeftDerives.behind {form last : List Symbol} {ns : List Int}
    (h : LeftDerives g form ns last) {tokens : List Symbol} (ht : g.allTokens tokens) :
    LeftDerives g (tokens ++ form) ns (tokens ++ last) := by
  induction h with
  | refl form => exact .refl _
  | @step n p passing after last ns numbered expandable passed tail ih =>
      have hpassed : g.allTokens (tokens ++ passing) := Grammar.allTokens_append.2 ⟨ht, passed⟩
      rw [← List.append_assoc]
      refine .step numbered expandable hpassed ?_
      rw [List.append_assoc]
      exact ih

theorem LeftDerives.before {form last : List Symbol} {ns : List Int}
    (h : LeftDerives g form ns last) (after : List Symbol) :
    LeftDerives g (form ++ after) ns (last ++ after) := by
  induction h with
  | refl form => exact .refl _
  | @step n p passing between last ns numbered expandable passed tail ih =>
      rw [List.append_assoc, List.cons_append]
      refine .step numbered expandable passed ?_
      rw [← List.append_assoc p.content, ← List.append_assoc passing]
      exact ih

/-! ## Parts of a form -/

/-- Leftmost derivations of two forms, the first one of tokens, one after the other. -/
theorem LeftDerives.append {first last first' last' : List Symbol} {ns ms : List Int}
    (h : LeftDerives g first ns last) (ht : g.allTokens last)
    (k : LeftDerives g first' ms last') :
    LeftDerives g (first ++ first') (ns ++ ms) (last ++ last') :=
  (h.before first').trans (k.behind ht)

/-- A leftmost derivation of tokens from two forms side by side derives from the first one and then
from the second. -/
theorem LeftDerives.split {first second last : List Symbol} {ns : List Int}
    (h : LeftDerives g (first ++ second) ns last) (ht : g.allTokens last) :
    ∃ ns₁ ns₂ last₁ last₂, ns = ns₁ ++ ns₂ ∧ last = last₁ ++ last₂ ∧
      LeftDerives g first ns₁ last₁ ∧ LeftDerives g second ns₂ last₂ := by
  generalize hform : first ++ second = form at h
  induction h generalizing first with
  | refl form =>
      subst hform
      exact ⟨[], [], first, second, rfl, rfl, .refl first, .refl second⟩
  | @step n p tokens after last ns numbered expandable passed tail ih =>
      rcases cut_of_append_cons_eq hform.symm with
        ⟨between, rfl, rfl⟩ | ⟨between, rfl, rfl⟩
      · -- the production expands a symbol of the first form
        have hparts : (tokens ++ (p.content ++ between)) ++ second =
            tokens ++ (p.content ++ (between ++ second)) := by
          simp
        obtain ⟨ns₁, ns₂, last₁, last₂, rfl, rfl, h₁, h₂⟩ := ih ht hparts
        exact ⟨n :: ns₁, ns₂, last₁, last₂, rfl, rfl, .step numbered expandable passed h₁, h₂⟩
      · -- the first form consists of tokens, so all productions belong to the second
        obtain ⟨hfirst, hbetween⟩ := Grammar.allTokens_append.1 passed
        rw [List.append_assoc] at tail
        obtain ⟨rest, rfl, hrest⟩ := tail.of_append hfirst
        exact ⟨[], n :: ns, first, rest, rfl, rfl, .refl first,
          .step numbered expandable hbetween hrest⟩

/-! ## Leftmost derivations exist -/

/-- Every token sequence that can be derived has a leftmost derivation. -/
theorem exists_leftDerives {form last : List Symbol} (h : Derives g form last)
    (ht : g.allTokens last) : ∃ ns, LeftDerives g form ns last := by
  induction h with
  | refl form => exact ⟨[], .refl form⟩
  | step head tail ih =>
      obtain ⟨ns, hns⟩ := ih ht
      cases head with
      | intro p before after member expandable =>
          -- the derivation falls into three: of what stands before, of the content, and of the rest
          obtain ⟨n, numbered⟩ := Grammar.mem_productionList_iff.1 member
          obtain ⟨ns₁, ms, last₁, rest, rfl, rfl, h₁, hrest⟩ := hns.split ht
          obtain ⟨ht₁, htrest⟩ := Grammar.allTokens_append.1 ht
          obtain ⟨ns₂, ns₃, last₂, last₃, rfl, rfl, h₂, h₃⟩ := hrest.split htrest
          obtain ⟨ht₂, -⟩ := Grammar.allTokens_append.1 htrest
          have hcontent : LeftDerives g ([] ++ (p.content ++ [])) ns₂ last₂ := by
            simpa using h₂
          -- the production comes before the derivation of its content
          have hlhs : LeftDerives g [p.lhs] (n :: ns₂) last₂ :=
            .step numbered expandable (by simp) hcontent
          exact ⟨ns₁ ++ (n :: ns₂ ++ ns₃), h₁.append ht₁ (hlhs.append ht₂ h₃)⟩

end Predictive
