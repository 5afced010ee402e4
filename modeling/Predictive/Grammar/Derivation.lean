import Predictive.Grammar.Basic

/-!
# Derivations

A sentential form is a list of symbols. One step of a derivation puts the content of a production in
the place of its left-hand side, somewhere in the form; tokens are never expanded, even if they have
productions. A leftmost derivation expands the first symbol that is no token, and is given by the
numbers of its productions: `replay` carries such a list out, and `replay_eq_some_iff` says that it
succeeds exactly along leftmost derivations.
-/

set_option autoImplicit false

namespace Predictive

/-- One step of a derivation. -/
inductive Expands (g : Grammar) : List Symbol → List Symbol → Prop
  | intro (p : Production) (before after : List Symbol) (member : p ∈ g.productionList)
      (expandable : g.isToken p.lhs = false) :
      Expands g (before ++ p.lhs :: after) (before ++ (p.content ++ after))

/-- Zero or more steps of a derivation. -/
inductive Derives (g : Grammar) : List Symbol → List Symbol → Prop
  | refl (form : List Symbol) : Derives g form form
  | step {first second last : List Symbol} (head : Expands g first second)
      (tail : Derives g second last) : Derives g first last

/-- A leftmost derivation, with the numbers of its productions. -/
inductive LeftDerives (g : Grammar) : List Symbol → List Int → List Symbol → Prop
  | refl (form : List Symbol) : LeftDerives g form [] form
  | step {n : Int} {p : Production} {tokens after last : List Symbol} {ns : List Int}
      (numbered : g.production? n = some p) (expandable : g.isToken p.lhs = false)
      (passed : ∀ t ∈ tokens, g.isToken t = true)
      (tail : LeftDerives g (tokens ++ (p.content ++ after)) ns last) :
      LeftDerives g (tokens ++ p.lhs :: after) (n :: ns) last

/-- Whether a sentential form is a sequence of tokens. -/
def Grammar.allTokens (g : Grammar) (form : List Symbol) : Prop :=
  ∀ t ∈ form, g.isToken t = true

/-- The token sequences that a grammar generates. -/
def Grammar.Generates (g : Grammar) (form : List Symbol) : Prop :=
  Derives g [g.start] form ∧ g.allTokens form

/-- A symbol from which a form that begins with it can be derived in at least one step. -/
def Grammar.LeftRecursive (g : Grammar) (s : Symbol) : Prop :=
  ∃ form after, Expands g [s] form ∧ Derives g form (s :: after)

/-! ## Steps in a context -/

theorem Expands.inContext {g : Grammar} {first second : List Symbol} (h : Expands g first second)
    (before after : List Symbol) :
    Expands g (before ++ (first ++ after)) (before ++ (second ++ after)) := by
  cases h with
  | intro p front back member expandable =>
      have := Expands.intro p (before ++ front) (back ++ after) member expandable
      simpa using this

theorem Derives.inContext {g : Grammar} {first last : List Symbol} (h : Derives g first last)
    (before after : List Symbol) :
    Derives g (before ++ (first ++ after)) (before ++ (last ++ after)) := by
  induction h with
  | refl form => exact .refl _
  | step head _ ih => exact .step (head.inContext before after) ih

theorem Derives.trans {g : Grammar} {first second last : List Symbol} (h : Derives g first second)
    (k : Derives g second last) : Derives g first last := by
  induction h with
  | refl _ => exact k
  | step head _ ih => exact .step head (ih k)

/-- Two derivations side by side. -/
theorem Derives.append {g : Grammar} {first last first' last' : List Symbol}
    (h : Derives g first last) (k : Derives g first' last') :
    Derives g (first ++ first') (last ++ last') := by
  have left := h.inContext [] first'
  have right := k.inContext last []
  simp only [List.nil_append, List.append_nil] at left right
  exact left.trans right

/-! ## Leftmost derivations -/

theorem Grammar.mem_productionList {g : Grammar} {n : Int} {p : Production}
    (h : g.production? n = some p) : p ∈ g.productionList := by
  unfold Grammar.production? OrderedMap.get? at h
  unfold Grammar.productionList OrderedMap.values
  generalize g.productions.entries = entries at h
  induction entries with
  | nil => simp [OrderedMap.lookupEntry] at h
  | cons e es ih =>
      unfold OrderedMap.lookupEntry at h
      split at h
      · cases h; simp
      · exact List.mem_cons_of_mem _ (ih h)

theorem LeftDerives.derives {g : Grammar} {first last : List Symbol} {ns : List Int}
    (h : LeftDerives g first ns last) : Derives g first last := by
  induction h with
  | refl form => exact .refl form
  | step numbered expandable _ _ ih =>
      exact .step (.intro _ _ _ (Grammar.mem_productionList numbered) expandable) ih

theorem LeftDerives.trans {g : Grammar} {first second last : List Symbol} {ns ms : List Int}
    (h : LeftDerives g first ns second) (k : LeftDerives g second ms last) :
    LeftDerives g first (ns ++ ms) last := by
  induction h with
  | refl _ => exact k
  | step numbered expandable passed _ ih => exact .step numbered expandable passed (ih k)

/-! ## Replaying -/

namespace Grammar

/-- The form after the expansion of its first symbol that is no token, if the production with the
number is one of that symbol. -/
def expandLeftmost (g : Grammar) (n : Int) : List Symbol → Option (List Symbol)
  | [] => none
  | s :: after =>
      if g.isToken s then (expandLeftmost g n after).map (s :: ·)
      else
        match g.production? n with
        | none => none
        | some p => if p.lhs = s then some (p.content ++ after) else none

/-- The form after leftmost expansions by the productions with the numbers. -/
def replay (g : Grammar) : List Int → List Symbol → Option (List Symbol)
  | [], form => some form
  | n :: ns, form => (g.expandLeftmost n form).bind (g.replay ns)

theorem expandLeftmost_eq_some_iff {g : Grammar} {n : Int} {form next : List Symbol} :
    g.expandLeftmost n form = some next ↔
      ∃ p tokens after, g.production? n = some p ∧ g.isToken p.lhs = false ∧
        g.allTokens tokens ∧ form = tokens ++ p.lhs :: after ∧
        next = tokens ++ (p.content ++ after) := by
  induction form generalizing next with
  | nil => simp [expandLeftmost]
  | cons s rest ih =>
      unfold expandLeftmost
      -- a token is left in front, and the production is used behind it
      by_cases hs : g.isToken s = true
      · simp only [hs, if_true, Option.map_eq_some_iff]
        constructor
        · rintro ⟨inner, hinner, rfl⟩
          obtain ⟨p, tokens, after, hp, hl, ht, rfl, rfl⟩ := ih.1 hinner
          refine ⟨p, s :: tokens, after, hp, hl, ?_, rfl, rfl⟩
          intro t hmem
          cases List.mem_cons.1 hmem with
          | inl h => rw [h]; exact hs
          | inr h => exact ht t h
        · rintro ⟨p, tokens, after, hp, hl, ht, hform, rfl⟩
          cases tokens with
          | nil =>
              simp only [List.nil_append, List.cons.injEq] at hform
              rw [hform.1, hl] at hs
              exact absurd hs (by simp)
          | cons t tokens =>
              simp only [List.cons_append, List.cons.injEq] at hform
              refine ⟨tokens ++ (p.content ++ after), ?_, by rw [hform.1]; rfl⟩
              exact ih.2 ⟨p, tokens, after, hp, hl,
                fun u hu => ht u (List.mem_cons_of_mem _ hu), hform.2, rfl⟩
      · -- the head itself is the leftmost symbol, so no token stands before it
        have hs' : g.isToken s = false := by simpa using hs
        simp only [hs', Bool.false_eq_true, if_false]
        constructor
        · intro h
          split at h
          · exact absurd h (by simp)
          · next p hp =>
              split at h
              · next hl =>
                  refine ⟨p, [], rest, hp, hl ▸ hs', by simp [allTokens], by rw [hl]; rfl, ?_⟩
                  simpa using h.symm
              · exact absurd h (by simp)
        · rintro ⟨p, tokens, after, hp, hl, ht, hform, rfl⟩
          cases tokens with
          | nil =>
              simp only [List.nil_append, List.cons.injEq] at hform
              simp [hp, hform.1, hform.2]
          | cons t tokens =>
              simp only [List.cons_append, List.cons.injEq] at hform
              have := ht t List.mem_cons_self
              rw [← hform.1, hs'] at this
              exact absurd this (by simp)

/-- A list of numbers can be replayed exactly along a leftmost derivation. -/
theorem replay_eq_some_iff {g : Grammar} {ns : List Int} {form last : List Symbol} :
    g.replay ns form = some last ↔ LeftDerives g form ns last := by
  induction ns generalizing form with
  | nil =>
      constructor
      · intro h
        cases h
        exact .refl _
      · intro h
        cases h
        rfl
  | cons n ns ih =>
      unfold replay
      rw [Option.bind_eq_some_iff]
      constructor
      · rintro ⟨next, hnext, hrest⟩
        obtain ⟨p, tokens, after, hp, hl, ht, rfl, rfl⟩ := expandLeftmost_eq_some_iff.1 hnext
        exact .step hp hl ht (ih.1 hrest)
      · intro h
        cases h with
        | step numbered expandable passed tail =>
            exact ⟨_, expandLeftmost_eq_some_iff.2
              ⟨_, _, _, numbered, expandable, passed, rfl, rfl⟩, ih.2 tail⟩

end Grammar

end Predictive
