import Predictive.Analysis.Least
import Predictive.Proofs.Leftmost

/-!
# Lookaheads of derivations

What derivations say about the least First, Follow and Predict sets. The First set of a form does not
grow along a derivation, so it holds the token with which a derived token sequence begins
(`Derives.inFirstOf`), and it holds nothing but what derived forms begin with
(`inFirstOf_iff_begins`); what can come after a symbol in a sentential form is in the Follow set of the
symbol (`Derives.followsHold`). Hence a production that is used in a derivation of a token sequence
predicts the token that comes next (`inPredict_lookahead`), and a token sequence has at most one
leftmost derivation if no token is predicted by two productions of one symbol
(`PredictsOne.leftDerives_unique`), as in an LL(1) grammar (`IsLL1.leftDerives_unique`).
-/

set_option autoImplicit false

namespace Predictive

variable {g : Grammar}

/-! ## First sets of sequences -/

theorem inFirstOf_nil_iff {t : Symbol} : InFirstOf g [] t ↔ t = Symbol.empty := by
  constructor
  · intro h
    cases h
    rfl
  · rintro rfl
    exact .nil

theorem inFirstOf_empty_cons {rest : List Symbol} {t : Symbol} :
    InFirstOf g (Symbol.empty :: rest) t ↔ InFirstOf g rest t := by
  constructor
  · intro h
    cases h with
    | empty h => exact h
    | head proper _ _ => exact absurd rfl proper
    | tail proper _ _ => exact absurd rfl proper
  · exact .empty

theorem inFirstOf_singleton_iff {s t : Symbol} (hs : s ≠ Symbol.empty) :
    InFirstOf g [s] t ↔ InFirst g s t := by
  constructor
  · intro h
    cases h with
    | empty _ => exact absurd rfl hs
    | head _ h _ => exact h
    | tail _ vanishes h =>
        cases h
        exact vanishes
  · intro h
    by_cases ht : t = Symbol.empty
    · subst ht
      exact .tail hs h .nil
    · exact .head hs h ht

theorem inFirstOf_cons_of_ne {s t : Symbol} {rest : List Symbol} (hs : s ≠ Symbol.empty) :
    InFirstOf g (s :: rest) t ↔
      (InFirst g s t ∧ t ≠ Symbol.empty) ∨ (InFirst g s Symbol.empty ∧ InFirstOf g rest t) := by
  constructor
  · intro h
    cases h with
    | empty _ => exact absurd rfl hs
    | head _ h visible => exact .inl ⟨h, visible⟩
    | tail _ vanishes h => exact .inr ⟨vanishes, h⟩
  · rintro (⟨h, visible⟩ | ⟨vanishes, h⟩)
    · exact .head hs h visible
    · exact .tail hs vanishes h

/-- What begins two sequences begins the first one, or the second one after the first vanished. -/
theorem inFirstOf_append_iff {first second : List Symbol} {t : Symbol} :
    InFirstOf g (first ++ second) t ↔
      (InFirstOf g first t ∧ t ≠ Symbol.empty) ∨
        (InFirstOf g first Symbol.empty ∧ InFirstOf g second t) := by
  induction first with
  | nil =>
      rw [List.nil_append, inFirstOf_nil_iff, inFirstOf_nil_iff]
      constructor
      · intro h
        exact .inr ⟨rfl, h⟩
      · rintro (⟨rfl, visible⟩ | ⟨-, h⟩)
        · exact absurd rfl visible
        · exact h
  | cons s first ih =>
      -- an ε at the head is passed over on both sides
      by_cases hs : s = Symbol.empty
      · subst hs
        rw [List.cons_append, inFirstOf_empty_cons, inFirstOf_empty_cons, inFirstOf_empty_cons]
        exact ih
      · rw [List.cons_append, inFirstOf_cons_of_ne hs, inFirstOf_cons_of_ne hs,
          inFirstOf_cons_of_ne hs, ih]
        constructor
        · rintro (⟨h, visible⟩ | ⟨vanishes, ⟨h, visible⟩ | ⟨hfirst, h⟩⟩)
          · exact .inl ⟨.inl ⟨h, visible⟩, visible⟩
          · exact .inl ⟨.inr ⟨vanishes, h⟩, visible⟩
          · exact .inr ⟨.inr ⟨vanishes, hfirst⟩, h⟩
        · rintro (⟨⟨h, -⟩ | ⟨vanishes, h⟩, visible⟩ | ⟨⟨-, visible⟩ | ⟨vanishes, hfirst⟩, h⟩)
          · exact .inl ⟨h, visible⟩
          · exact .inr ⟨vanishes, .inl ⟨h, visible⟩⟩
          · exact absurd rfl visible
          · exact .inr ⟨vanishes, .inr ⟨hfirst, h⟩⟩

theorem inFirstOf_content {p : Production} {t : Symbol} :
    InFirstOf g p.content t ↔ InFirstOf g p.rhs t :=
  inFirstOf_filter

theorem InFirstOf.append_congr {first second second' : List Symbol} {t : Symbol}
    (h : InFirstOf g (first ++ second) t)
    (hsecond : ∀ u, InFirstOf g second u → InFirstOf g second' u) :
    InFirstOf g (first ++ second') t := by
  rcases inFirstOf_append_iff.1 h with hfirst | ⟨vanishes, h⟩
  · exact inFirstOf_append_iff.2 (.inl hfirst)
  · exact inFirstOf_append_iff.2 (.inr ⟨vanishes, hsecond t h⟩)

/-! ## Derivations -/

/-- No production of the grammar is one of the empty symbol. -/
def Grammar.EmptyHasNoRule (g : Grammar) : Prop :=
  ∀ p ∈ g.productionList, p.lhs ≠ Symbol.empty

theorem Grammar.EmptyStandsAlone.emptyHasNoRule (h : g.EmptyStandsAlone) : g.EmptyHasNoRule :=
  fun p hp => (h p hp).1

theorem Grammar.not_mem_content (p : Production) : Symbol.empty ∉ p.content := by
  simp [Production.content]

theorem Expands.inFirstOf {first second : List Symbol} (proper : g.EmptyHasNoRule)
    (h : Expands g first second) {t : Symbol} (ht : InFirstOf g second t) :
    InFirstOf g first t := by
  cases h with
  | intro p before after member expandable =>
      refine ht.append_congr fun u hu => ?_
      have hlhs : ∀ u, InFirstOf g p.content u → InFirst g p.lhs u := fun u hu =>
        .production member expandable (inFirstOf_content.1 hu)
      rw [inFirstOf_cons_of_ne (proper p member)]
      rcases inFirstOf_append_iff.1 hu with ⟨hu, visible⟩ | ⟨vanishes, hu⟩
      · exact .inl ⟨hlhs u hu, visible⟩
      · exact .inr ⟨hlhs _ vanishes, hu⟩

/-- A derivation takes nothing into the First set. -/
theorem Derives.inFirstOf_of_inFirstOf {first last : List Symbol} (proper : g.EmptyHasNoRule)
    (h : Derives g first last) {t : Symbol} (ht : InFirstOf g last t) : InFirstOf g first t := by
  induction h with
  | refl form => exact ht
  | step head _ ih => exact head.inFirstOf proper (ih ht)

/-- The First set of a form holds the token with which a derived token sequence begins, and the
empty symbol if nothing is derived. -/
theorem Derives.inFirstOf {form last : List Symbol} (proper : g.EmptyHasNoRule)
    (h : Derives g form last) (tokens : g.allTokens last) (hlast : Symbol.empty ∉ last) :
    InFirstOf g form (last.head?.getD Symbol.empty) := by
  refine h.inFirstOf_of_inFirstOf proper ?_
  cases last with
  | nil => exact .nil
  | cons t last =>
      have ht : t ≠ Symbol.empty := fun e => hlast (e ▸ List.mem_cons_self)
      exact .head ht (.token (Grammar.allTokens_cons.1 tokens).1) ht

/-- What holds of the symbols of a form and of all contents holds of the symbols that are derived. -/
theorem Derives.forall_mem {P : Symbol → Prop}
    (contents : ∀ p ∈ g.productionList, ∀ s ∈ p.content, P s) {first last : List Symbol}
    (h : Derives g first last) (hfirst : ∀ s ∈ first, P s) : ∀ s ∈ last, P s := by
  induction h with
  | refl form => exact hfirst
  | step head _ ih =>
      apply ih
      cases head with
      | intro p before after member expandable =>
          intro s hs
          rw [List.mem_append, List.mem_append] at hs
          rcases hs with hs | hs | hs
          · exact hfirst s (List.mem_append_left _ hs)
          · exact contents p member s hs
          · exact hfirst s (List.mem_append_right _ (List.mem_cons_of_mem _ hs))

theorem Derives.not_mem_empty {first last : List Symbol} (h : Derives g first last)
    (hfirst : Symbol.empty ∉ first) : Symbol.empty ∉ last := by
  have visible := h.forall_mem (P := fun s => s ≠ Symbol.empty)
    (fun p _ s hs e => Grammar.not_mem_content p (e ▸ hs)) fun s hs e => hfirst (e ▸ hs)
  exact fun hmem => visible _ hmem rfl

/-! ## What a form can begin with -/

/-- A token with which a form that can be derived begins, or the empty symbol, if nothing needs to be
left of the form. -/
inductive Grammar.Begins (g : Grammar) (form : List Symbol) : Symbol → Prop
  | token {t : Symbol} {rest : List Symbol} (visible : t ≠ Symbol.empty) (h : g.isToken t = true)
      (derived : Derives g form (t :: rest)) : Grammar.Begins g form t
  | vanishing (derived : Derives g form []) : Grammar.Begins g form Symbol.empty

namespace Grammar.Begins

theorem of_derives {first second : List Symbol} {t : Symbol} (h : Derives g first second)
    (begins : g.Begins second t) : g.Begins first t := by
  cases begins with
  | token visible token derived => exact .token visible token (h.trans derived)
  | vanishing derived => exact .vanishing (h.trans derived)

/-- A longer form can begin with all tokens with which its front can begin. -/
theorem append {first : List Symbol} {t : Symbol} (begins : g.Begins first t)
    (visible : t ≠ Symbol.empty) (second : List Symbol) : g.Begins (first ++ second) t := by
  cases begins with
  | token _ token derived => exact .token visible token (derived.append (.refl second))
  | vanishing _ => exact absurd rfl visible

/-- If the front can vanish, it can also begin with what comes after the front. -/
theorem of_vanishing {first second : List Symbol} {t : Symbol}
    (vanishing : g.Begins first Symbol.empty) (begins : g.Begins second t) :
    g.Begins (first ++ second) t := by
  cases vanishing with
  | token visible _ _ => exact absurd rfl visible
  | vanishing derived => exact of_derives (derived.append (.refl second)) begins

/-- What a form can begin with is in its First set. -/
theorem inFirstOf {form : List Symbol} {t : Symbol} (proper : g.EmptyHasNoRule)
    (begins : g.Begins form t) : InFirstOf g form t := by
  cases begins with
  | token visible token derived =>
      exact derived.inFirstOf_of_inFirstOf proper (.head visible (.token token) visible)
  | vanishing derived => exact derived.inFirstOf_of_inFirstOf proper .nil

end Grammar.Begins

/-- What is closed under the rules for First sets holds of their members. -/
theorem first_induction {P : Symbol → Symbol → Prop} {Q : List Symbol → Symbol → Prop}
    (token : ∀ s, g.isToken s = true → P s s)
    (production : ∀ p t, p ∈ g.productionList → g.isToken p.lhs = false → Q p.rhs t → P p.lhs t)
    (nil : Q [] Symbol.empty)
    (empty : ∀ rest t, Q rest t → Q (Symbol.empty :: rest) t)
    (head : ∀ s t rest, s ≠ Symbol.empty → P s t → t ≠ Symbol.empty → Q (s :: rest) t)
    (tail : ∀ s t rest, s ≠ Symbol.empty → P s Symbol.empty → Q rest t → Q (s :: rest) t) :
    (∀ s t, InFirst g s t → P s t) ∧ ∀ rhs t, InFirstOf g rhs t → Q rhs t :=
  ⟨fun _ _ h =>
      @InFirst.rec g (fun s t _ => P s t) (fun rhs t _ => Q rhs t)
        (fun h => token _ h) (fun member expandable _ ih => production _ _ member expandable ih) nil
        (fun _ ih => empty _ _ ih) (fun proper _ visible ih => head _ _ _ proper ih visible)
        (fun proper _ _ ihs ihrest => tail _ _ _ proper ihs ihrest) _ _ h,
    fun _ _ h =>
      @InFirstOf.rec g (fun s t _ => P s t) (fun rhs t _ => Q rhs t)
        (fun h => token _ h) (fun member expandable _ ih => production _ _ member expandable ih) nil
        (fun _ ih => empty _ _ ih) (fun proper _ visible ih => head _ _ _ proper ih visible)
        (fun proper _ _ ihs ihrest => tail _ _ _ proper ihs ihrest) _ _ h⟩

/-- A sequence without its empty symbols can begin with all that is in its First set. -/
theorem InFirstOf.begins {rhs : List Symbol} {t : Symbol} (h : InFirstOf g rhs t) :
    g.Begins (rhs.filter (· ≠ Symbol.empty)) t := by
  have rules := first_induction (g := g)
    (P := fun s t => s ≠ Symbol.empty → g.Begins [s] t)
    (Q := fun rhs t => g.Begins (rhs.filter (· ≠ Symbol.empty)) t)
  -- one case for each rule of the two mutual relations
  apply (rules ?_ ?_ ?_ ?_ ?_ ?_).2 rhs t h
  · intro s token hs
    exact .token hs token (.refl [s])
  · intro p t member expandable ih _
    have step : Expands g [p.lhs] (p.content ++ []) := .intro p [] [] member expandable
    rw [List.append_nil] at step
    exact .of_derives (.step step (.refl p.content)) ih
  · exact .vanishing (.refl [])
  · intro rest t ih
    simpa using ih
  · intro s t rest hs ih visible
    rw [List.filter_cons_of_pos (by simpa using hs)]
    exact (ih hs).append visible _
  · intro s t rest hs vanishing ih
    rw [List.filter_cons_of_pos (by simpa using hs)]
    exact .of_vanishing (vanishing hs) ih

/-- The First set of a form without the empty symbol is what the form can begin with. -/
theorem inFirstOf_iff_begins {form : List Symbol} {t : Symbol} (proper : g.EmptyHasNoRule)
    (hform : Symbol.empty ∉ form) : InFirstOf g form t ↔ g.Begins form t := by
  constructor
  · intro h
    have hfilter : form.filter (· ≠ Symbol.empty) = form := by
      rw [List.filter_eq_self]
      intro s hs
      exact decide_eq_true fun e => hform (e ▸ hs)
    exact hfilter ▸ h.begins
  · intro begins
    exact begins.inFirstOf proper

/-! ## What follows a symbol of a sentential form -/

/-- Each symbol of the form has in its Follow set what can begin the rest of the form, and the end
marker if the rest can vanish. -/
def Grammar.FollowsHold (g : Grammar) (form : List Symbol) : Prop :=
  ∀ before s after, form = before ++ s :: after →
    (∀ t, InFirstOf g after t → t ≠ Symbol.empty → InFollow g s t) ∧
      (InFirstOf g after Symbol.empty → InFollow g s Symbol.endMarker)

theorem Grammar.followsHold_start : g.FollowsHold [g.start] := by
  intro before s after h
  cases before with
  | nil =>
      rw [List.nil_append, List.cons.injEq] at h
      obtain ⟨rfl, rfl⟩ := h
      exact ⟨fun t ht visible => absurd (inFirstOf_nil_iff.1 ht) visible, fun _ => .start⟩
  | cons u before => simp at h

/-- A use of a symbol in the content of a production is one in its right-hand side. -/
theorem Production.exists_rhs_eq {p : Production} {before after : List Symbol} {s : Symbol}
    (h : p.content = before ++ s :: after) :
    ∃ before' after', p.rhs = before' ++ s :: after' ∧
      ∀ t, InFirstOf g after t ↔ InFirstOf g after' t := by
  obtain ⟨before', rest, hrhs, -, hrest⟩ := List.filter_eq_append_iff.1 h
  obtain ⟨skipped, after', rfl, -, -, hafter⟩ := List.filter_eq_cons_iff.1 hrest
  refine ⟨before' ++ skipped, after', by rw [hrhs, List.append_assoc], ?_⟩
  intro t
  rw [← hafter]
  exact inFirstOf_filter

theorem Grammar.FollowsHold.expands {first second : List Symbol} (proper : g.EmptyHasNoRule)
    (hfirst : g.FollowsHold first) (h : Expands g first second) : g.FollowsHold second := by
  cases h with
  | intro p before after member expandable =>
      have hlhs := hfirst before p.lhs after rfl
      intro front s rest hform
      rcases cut_of_append_cons_eq hform.symm with ⟨between, hbefore, hrest⟩ | ⟨between, -, hform⟩
      · -- the symbol stands before the expanded one
        have hshrink : ∀ t, InFirstOf g rest t → InFirstOf g (between ++ p.lhs :: after) t := by
          intro t ht
          rw [hrest] at ht
          exact (Expands.intro p between after member expandable).inFirstOf proper ht
        obtain ⟨hnext, hend⟩ := hfirst front s (between ++ p.lhs :: after) (by simp [hbefore])
        exact ⟨fun t ht => hnext t (hshrink t ht), fun ht => hend (hshrink _ ht)⟩
      · rcases cut_of_append_cons_eq hform.symm with ⟨back, hcontent, hrest⟩ | ⟨back, -, hrest⟩
        · -- the symbol is new: the rest of the content comes first, then what followed before
          obtain ⟨before', after', hrhs, hafter⟩ := Production.exists_rhs_eq (g := g) hcontent
          have hlast : ∀ t, InFirstOf g back Symbol.empty → InFollow g p.lhs t → InFollow g s t :=
            fun t vanishes => .last member hrhs ((hafter _).1 vanishes)
          rw [hrest]
          constructor
          · intro t ht visible
            rcases inFirstOf_append_iff.1 ht with ⟨ht, -⟩ | ⟨vanishes, ht⟩
            · exact .next member hrhs ((hafter t).1 ht) visible
            · exact hlast t vanishes (hlhs.1 t ht visible)
          · intro ht
            rcases inFirstOf_append_iff.1 ht with ⟨-, visible⟩ | ⟨vanishes, ht⟩
            · exact absurd rfl visible
            · exact hlast _ vanishes (hlhs.2 ht)
        · -- the symbol stands after the expanded one
          exact hfirst (before ++ p.lhs :: back) s rest (by simp [hrest])

/-- What can come after a symbol of a sentential form is in the Follow set of the symbol. -/
theorem Derives.followsHold {first last : List Symbol} (proper : g.EmptyHasNoRule)
    (h : Derives g first last) (hfirst : g.FollowsHold first) : g.FollowsHold last := by
  induction h with
  | refl form => exact hfirst
  | step head _ ih => exact ih (hfirst.expands proper head)

/-! ## Prediction -/

/-- The token with which a token sequence begins, or the end marker. -/
def lookahead (tokens : List Symbol) : Symbol :=
  tokens.head?.getD Symbol.endMarker

/-- A production that is used in a derivation of tokens predicts the token that comes next. -/
theorem inPredict_lookahead {p : Production} {before after rest : List Symbol}
    (proper : g.EmptyHasNoRule) (sentential : Derives g [g.start] (before ++ p.lhs :: after))
    (tail : Derives g (p.content ++ after) rest) (tokens : g.allTokens rest)
    (hrest : Symbol.empty ∉ rest) : InPredict g p (lookahead rest) := by
  obtain ⟨hnext, hend⟩ := sentential.followsHold proper g.followsHold_start before p.lhs after rfl
  have hfirst := tail.inFirstOf proper tokens hrest
  cases rest with
  | nil =>
      -- all vanishes, so the end marker follows the left-hand side
      rcases inFirstOf_append_iff.1 hfirst with ⟨-, visible⟩ | ⟨vanishes, hafter⟩
      · exact absurd rfl visible
      · exact .follow (inFirstOf_content.1 vanishes) (hend hafter)
  | cons t rest =>
      have ht : t ≠ Symbol.empty := fun e => hrest (e ▸ List.mem_cons_self)
      -- the token begins the content, or follows it when it vanishes
      rcases inFirstOf_append_iff.1 hfirst with ⟨h, -⟩ | ⟨vanishes, hafter⟩
      · exact .first (inFirstOf_content.1 h) ht
      · exact .follow (inFirstOf_content.1 vanishes) (hnext t hafter ht)

/-! ## Unique leftmost derivations -/

/-- The first symbol of a form that is no token is at one place only. -/
theorem Grammar.first_nonterminal_unique {tokens tokens' after after' : List Symbol}
    {s s' : Symbol} (ht : g.allTokens tokens) (ht' : g.allTokens tokens')
    (hs : g.isToken s = false) (hs' : g.isToken s' = false)
    (h : tokens ++ s :: after = tokens' ++ s' :: after') :
    tokens = tokens' ∧ s = s' ∧ after = after' := by
  -- where one cut comes first, its symbol would be a token of the other one
  induction tokens generalizing tokens' with
  | nil =>
      cases tokens' with
      | nil => simpa using h
      | cons t' tokens' =>
          rw [List.nil_append, List.cons_append, List.cons.injEq] at h
          rw [h.1, (allTokens_cons.1 ht').1] at hs
          exact absurd hs (by simp)
  | cons t tokens ih =>
      cases tokens' with
      | nil =>
          rw [List.nil_append, List.cons_append, List.cons.injEq] at h
          rw [← h.1, (allTokens_cons.1 ht).1] at hs'
          exact absurd hs' (by simp)
      | cons t' tokens' =>
          rw [List.cons_append, List.cons_append, List.cons.injEq] at h
          obtain ⟨rfl, hs, ha⟩ := ih (allTokens_cons.1 ht).2 (allTokens_cons.1 ht').2 h.2
          exact ⟨by rw [h.1], hs, ha⟩

theorem LeftDerives.numbers_eq_nil {form last : List Symbol} {ns : List Int}
    (h : LeftDerives g form ns last) (tokens : g.allTokens form) : ns = [] := by
  cases h with
  | refl _ => rfl
  | @step n p passing after last ns numbered expandable passed tail =>
      rw [(Grammar.allTokens_cons.1 (Grammar.allTokens_append.1 tokens).2).1] at expandable
      exact absurd expandable (by simp)

/-- No two numbers stand for productions of one symbol that predict one token. -/
def Grammar.PredictsOne (g : Grammar) : Prop :=
  ∀ n m p q t, g.production? n = some p → g.production? m = some q → p.lhs = q.lhs →
    InPredict g p t → InPredict g q t → n = m

theorem Grammar.IsLL1.predictsOne (ll1 : g.IsLL1) (wf : g.WellFormed) : g.PredictsOne := by
  intro n m p q t numbered numbered' hlhs hp hq
  have hpq : p = q := Classical.byContradiction fun hne =>
    ll1 p q t ⟨mem_productionList_iff.2 ⟨n, numbered⟩, mem_productionList_iff.2 ⟨m, numbered'⟩, hne,
      hlhs, hp, hq⟩
  subst hpq
  rw [← wf.numbered n p numbered, ← wf.numbered m p numbered']

/-- Below a sentential form, the leftmost derivation of a token sequence is unique if no two numbers
predict one token. -/
theorem Grammar.PredictsOne.leftDerives_unique (one : g.PredictsOne) (proper : g.EmptyHasNoRule)
    {form last : List Symbol} {ns ms : List Int} (sentential : Derives g [g.start] form)
    (tokens : g.allTokens last) (hlast : Symbol.empty ∉ last) (h : LeftDerives g form ns last)
    (k : LeftDerives g form ms last) : ns = ms := by
  induction h generalizing ms with
  | refl form => exact (k.numbers_eq_nil tokens).symm
  | @step n p passing after last ns numbered expandable passed tail ih =>
      generalize hform : passing ++ p.lhs :: after = form at k
      cases k with
      | refl _ =>
          -- the form has a nonterminal, so it is not the token sequence itself
          rw [← hform] at tokens
          rw [(allTokens_cons.1 (allTokens_append.1 tokens).2).1] at expandable
          exact absurd expandable (by simp)
      | @step m q passing' after' last' ms numbered' expandable' passed' tail' =>
          -- both derivations expand the same symbol first
          obtain ⟨rfl, hlhs, rfl⟩ :=
            first_nonterminal_unique passed passed' expandable expandable' hform
          obtain ⟨rest, rfl, hrest⟩ := tail.of_append passed
          obtain ⟨rest', hrest', hrestq⟩ := tail'.of_append passed
          obtain rfl := List.append_cancel_left hrest'
          obtain ⟨-, trest⟩ := allTokens_append.1 tokens
          have hempty : Symbol.empty ∉ rest := fun h => hlast (List.mem_append_right _ h)
          -- and both productions predict the token that comes next, so they are one
          have hpt := inPredict_lookahead proper sentential hrest.derives trest hempty
          have hqt := inPredict_lookahead proper (hlhs ▸ sentential) hrestq.derives trest hempty
          obtain rfl : n = m := one n m p q _ numbered numbered' hlhs hpt hqt
          obtain rfl : p = q := Option.some.inj (numbered.symm.trans numbered')
          have hp := mem_productionList_iff.2 ⟨n, numbered⟩
          rw [ih (sentential.trans (.step (.intro p passing after hp expandable) (.refl _))) tokens
            hlast tail']

/-- Below a sentential form of an LL(1) grammar, the leftmost derivation of a token sequence is
unique. -/
theorem Grammar.IsLL1.leftDerives_unique (ll1 : g.IsLL1) (wf : g.WellFormed)
    (proper : g.EmptyHasNoRule) {form last : List Symbol} {ns ms : List Int}
    (sentential : Derives g [g.start] form) (tokens : g.allTokens last)
    (hlast : Symbol.empty ∉ last) (h : LeftDerives g form ns last)
    (k : LeftDerives g form ms last) : ns = ms :=
  (ll1.predictsOne wf).leftDerives_unique proper sentential tokens hlast h k

end Predictive
