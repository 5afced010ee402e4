import Predictive.Proofs.Acceptance
import Predictive.Proofs.MoveBound

/-!
# Parsing the sentences of LL(1) grammars

A leftmost derivation of the tokens of a text is carried out by the recognizer, move by move, if the
table selects each of its productions under the token that comes next (`exists_accepts`); and when the
recognizer takes a text, the table did so for each production that was used (`Configuration.Justified`).
In the table of an LL(1) grammar a cell holds a production exactly if the production was found to
predict the lookahead. So a sentence is parsed exactly when all productions of its derivation were
found to predict the tokens that come next (`Engine.parse_eq_ok_iff`), and only their Follow sets can
be in the way.
-/

set_option autoImplicit false

namespace Predictive

open Analysis

/-! ## Carrying out a derivation -/

/-- The kinds of the tokens that are still to be passed. -/
def Configuration.kinds (c : Configuration) : List Symbol := c.token.kind :: c.rest.map (·.kind)

namespace Recognizer

variable {r : Recognizer} {c : Configuration}

theorem eq_lookahead {t : Symbol} {ts rest : List Symbol}
    (h : t :: ts = rest ++ [Symbol.endMarker]) : t = lookahead rest := by
  cases rest with
  | nil => exact (List.cons.inj h).1
  | cons u rest => exact (List.cons.inj h).1

/-- Tokens on top of the stack that come next are passed one after the other. -/
theorem exists_passed (hend : r.grammar.isToken Symbol.endMarker = false)
    {front below more : List Symbol} (tokens : r.grammar.allTokens front)
    (hstack : c.stack = front ++ below) (hkinds : c.kinds = front ++ more) (hmore : more ≠ []) :
    ∃ c', Relation.ReflTransGen r.Moves c c' ∧ c'.stack = below ∧ c'.kinds = more ∧
      c'.used = c.used := by
  induction front generalizing c with
  | nil => exact ⟨c, .refl, hstack, hkinds, rfl⟩
  | cons t front ih =>
      obtain ⟨htoken, tokens⟩ := Grammar.allTokens_cons.1 tokens
      obtain ⟨hkind, hrest⟩ := List.cons.inj hkinds
      -- the end marker is no token of the grammar
      have before : c.token.kind ≠ Symbol.endMarker := by
        intro h
        rw [← hkind, h, hend] at htoken
        exact absurd htoken (by simp)
      cases ahead : c.rest with
      | nil =>
          rw [ahead] at hrest
          exact absurd (List.append_eq_nil_iff.1 hrest.symm).2 hmore
      | cons next rest =>
          rw [← hkind] at hstack htoken
          have hmove : r.Moves c (c.passed next rest (front ++ below)) :=
            .pass ahead hstack htoken before
          have hkinds' : (c.passed next rest (front ++ below)).kinds = front ++ more := by
            rw [ahead] at hrest
            exact hrest
          obtain ⟨c', hmoves, hstack', hmore', hused⟩ := ih tokens rfl hkinds'
          exact ⟨c', .head hmove hmoves, hstack', hmore', hused⟩

/-- For each production that is used in a leftmost derivation of the tokens from the form, the table
has its number under the token that comes next. -/
def Selects (r : Recognizer) (form kinds : List Symbol) : Prop :=
  ∀ ms n p tokens after rest, LeftDerives r.grammar form ms (tokens ++ p.lhs :: after) →
    r.grammar.allTokens tokens → r.grammar.isToken p.lhs = false →
    r.grammar.production? n = some p → Derives r.grammar (p.content ++ after) rest →
    kinds = tokens ++ rest → r.table.cell? p.lhs (lookahead rest) = some n

/-- The recognizer carries out a leftmost derivation of the tokens that come next. The end marker has
to be no token and without productions; it may well be used. -/
theorem exists_accepts (bare : ∀ p ∈ r.grammar.productionList, p.lhs ≠ Symbol.endMarker)
    (hend : r.grammar.isToken Symbol.endMarker = false) {form kinds : List Symbol} {ns : List Int}
    (h : LeftDerives r.grammar form ns kinds)
    (tokens : r.grammar.allTokens kinds) (selects : r.Selects form kinds)
    {done above remaining : List Symbol} (hform : form = done ++ above)
    (hdone : r.grammar.allTokens done) (hkinds : kinds = done ++ remaining)
    (hstack : c.stack = above ++ [Symbol.endMarker])
    (hnext : c.kinds = remaining ++ [Symbol.endMarker]) :
    ∃ c', Relation.ReflTransGen r.Moves c c' ∧ c'.Accepts ∧ c'.numbers = c.numbers ++ ns := by
  induction h generalizing c done above remaining with
  | refl form =>
      -- only tokens are left on the stack, and they are passed
      obtain rfl : above = remaining := List.append_cancel_left (hform.symm.trans hkinds)
      rw [hkinds] at tokens
      obtain ⟨c', hmoves, hstack', hkinds', hused⟩ := exists_passed hend
        (Grammar.allTokens_append.1 tokens).2 hstack hnext (by simp)
      obtain ⟨hkind, hrest⟩ := List.cons.inj hkinds'
      refine ⟨c', hmoves, ⟨List.map_eq_nil_iff.1 hrest, hstack', hkind⟩, ?_⟩
      rw [Configuration.numbers, hused, List.append_nil, Configuration.numbers]
  | @step n p passing after last ns numbered expandable passed tail ih =>
      rcases cut_of_append_cons_eq hform with ⟨front, rfl, -⟩ | ⟨front, rfl, rfl⟩
      · -- what is done are tokens, so the production expands a symbol behind them
        have := (Grammar.allTokens_cons.1 (Grammar.allTokens_append.1 hdone).2).1
        rw [expandable] at this
        exact absurd this (by simp)
      · obtain ⟨rest, hlast, hrest⟩ := tail.of_append passed
        have hremaining : remaining = front ++ rest := by
          rw [hkinds, List.append_assoc] at hlast
          exact List.append_cancel_left hlast
        subst hremaining
        rw [List.append_assoc] at hstack hnext
        -- the tokens before the symbol are passed, and then it is expanded
        obtain ⟨c₁, hmoves₁, hstack₁, hkinds₁, hused₁⟩ := exists_passed hend
          (Grammar.allTokens_append.1 passed).2 hstack hnext (by simp)
        have hcell := selects [] n p (done ++ front) after rest (.refl _) passed expandable numbered
          hrest.derives (by rw [hkinds, List.append_assoc])
        rw [← eq_lookahead hkinds₁] at hcell
        have member := Grammar.mem_productionList_iff.2 ⟨n, numbered⟩
        have hmove : r.Moves c₁ (c₁.expanded n p (after ++ [Symbol.endMarker])) :=
          .expand hstack₁ expandable hcell numbered (fun _ => bare p member) fun _ => by simp
        obtain ⟨c', hmoves, haccepts, hnumbers⟩ := ih tokens
          (c := c₁.expanded n p (after ++ [Symbol.endMarker]))
          (fun ms k q tokens' after' rest' hq => selects (n :: ms) k q tokens' after' rest'
            (.step numbered expandable passed hq))
          rfl passed (by rw [hkinds, List.append_assoc])
          (by simp [Configuration.expanded]) hkinds₁
        refine ⟨c', hmoves₁.trans (.head hmove hmoves), haccepts, ?_⟩
        rw [hnumbers]
        simp [Configuration.numbers, Configuration.expanded, hused₁]

/-! ## What was selected -/

/-- Each production used so far was selected for the leftmost nonterminal of a sentential form, under
the token that came next. -/
def Justified (r : Recognizer) (tokens : List Token) (c : Configuration) : Prop :=
  ∀ ms n more, c.numbers = ms ++ n :: more → ∃ p passed next rest after,
    r.grammar.production? n = some p ∧ r.grammar.isToken p.lhs = false ∧
    tokens = passed ++ next :: rest ∧ r.grammar.allTokens (passed.map (·.kind)) ∧
    LeftDerives r.grammar [r.grammar.start] ms (passed.map (·.kind) ++ p.lhs :: after) ∧
    r.table.cell? p.lhs next.kind = some n

variable {c' : Configuration} {tokens : List Token}

theorem Moves.justified (fits : r.table.Fits r.grammar) (h : r.Moves c c')
    (explains : c.Explains r.grammar tokens) (holds : r.Justified tokens c) :
    r.Justified tokens c' := by
  obtain ⟨done, above, htokens, hstack, passed, derived⟩ := explains
  cases h with
  | @expand top below n p onTop expandable cell numbered before atEnd =>
      obtain ⟨q, hq, hlhs⟩ := fits top c.token.kind n cell
      obtain rfl : p = q := Option.some.inj (numbered.symm.trans hq)
      subst hlhs
      have inside : below = [] → p.lhs ≠ Symbol.endMarker := fun hbelow =>
        before fun hrest => atEnd hrest hbelow
      obtain ⟨rest, rfl, rfl⟩ := cons_of_append_endMarker (hstack ▸ onTop) inside
      intro ms k more hsplit
      have hnumbers : c.numbers ++ [n] = ms ++ k :: more := by
        rw [← hsplit]
        simp [Configuration.numbers, Configuration.expanded]
      -- the number is the last one, or was used before this move
      rcases List.eq_nil_or_concat more with rfl | ⟨front, last, rfl⟩
      · -- the production that was used last
        obtain ⟨rfl, hn⟩ := List.append_inj' hnumbers rfl
        obtain rfl : n = k := (List.cons.inj hn).1
        exact ⟨p, done, c.token, c.rest, rest, numbered, expandable, htokens, passed, derived, cell⟩
      · refine holds ms k front ?_
        rw [List.concat_eq_append, ← List.cons_append, ← List.append_assoc] at hnumbers
        exact (List.append_inj' hnumbers rfl).1
  | pass ahead onTop token before => exact holds

theorem justified_of_moves (fits : r.table.Fits r.grammar)
    (h : Relation.ReflTransGen r.Moves c c') (explains : c.Explains r.grammar tokens)
    (holds : r.Justified tokens c) : r.Justified tokens c' := by
  induction h with
  | refl => exact holds
  | tail front last ih => exact last.justified fits (explains_of_moves fits front explains) ih

theorem justified_stateAt (r : Recognizer) (text : String) :
    r.Justified (r.lexer.tokens text) (r.stateAt text.toList.toArray .start r.startStack) := by
  intro ms n more h
  have hnil : ([] : List Int) = ms ++ n :: more := h
  simp at hnil

/-! ## Texts -/

/-- The tokens of a text but the last one have the kinds of a sentence. -/
def sentence (r : Recognizer) (text : String) : List Symbol :=
  (r.lexer.tokens text).dropLast.map (·.kind)

theorem map_kind_tokens (r : Recognizer) (text : String) :
    (r.lexer.tokens text).map (·.kind) = r.sentence text ++ [Symbol.endMarker] := by
  obtain ⟨front, last, htokens, hkind, -⟩ := r.lexer.tokens_eq_append text
  rw [sentence, htokens, List.dropLast_concat, List.map_append, List.map_singleton, hkind]

/-- A sentence is parsed when the table selects the productions of its derivation. -/
theorem parse_of_selects_of_bare (bare : ∀ p ∈ r.grammar.productionList, p.lhs ≠ Symbol.endMarker)
    (hend : r.grammar.isToken Symbol.endMarker = false) {text : String} {ns : List Int}
    (h : LeftDerives r.grammar [r.grammar.start] ns (r.sentence text))
    (tokens : r.grammar.allTokens (r.sentence text))
    (selects : r.Selects [r.grammar.start] (r.sentence text)) : r.parse text = .ok ns := by
  have hnext : (r.stateAt text.toList.toArray .start r.startStack).kinds =
      r.sentence text ++ [Symbol.endMarker] := by
    rw [← map_kind_tokens, ← r.tokens_stateAt text r.startStack]
    rfl
  have hstack : (r.stateAt text.toList.toArray .start r.startStack).stack =
      [r.grammar.start] ++ [Symbol.endMarker] := rfl
  have hform : [r.grammar.start] = [] ++ [r.grammar.start] := rfl
  have hsentence : r.sentence text = [] ++ r.sentence text := rfl
  obtain ⟨c, hmoves, haccepts, hnumbers⟩ := exists_accepts bare hend h tokens selects hform
    Grammar.allTokens_nil hsentence hstack hnext
  obtain ⟨fuel, hrun⟩ := exists_run_eq hmoves haccepts
  -- a run of some length takes the text, so the one within the bound does
  have hresult : (r.run fuel (r.stateAt text.toList.toArray .start r.startStack)).1 = .ok ns := by
    rw [hrun, hnumbers]
    rfl
  have ends : (r.run fuel (r.stateAt text.toList.toArray .start r.startStack)).1 ≠
      .error .endless := by
    rw [hresult]
    simp
  rw [parse, recognizeText, recognize_eq_run hstack ends]
  exact hresult

theorem parse_of_selects (lacks : r.grammar.Lacks Symbol.endMarker) {text : String} {ns : List Int}
    (h : LeftDerives r.grammar [r.grammar.start] ns (r.sentence text))
    (tokens : r.grammar.allTokens (r.sentence text))
    (selects : r.Selects [r.grammar.start] (r.sentence text)) : r.parse text = .ok ns :=
  parse_of_selects_of_bare (fun p hp => (lacks.1 p hp).1) lacks.2 h tokens selects

/-- When a text is taken and its derivation is unique, the table has selected its productions. -/
theorem selects_of_parse (fits : r.table.Fits r.grammar) {text : String} {ns : List Int}
    (h : r.parse text = .ok ns)
    (unique : ∀ ms, LeftDerives r.grammar [r.grammar.start] ms (r.sentence text) → ms = ns)
    (tokens : r.grammar.allTokens (r.sentence text)) :
    r.Selects [r.grammar.start] (r.sentence text) := by
  intro ms n p front after rest hform passed expandable numbered hrest hsentence
  obtain ⟨c, hmoves, haccepts, rfl⟩ := run_eq_ok h
  have justified := justified_of_moves fits hmoves (r.explains_stateAt text)
    (r.justified_stateAt text)
  rw [hsentence] at tokens unique
  obtain ⟨ms', hms'⟩ := exists_leftDerives hrest (Grammar.allTokens_append.1 tokens).2
  have whole : LeftDerives r.grammar [r.grammar.start] (ms ++ n :: ms') (front ++ rest) :=
    hform.trans (.step numbered expandable passed (hms'.behind passed))
  obtain ⟨q, done, next, more, after', numbered', expandable', htokens, passed', hform', cell⟩ :=
    justified ms n ms' (unique _ whole).symm
  obtain rfl : p = q := Option.some.inj (numbered.symm.trans numbered')
  -- the numbers up to there lead to one form only
  have hsame : front ++ p.lhs :: after = done.map (·.kind) ++ p.lhs :: after' :=
    Option.some.inj ((Grammar.replay_eq_some_iff.2 hform).symm.trans
      (Grammar.replay_eq_some_iff.2 hform'))
  obtain ⟨hfront, -, -⟩ :=
    Grammar.first_nonterminal_unique passed passed' expandable expandable' hsame
  have hkinds := r.map_kind_tokens text
  rw [hsentence, htokens, List.map_append, ← hfront, List.append_assoc] at hkinds
  rw [← eq_lookahead (List.append_cancel_left hkinds)]
  exact cell

end Recognizer

/-! ## Engines -/

/-- Each production that is used in a leftmost derivation of the tokens is found to predict the token
that comes next. -/
def Grammar.Foreseen (g : Grammar) (found : Production → SymbolSet) (kinds : List Symbol) : Prop :=
  ∀ ms n p tokens after rest, LeftDerives g [g.start] ms (tokens ++ p.lhs :: after) →
    g.allTokens tokens → g.isToken p.lhs = false → g.production? n = some p →
    Derives g (p.content ++ after) rest → kinds = tokens ++ rest → lookahead rest ∈ found p

variable {g : Grammar}

/-- A sentence without the empty symbol among its tokens. -/
theorem Grammar.Generates.not_mem_empty {kinds : List Symbol} (h : g.Generates kinds)
    (wf : g.WellFormed) (proper : g.EmptyHasNoRule) : Symbol.empty ∉ kinds := by
  obtain ⟨p, hp, hstart⟩ := wf.headed
  refine h.1.not_mem_empty fun hmem => proper p hp ?_
  rw [hstart]
  exact (List.mem_singleton.1 hmem).symm

theorem lookahead_visible {rest : List Symbol} (h : Symbol.empty ∉ rest) :
    lookahead rest ≠ Symbol.empty := by
  cases rest with
  | nil => decide
  | cons t rest => exact fun ht => h (ht ▸ List.mem_cons_self)

/-- A table whose cells hold what is claimed selects the productions that are foreseen. -/
theorem Recognizer.selects_iff_foreseen {r : Recognizer} {m : Memo} (wf : r.grammar.WellFormed)
    (cells : ∀ s t n, r.table.cell? s t = some n ↔
      ∃ p ∈ r.grammar.productionList, p.lhs = s ∧ p.number = n ∧ t ∈ r.grammar.claims p m)
    {kinds : List Symbol} (visible : Symbol.empty ∉ kinds) :
    r.Selects [r.grammar.start] kinds ↔
      r.grammar.Foreseen (fun p => (predict r.grammar p m).1) kinds := by
  constructor
  · intro selects ms n p tokens after rest hform passed expandable numbered hrest hkinds
    obtain ⟨q, hq, -, hn, ht⟩ := (cells _ _ _).1
      (selects ms n p tokens after rest hform passed expandable numbered hrest hkinds)
    have hpq : q = p := by
      refine wf.eq_of_number_eq hq (Grammar.mem_productionList numbered) ?_
      rw [hn, wf.numbered n p numbered]
    exact hpq ▸ (SymbolSet.mem_erase.1 ht).1
  · intro foreseen ms n p tokens after rest hform passed expandable numbered hrest hkinds
    have hmem := foreseen ms n p tokens after rest hform passed expandable numbered hrest hkinds
    have hne : lookahead rest ≠ Symbol.empty :=
      lookahead_visible fun h => visible (hkinds ▸ List.mem_append_right _ h)
    exact (cells _ _ _).2 ⟨p, Grammar.mem_productionList numbered, rfl, wf.numbered n p numbered,
      SymbolSet.mem_erase.2 ⟨hmem, hne⟩⟩

/-- Without left recursion, a closed memo foresees all sentences. -/
theorem foreseen_of_closed (plain : g.Plain) (free : g.IsLeftRecursionFree) {m : Memo}
    (holds : m.FollowHolds g []) (closed : m.FollowClosed g)
    (again : ∀ p ∈ g.productionList, (predict g p m).2 = m) {kinds : List Symbol}
    (tokens : g.allTokens kinds) (visible : Symbol.empty ∉ kinds) :
    g.Foreseen (fun p => (predict g p m).1) kinds := by
  intro ms n p front after rest hform passed expandable numbered hrest hkinds
  have hp := Grammar.mem_productionList numbered
  rw [hkinds] at tokens visible
  have hpredict : InPredict g p (lookahead rest) :=
    inPredict_lookahead (fun p hp => (plain p hp).1) hform.derives hrest
      (Grammar.allTokens_append.1 tokens).2 fun h => visible (List.mem_append_right _ h)
  exact (SymbolSet.mem_erase.1
    (ParseTable.mem_claims_of_inPredict plain free hp holds closed (again p hp) hpredict)).1

namespace Engine

/-- The engine of a grammar whose build goes through. -/
theorem build_eq {p : Platform} {input : GrammarInput} {o : Options} {warned : Log} {lexer : Lexer}
    (obtained : Grammar.obtain input = .ok (g, warned)) (compiled : lexerOf p g o = .ok lexer)
    (going : (ParseTable.build g o.strict.truthy .empty).stopped = none) :
    build p input o =
      .ok (⟨⟨g, ⟨(ParseTable.build g o.strict.truthy .empty).rows⟩, lexer⟩, o, o.debug.truthy,
          (ParseTable.build g o.strict.truthy .empty).memo⟩,
        warned ++ (ParseTable.build g o.strict.truthy .empty).log g o.debug.truthy) := by
  simp only [build, obtained, bind, Except.bind, ofGrammar,
    ParseTable.Build.result_of_going going, assemble, compiled]

/-- The engine of an LL(1) grammar is made wherever its lexer is, under all options, and each text whose
tokens the grammar generates has one leftmost derivation. The text is parsed, with the numbers of that
derivation, exactly when each production of it was found to predict the token that comes next; no other
result is given. Without left recursion that is so if the Follow sets found are closed under the flow.
They are if each single query for a Follow set leaves closed ones, in particular if no symbol needs
itself over others. -/
theorem parse_eq_ok_iff {platform : Platform} {input : GrammarInput} {o : Options} {warned : Log}
    {lexer : Lexer}
    (proper : input.Proper) (obtained : Grammar.obtain input = .ok (g, warned))
    (alone : g.EmptyStandsAlone) (lacks : g.Lacks Symbol.endMarker) (ll1 : g.IsLL1)
    (compiled : lexerOf platform g o = .ok lexer) :
    ∃ e log, build platform input o = .ok (e, log) ∧ e.grammar = g ∧
      (g.IsLeftRecursionFree → (g.QueriesClose → e.memo.FollowClosed g) ∧
        ((∀ s, ¬ Relation.TransGen (NeedsFollow g) s s) → g.QueriesClose)) ∧
      ∀ text, g.Generates ((e.lex text).dropLast.map (·.kind)) → ∃ ns,
        LeftDerives g [g.start] ns ((e.lex text).dropLast.map (·.kind)) ∧
        (∀ ms, LeftDerives g [g.start] ms ((e.lex text).dropLast.map (·.kind)) → ms = ns) ∧
        (e.parse text = .ok ns ↔
          g.Foreseen (fun p => (predict g p e.memo).1) ((e.lex text).dropLast.map (·.kind))) ∧
        (∀ ms, e.parse text = .ok ms → ms = ns) ∧
        (g.IsLeftRecursionFree → e.memo.FollowClosed g → e.parse text = .ok ns) := by
  have wf : g.WellFormed := Grammar.wellFormed_of_obtain proper obtained
  have plain := wf.plain alone
  have holds := (ParseTable.build_advances g o.strict.truthy .empty).holds plain
    (Memo.followHolds_empty g)
  obtain ⟨going, cells⟩ := ParseTable.build_of_isLL1 plain ll1 o.strict.truthy
    (Memo.followHolds_empty g)
  have again : ∀ p ∈ g.productionList,
      (predict g p (ParseTable.build g o.strict.truthy .empty).memo).2 =
        (ParseTable.build g o.strict.truthy .empty).memo := by
    rcases ParseTable.build_spec g o.strict.truthy .empty with
      ⟨-, built⟩ | ⟨-, p, -, q, -, t, hstop⟩
    · exact built.again
    · rw [hstop.2.2.2.2] at going
      exact absurd going (by simp)
  have fits : (ParseTable.mk (ParseTable.build g o.strict.truthy .empty).rows).Fits g :=
    ParseTable.fits_of_build wf (ParseTable.Build.result_of_going going)
  have closed : g.IsLeftRecursionFree → g.QueriesClose →
      (ParseTable.build g o.strict.truthy .empty).memo.FollowClosed g := by
    intro free closes
    exact ParseTable.followClosed_of_build closes plain free o.strict.truthy
  refine ⟨_, _, build_eq obtained compiled going, rfl,
    fun free => ⟨closed free, Grammar.queriesClose_of_acyclic plain free⟩, ?_⟩
  intro text generates
  obtain ⟨ns, hns⟩ := exists_leftDerives generates.1 generates.2
  have visible := generates.not_mem_empty wf alone.emptyHasNoRule
  have unique : ∀ ms, LeftDerives g [g.start] ms _ → ms = ns := fun ms hms =>
    ll1.leftDerives_unique wf alone.emptyHasNoRule (.refl _) generates.2 visible hms hns
  -- the cells of the table hold just what is claimed, since no two productions claim one cell
  have selects := Recognizer.selects_iff_foreseen
    (r := ⟨g, ⟨(ParseTable.build g o.strict.truthy .empty).rows⟩, lexer⟩) wf cells visible
  have parsed := fun foreseen => Recognizer.parse_of_selects
    (r := ⟨g, ⟨(ParseTable.build g o.strict.truthy .empty).rows⟩, lexer⟩) lacks hns generates.2
    (selects.2 foreseen)
  refine ⟨ns, hns, unique, ⟨fun h => ?_, parsed⟩, ?_, ?_⟩
  · exact selects.1 (Recognizer.selects_of_parse fits h unique generates.2)
  · intro ms h
    exact unique ms (Recognizer.leftDerives_of_parse fits h)
  · intro free closed
    exact parsed (foreseen_of_closed plain free holds closed again generates.2 visible)

end Engine

/-! ## A grammar that is parsed -/

/-- Nested brackets. -/
def nested : Grammar :=
  .ofRules [⟨"S", ["\"(\"", "S", "\")\"", "S"]⟩, ⟨"S", []⟩] .inferred ⟨.null, .null⟩

namespace nested

theorem wellFormed : nested.WellFormed := Grammar.wellFormed_ofRules _ _ (by simp)

theorem emptyStandsAlone : nested.EmptyStandsAlone := by
  unfold Grammar.EmptyStandsAlone
  decide

theorem lacks_endMarker : nested.Lacks Symbol.endMarker := by
  unfold Grammar.Lacks
  decide

theorem isLeftRecursionFree : nested.IsLeftRecursionFree :=
  isLeftRecursionFree_of_ranksFall (fun s => s == "S") (fun s => if s = "S" then 1 else 0)
    (by decide)

/-- Only `S` has productions, so nothing else can be needed. -/
theorem acyclic (s : Symbol) : ¬ Relation.TransGen (NeedsFollow nested) s s := by
  have only : ∀ p ∈ nested.productionList, p.lhs = "S" := by decide
  intro h
  obtain ⟨x, -, -, p, hp, rfl, -⟩ := Relation.TransGen.tail'_iff.1 h
  obtain ⟨y, ⟨hne, q, hq, rfl, -⟩, -⟩ := Relation.TransGen.head'_iff.1 h
  exact hne ((only q hq).trans (only p hp).symm)

theorem isLL1 : nested.IsLL1 := by
  apply ParseTable.isLL1_of_passed wellFormed emptyStandsAlone isLeftRecursionFree
    (Memo.followHolds_empty nested)
  · decide
  · decide

end nested

/-- An engine for nested brackets parses them. -/
theorem Engine.parse_eq_ok_nested :
    ∃ e log, build .bare (.grammar nested) .default = .ok (e, log) ∧
      e.parse "(())()" = .ok [1, 1, 2, 2, 1, 2, 2] := by
  obtain ⟨lexer, compiled⟩ : ∃ lexer, lexerOf .bare nested .default = .ok lexer :=
    exists_eq_ok (by decide +kernel)
  have proper : (GrammarInput.grammar nested).Proper := nested.wellFormed
  obtain ⟨e, log, built, -, closed, parses⟩ := parse_eq_ok_iff proper rfl nested.emptyStandsAlone
    nested.lacks_endMarker nested.isLL1 compiled
  have kinds : (build .bare (.grammar nested) .default).toOption.map
      (fun x => (x.1.lex "(())()").dropLast.map (·.kind)) =
        some ["\"(\"", "\"(\"", "\")\"", "\")\"", "\"(\"", "\")\""] := by
    decide +kernel
  rw [built, Except.toOption, Option.map_some, Option.some.injEq] at kinds
  have derived : LeftDerives nested [nested.start] [1, 1, 2, 2, 1, 2, 2]
      ((e.lex "(())()").dropLast.map (·.kind)) := by
    rw [kinds]
    exact Grammar.replay_eq_some_iff.1 (by decide +kernel)
  have tokens : nested.allTokens ((e.lex "(())()").dropLast.map (·.kind)) := by
    rw [kinds]
    unfold Grammar.allTokens
    decide +kernel
  obtain ⟨ns, -, unique, -, -, parsed⟩ := parses "(())()" ⟨derived.derives, tokens⟩
  -- no symbol of this grammar needs its own Follow set, so the sets of the build are closed
  obtain ⟨closed, closes⟩ := closed nested.isLeftRecursionFree
  refine ⟨e, log, built, ?_⟩
  rw [unique _ derived]
  exact parsed nested.isLeftRecursionFree (closed (closes nested.acyclic))

/-! ## A grammar whose sentences are not all parsed -/

namespace crossed

theorem lacks_endMarker : crossed.Lacks Symbol.endMarker := by
  unfold Grammar.Lacks
  decide

/-- A strict build that begins with the Follow set of `B` shows that there is no conflict. -/
theorem isLL1 : crossed.IsLL1 := by
  have holds := Query.followHolds_runAll (wellFormed.plain emptyStandsAlone) [.followOf "B"]
  apply ParseTable.isLL1_of_passed wellFormed emptyStandsAlone isLeftRecursionFree holds
  · decide
  · decide

end crossed

/-- The engine of an LL(1) grammar without left recursion that does not parse one of its sentences:
the Follow set of `A` is searched first, and that of `B` stays without a member. -/
theorem Engine.not_parse_crossed :
    ¬ ∀ (p : Platform) (g : Grammar) (input : GrammarInput) (o : Options) (warned : Log)
        (lexer : Lexer),
      input.Proper → Grammar.obtain input = .ok (g, warned) → g.EmptyStandsAlone →
      g.Lacks Symbol.endMarker → g.IsLL1 → g.IsLeftRecursionFree →
      lexerOf p g o = .ok lexer →
      ∃ e log, build p input o = .ok (e, log) ∧
        ∀ text, g.Generates ((e.lex text).dropLast.map (·.kind)) → ∃ ns,
          LeftDerives g [g.start] ns ((e.lex text).dropLast.map (·.kind)) ∧
            e.parse text = .ok ns := by
  intro complete
  obtain ⟨lexer, compiled⟩ : ∃ lexer, lexerOf .bare crossed .default = .ok lexer :=
    exists_eq_ok (by decide +kernel)
  obtain ⟨e, log, built, parses⟩ := complete .bare crossed (.grammar crossed) .default [] lexer
    crossed.wellFormed rfl crossed.emptyStandsAlone crossed.lacks_endMarker crossed.isLL1
    crossed.isLeftRecursionFree compiled
  -- the tokens are those of a sentence, but the text is rejected
  have observed : (build .bare (.grammar crossed) .default).toOption.map
      (fun x => ((x.1.lex "ac").dropLast.map (·.kind), (x.1.parse "ac").toOption)) =
        some (["\"a\"", "\"c\""], none) := by
    decide +kernel
  rw [built, Except.toOption, Option.map_some, Option.some.injEq, Prod.mk.injEq] at observed
  obtain ⟨kinds, rejected⟩ := observed
  have generates : crossed.Generates ((e.lex "ac").dropLast.map (·.kind)) := by
    rw [kinds]
    have derived : LeftDerives crossed [crossed.start] [1, 6, 2, 5] ["\"a\"", "\"c\""] :=
      Grammar.replay_eq_some_iff.1 (by decide +kernel)
    refine ⟨derived.derives, ?_⟩
    unfold Grammar.allTokens
    decide +kernel
  obtain ⟨ns, -, parsed⟩ := parses "ac" generates
  rw [parsed, Except.toOption] at rejected
  exact absurd rejected (by simp)

end Predictive
