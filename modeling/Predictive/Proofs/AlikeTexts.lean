import Predictive.Proofs.LiteralLexers
import Predictive.Proofs.Moves

/-!
# Texts with the same words

The recognizer looks at the kinds of its tokens only, so from states that agree in all but the places and
values of their tokens it makes the same moves and comes to the same verdict (`Recognizer.run_alike`). A
literal lexer makes tokens of the same kinds and values of two texts with the same words, so every
recognizer treats both in the same way: it takes both with the same productions, or it fails for both, at
tokens that come after the same number of others (`Lexer.alike_of_words`).
-/

set_option autoImplicit false

namespace Predictive

/-! ## States that differ in their tokens only -/

/-- The states agree in their stacks, in the productions used and in the kinds of their tokens. -/
structure Configuration.Alike (c d : Configuration) : Prop where
  kind : c.token.kind = d.token.kind
  rest : c.rest.map Token.kind = d.rest.map Token.kind
  stack : c.stack = d.stack
  used : c.used = d.used

/-- The verdicts agree, where the one names the token `x` the other one names `y`. -/
inductive AlikeVerdicts (x y : Token) :
    Except Failure (List Int) → Except Failure (List Int) → Prop
  | taken (ns : List Int) : AlikeVerdicts x y (.ok ns) (.ok ns)
  | rejected (cause : RejectionCause) (expected : SymbolSet) (stack : Option (List Symbol)) :
      AlikeVerdicts x y (.error (.rejected ⟨cause, .token x, expected, stack⟩))
        (.error (.rejected ⟨cause, .token y, expected, stack⟩))
  | failed {failure : Failure} (other : ∀ j, failure ≠ .rejected j) :
      AlikeVerdicts x y (.error failure) (.error failure)

/-- The moves lead to states that are alike, and stop with verdicts that agree. -/
inductive Move.Alike : Move → Move → Prop
  | next {c d : Configuration} (states : c.Alike d) : Move.Alike (.next c) (.next d)
  | stop {c d : Configuration} {first second : Except Failure (List Int)} (states : c.Alike d)
      (verdicts : AlikeVerdicts c.token d.token first second) :
      Move.Alike (.stop first c) (.stop second d)

namespace Recognizer

variable {r : Recognizer} {c d : Configuration}

/-! ## Moves -/

theorem expandMove_alike (h : c.Alike d) (top : Symbol) :
    (r.expandMove top c).Alike (r.expandMove top d) := by
  simp only [expandMove, expand, ← h.kind]
  cases r.table.cell? top c.token.kind with
  | none =>
      simp only [unexpected, Configuration.shownStack, ← h.stack]
      exact .stop h (.rejected _ _ _)
  | some n =>
      simp only
      cases r.grammar.production? n with
      | none => exact .stop h (.failed (by simp))
      | some p => exact .next ⟨h.kind, h.rest, by rw [h.stack], by rw [h.used]⟩

theorem finish_alike (h : c.Alike d) :
    AlikeVerdicts c.token d.token (r.finish c) (r.finish d) := by
  simp only [finish, Configuration.numbers, Configuration.shownStack, ← h.kind, ← h.stack, ← h.used]
  split
  · exact .taken _
  · cases c.stack with
    | nil => exact .failed (by simp)
    | cons top below => exact .rejected _ _ _

theorem vanishes_alike (h : c.Alike d) (top : Symbol) : r.vanishes top c = r.vanishes top d := by
  rw [vanishes, vanishes, h.kind]

theorem step_alike (h : c.Alike d) : (r.step c).Alike (r.step d) := by
  obtain ⟨token, rest, stack, used⟩ := c
  obtain ⟨token', rest', stack', used'⟩ := d
  obtain ⟨hkind, hrest, rfl, rfl⟩ := h
  dsimp only at hkind hrest
  have states (stack : List Symbol) :
      Configuration.Alike ⟨token, rest, stack, used⟩ ⟨token', rest', stack, used⟩ :=
    ⟨hkind, hrest, rfl, rfl⟩
  cases rest with
  | nil =>
      -- both are at the end of the input
      obtain rfl : rest' = [] := by simpa using hrest.symm
      match stack with
      | [] => exact .stop (states []) (finish_alike (states []))
      | [top] => exact .stop (states [top]) (finish_alike (states [top]))
      | top :: second :: below =>
          simp only [step, ← vanishes_alike (states (top :: second :: below)) top]
          split
          · exact expandMove_alike (states (second :: below)) top
          · exact .stop (states _) (finish_alike (states _))
  | cons next rest =>
      -- both have a token behind the lookahead
      obtain ⟨next', rest', rfl, hnext, hrests⟩ := List.map_eq_cons_iff.1 hrest.symm
      cases stack with
      | nil => exact .stop (states []) (.failed (by simp))
      | cons top below =>
          simp only [step, ← hkind]
          split
          · exact .stop (states below) (.rejected _ _ _)
          · split
            · split
              · exact .next ⟨hnext.symm, hrests.symm, rfl, rfl⟩
              · exact .stop (states below) (.rejected _ _ _)
            · exact expandMove_alike (states below) top

/-! ## Runs -/

/-- From states that are alike, runs come to states that are alike, with verdicts that agree. -/
theorem run_alike (h : c.Alike d) (fuel : Nat) :
    (r.run fuel c).2.Alike (r.run fuel d).2 ∧
      AlikeVerdicts (r.run fuel c).2.token (r.run fuel d).2.token
        (r.run fuel c).1 (r.run fuel d).1 := by
  induction fuel generalizing c d with
  | zero => exact ⟨h, .failed (by simp)⟩
  | succ fuel ih =>
      rw [run, run]
      -- the first moves are alike, so the runs go on from states that are, or stop alike
      have moves := step_alike (r := r) h
      generalize r.step c = first at moves
      generalize r.step d = second at moves
      cases moves with
      | next states => exact ih states
      | stop states verdicts => exact ⟨states, verdicts⟩

/-- A run passes tokens, but makes no new ones. -/
theorem suffix_run (r : Recognizer) (fuel : Nat) (c : Configuration) :
    (r.run fuel c).2.token :: (r.run fuel c).2.rest <:+ c.token :: c.rest := by
  induction fuel generalizing c with
  | zero => exact List.suffix_refl _
  | succ fuel ih =>
      rw [run]
      rcases step_cases r c with ⟨c', moves, hstep⟩ | ⟨outcome, c', stops, hstep⟩
      · rw [hstep]
        cases moves with
        | expand onTop expandable cell numbered before atEnd => exact ih _
        | pass ahead onTop token before =>
            refine (ih _).trans ?_
            rw [ahead]
            exact List.suffix_cons _ _
      · rw [hstep]
        cases stops <;> exact List.suffix_refl _

theorem moveBound_alike (h : c.Alike d) : r.moveBound c = r.moveBound d := by
  have hlength := congrArg List.length h.rest
  rw [List.length_map, List.length_map] at hlength
  rw [moveBound, moveBound, h.stack, hlength]

/-! ## Texts -/

/-- Two texts whose tokens are of the same kinds have verdicts that agree, and the tokens at which the
runs are over come after the same number of others. -/
theorem parse_alike {s t : String}
    (h : (r.lexer.tokens s).map Token.kind = (r.lexer.tokens t).map Token.kind) :
    ∃ (i : Nat) (x y : Token), (r.lexer.tokens s)[i]? = some x ∧
      (r.lexer.tokens t)[i]? = some y ∧ AlikeVerdicts x y (r.parse s) (r.parse t) := by
  rw [← r.tokens_stateAt s r.startStack, ← r.tokens_stateAt t r.startStack] at h ⊢
  rw [parse, parse, recognizeText, recognizeText, recognize, recognize]
  generalize hc : r.stateAt s.toList.toArray .start r.startStack = c at h ⊢
  generalize hd : r.stateAt t.toList.toArray .start r.startStack = d at h ⊢
  obtain ⟨hkind, hrest⟩ := List.cons.inj h
  have states : c.Alike d := ⟨hkind, hrest, by rw [← hc, ← hd]; rfl, by rw [← hc, ← hd]; rfl⟩
  rw [← moveBound_alike states]
  obtain ⟨ends, verdicts⟩ := run_alike (r := r) states (r.moveBound c)
  obtain ⟨done, hdone⟩ := suffix_run r (r.moveBound c) c
  obtain ⟨done', hdone'⟩ := suffix_run r (r.moveBound c) d
  -- both runs have passed the same number of tokens
  have hlength : done.length = done'.length := by
    have hleft := congrArg List.length ends.rest
    have hall := congrArg List.length hrest
    have hfirst := congrArg List.length hdone
    have hsecond := congrArg List.length hdone'
    simp only [List.length_map, List.length_append, List.length_cons] at hleft hall hfirst hsecond
    omega
  refine ⟨done.length, _, _, ?_, ?_, verdicts⟩
  · rw [← hdone]
    simp
  · rw [← hdone', hlength]
    simp

end Recognizer

namespace Lexer

/-- Rules whose patterns are literal texts make a lexer, with the standard compiler as with every other
one that knows literal texts. Its tokens of a text are, but for their places, those of the words of the
text one after the other, with the end marker behind them. So two texts with the same words have the same
tokens but for their places, and every recognizer with this lexer takes both with the same productions,
rejects both for the same cause, or fails for both in the same other way, at tokens that come after the
same number of others. -/
theorem alike_of_words {rules : List LexicalRule} (literal : ∀ r ∈ rules, r.IsLiteral)
    (c : PatternCompiler) (known : (∃ names, c = Pattern.compiler names) ∨ c.TakesLiterals)
    (flags : Datum) (zero : flags.int? = some 0) :
    ∃ lexer, ofRules c flags rules = .ok lexer ∧
      (∀ text, (lexer.tokens text).map Token.spelling =
        ((Text.words text.toList).flatMap fun w =>
          (lexer.tokens (String.ofList w)).dropLast.map Token.spelling) ++
          [(Symbol.endMarker, Symbol.endMarker)]) ∧
      ∀ s t, Text.words s.toList = Text.words t.toList →
        (lexer.tokens s).map Token.spelling = (lexer.tokens t).map Token.spelling ∧
        ∀ r : Recognizer, r.lexer = lexer → ∃ (i : Nat) (x y : Token),
          (lexer.tokens s)[i]? = some x ∧ (lexer.tokens t)[i]? = some y ∧
          AlikeVerdicts x y (r.parse s) (r.parse t) := by
  obtain ⟨lexer, built, literals⟩ :=
    exists_literal (PatternCompiler.takesLiterals_of_known known) zero literal
  refine ⟨lexer, built, literals.spelling_tokens, ?_⟩
  intro s t same
  have spelled : (lexer.tokens s).map Token.spelling = (lexer.tokens t).map Token.spelling := by
    rw [literals.spelling_tokens, literals.spelling_tokens, same]
  refine ⟨spelled, ?_⟩
  rintro r rfl
  -- of the spellings the recognizer reads the kinds only
  apply Recognizer.parse_alike
  have kinds := congrArg (List.map Prod.fst) spelled
  rwa [List.map_map, List.map_map] at kinds

/-- Two literals, of which the first one begins with the second one. -/
def nestedLiterals : List LexicalRule := [⟨"\"ab\"", "AB"⟩, ⟨"\"a\"", "A"⟩]

/-- More blanks, of other kinds and at the ends, make no difference, whatever the recognizer. -/
theorem alike_of_words_nestedLiterals :
    (∀ r ∈ nestedLiterals, r.IsLiteral) ∧
      Text.words "ab a".toList = Text.words " ab\n\ta ".toList ∧
      ∃ lexer, ofRules (Pattern.compiler Pattern.nameless) (.int 0) nestedLiterals = .ok lexer ∧
        (lexer.tokens "ab a").map Token.spelling =
          (lexer.tokens " ab\n\ta ").map Token.spelling ∧
        ∀ (g : Grammar) (table : ParseTable), ∃ (i : Nat) (x y : Token),
          (lexer.tokens "ab a")[i]? = some x ∧ (lexer.tokens " ab\n\ta ")[i]? = some y ∧
          AlikeVerdicts x y (Recognizer.parse ⟨g, table, lexer⟩ "ab a")
            (Recognizer.parse ⟨g, table, lexer⟩ " ab\n\ta ") := by
  -- neither literal holds a blank, so no word is cut within one
  have literal : ∀ r ∈ nestedLiterals, r.IsLiteral := by
    intro r hr
    rcases List.mem_pair.1 hr with rfl | rfl
    · exact ⟨"ab", rfl, by decide, by simp [Text.isBlank]⟩
    · exact ⟨"a", rfl, by decide, by simp [Text.isBlank]⟩
  have same : Text.words "ab a".toList = Text.words " ab\n\ta ".toList := by decide
  obtain ⟨lexer, built, -, alike⟩ := alike_of_words literal (Pattern.compiler Pattern.nameless)
    (.inl ⟨_, rfl⟩) (.int 0) rfl
  obtain ⟨spelled, verdicts⟩ := alike "ab a" " ab\n\ta " same
  refine ⟨literal, same, lexer, built, spelled, ?_⟩
  intro g table
  exact verdicts ⟨g, table, lexer⟩ rfl

end Lexer

end Predictive
