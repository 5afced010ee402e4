import Predictive.Proofs.Moves
import Predictive.Proofs.Scanning
import Predictive.Proofs.WellFormed

/-!
# Characters without a match

A character that no rule matches is a token of its own, whose kind is the character. The recognizer
passes only tokens of the grammar, and never the end marker, whatever its table holds
(`isToken_of_parse`). One character is no terminal, so a character without a match is passed only if a
lexical rule has it for a name; if no rule has such a name, all tokens of a text that is taken are
matches (`Engine.parse_matches`). In `digits` a rule has such a name, and the name itself is taken for
what the rule should match.
-/

set_option autoImplicit false

namespace Predictive

/-! ## Names of one character -/

theorem Symbol.isTerminal_singleton (c : Char) : isTerminal (String.singleton c) = false := by
  by_cases h : c = '"'
  · subst h
    rfl
  · simp [isTerminal, quotedChars, h]

/-- A token of a grammar that is no terminal is a lexical variable. -/
theorem Grammar.mem_lexicalVariables {g : Grammar} {s : Symbol} (token : g.isToken s = true)
    (named : Symbol.isTerminal s = false) : s ∈ g.lexicalVariables := by
  rw [isToken, named, Bool.false_or] at token
  rw [lexicalVariables, mem_distinct, List.mem_filter, lexicalRules]
  cases hlexicon : g.lexicon with
  | inferred =>
      -- without lexical rules only terminals are tokens
      rw [hlexicon] at token
      exact absurd token (by simp)
  | declared rules =>
      rw [hlexicon] at token
      exact ⟨List.contains_iff_mem.1 token, by simp [named]⟩

/-- The symbol is one character, but not the end marker, and is the name of a lexical rule. -/
def Grammar.ShortName (g : Grammar) (s : Symbol) : Prop :=
  s ∈ g.lexicalVariables ∧ s ≠ Symbol.endMarker ∧ ∃ c, s = String.singleton c

/-! ## Tokens that are passed -/

/-- All tokens before the lookahead are tokens of the grammar, and none is the end marker. -/
def Configuration.HasPassed (g : Grammar) (tokens : List Token) (c : Configuration) : Prop :=
  ∃ done, tokens = done ++ c.token :: c.rest ∧
    ∀ t ∈ done, g.isToken t.kind = true ∧ t.kind ≠ Symbol.endMarker

namespace Recognizer

variable {r : Recognizer} {c c' : Configuration} {tokens : List Token}

theorem hasPassed_stateAt (r : Recognizer) (text : String) :
    (r.stateAt text.toList.toArray .start r.startStack).HasPassed r.grammar
      (r.lexer.tokens text) :=
  ⟨[], (r.tokens_stateAt text r.startStack).symm, by simp⟩

theorem Moves.hasPassed (h : r.Moves c c') (holds : c.HasPassed r.grammar tokens) :
    c'.HasPassed r.grammar tokens := by
  obtain ⟨done, htokens, hdone⟩ := holds
  cases h with
  | expand onTop expandable cell numbered before atEnd =>
      -- an expansion leaves the tokens as they are
      exact ⟨done, htokens, hdone⟩
  | @pass next ahead below hahead onTop token before =>
      -- the token that is passed stood on the stack, where the end marker is never passed
      refine ⟨done ++ [c.token], ?_, ?_⟩
      · simp [Configuration.passed, htokens, hahead]
      · intro t ht
        rcases List.mem_append.1 ht with ht | ht
        · exact hdone t ht
        · rw [List.mem_singleton.1 ht]
          exact ⟨token, before⟩

theorem hasPassed_of_moves (h : Relation.ReflTransGen r.Moves c c')
    (holds : c.HasPassed r.grammar tokens) : c'.HasPassed r.grammar tokens := by
  induction h with
  | refl => exact holds
  | tail _ last ih => exact last.hasPassed ih

/-- When a text is taken, all its tokens but the last one have been passed. -/
theorem isToken_of_parse {text : String} {ns : List Int} (h : r.parse text = .ok ns) {t : Token}
    (ht : t ∈ (r.lexer.tokens text).dropLast) :
    r.grammar.isToken t.kind = true ∧ t.kind ≠ Symbol.endMarker := by
  obtain ⟨c, hmoves, ⟨hrest, -, -⟩, -⟩ := run_eq_ok h
  -- the recognition is over at the last token, so all others are done
  obtain ⟨done, htokens, hdone⟩ := hasPassed_of_moves hmoves (r.hasPassed_stateAt text)
  rw [htokens, hrest, List.dropLast_concat] at ht
  exact hdone t ht

/-- A character without a match that has been passed is the name of a lexical rule. -/
theorem shortName_of_parse {text : String} {ns : List Int} (h : r.parse text = .ok ns) {t : Token}
    (ht : t ∈ (r.lexer.tokens text).dropLast)
    (unmatched : r.lexer.Unmatched text.toList.toArray t) : r.grammar.ShortName t.kind := by
  obtain ⟨token, marker⟩ := isToken_of_parse h ht
  obtain ⟨place, c, -, -, rfl⟩ := unmatched
  exact ⟨Grammar.mem_lexicalVariables token (Symbol.isTerminal_singleton c), marker, c, rfl⟩

end Recognizer

/-! ## Texts -/

/-- In a text that is taken, each token but the last one is a match of a rule, or else it is a character
that is the name of a lexical rule. If no rule has a name of one character, apart from the end marker,
they all are matches, so a text with a character without a match is not taken. -/
theorem Engine.parse_matches (e : Engine) :
    (∀ text ns, e.parse text = .ok ns → ∀ t ∈ (e.lex text).dropLast,
      e.lexer.Matches text.toList.toArray t ∨
        (e.lexer.Unmatched text.toList.toArray t ∧ e.grammar.ShortName t.kind)) ∧
    ((∀ s, ¬ e.grammar.ShortName s) →
      (∀ text ns, e.parse text = .ok ns → ∀ t ∈ (e.lex text).dropLast,
        e.lexer.Matches text.toList.toArray t) ∧
      ∀ text, ∀ t ∈ (e.lex text).dropLast, e.lexer.Unmatched text.toList.toArray t →
        ∀ ns, e.parse text ≠ .ok ns) := by
  have sources : ∀ text, ∀ t ∈ (e.lex text).dropLast, e.lexer.Matches text.toList.toArray t ∨
      e.lexer.Unmatched text.toList.toArray t := by
    intro text t ht
    obtain ⟨front, last, htokens, -, source⟩ := e.lexer.tokens_eq_append text
    rw [lex, htokens, List.dropLast_concat] at ht
    exact source t ht
  -- a token that nothing matches has its one character for its kind
  have short : ∀ text ns, e.parse text = .ok ns → ∀ t ∈ (e.lex text).dropLast,
      e.lexer.Unmatched text.toList.toArray t → e.grammar.ShortName t.kind := by
    intro text ns h t ht unmatched
    exact Recognizer.shortName_of_parse h ht unmatched
  refine ⟨?_, fun none => ⟨?_, ?_⟩⟩
  · intro text ns h t ht
    rcases sources text t ht with matched | unmatched
    · exact .inl matched
    · exact .inr ⟨unmatched, short text ns h t ht unmatched⟩
  · intro text ns h t ht
    rcases sources text t ht with matched | unmatched
    · exact matched
    · exact absurd (short text ns h t ht unmatched) (none t.kind)
  · intro text t ht unmatched ns h
    exact none t.kind (short text ns h t ht unmatched)

/-- A grammar of one number, with a name for the rule that matches it. -/
def digits (name : Symbol) : Grammar :=
  .ofRules [⟨"S", [name]⟩] (.declared (.ofList [("[0-9]+", name)])) ⟨.null, .null⟩

/-- With a longer name a number is taken, and is a match, and a text with an `N` is not taken. -/
theorem Engine.parse_matches_digits :
    ∃ e log, build .bare (.grammar (digits "NUM")) .default = .ok (e, log) ∧
      (∃ t ∈ (e.lex "42").dropLast, e.lexer.Matches "42".toList.toArray t) ∧
      ∀ ns, e.parse "N" ≠ .ok ns := by
  obtain ⟨⟨e, log⟩, built⟩ : ∃ x, build .bare (.grammar (digits "NUM")) .default = .ok x :=
    exists_eq_ok (by decide +kernel)
  have observed : (build .bare (.grammar (digits "NUM")) .default).toOption.map
      (fun x => (x.1.grammar.lexicalVariables, (x.1.parse "42").toOption, (x.1.lex "42").dropLast)) =
        some (["NUM"], some [1], [Lexer.tokenAt "NUM" "42" .start]) := by
    decide +kernel
  have unmatched : (build .bare (.grammar (digits "NUM")) .default).toOption.map
      (fun x => ((x.1.lex "N").dropLast, x.1.lexer.firstMatch "N".toList.toArray 0)) =
        some ([Lexer.tokenAt "N" "N" .start], none) := by
    decide +kernel
  rw [built, Except.toOption, Option.map_some, Option.some.injEq, Prod.mk.injEq] at observed unmatched
  obtain ⟨names, observed⟩ := observed
  obtain ⟨taken, tokens⟩ := Prod.mk.inj observed
  obtain ⟨tokens', missed⟩ := unmatched
  have none : ∀ s, ¬ e.grammar.ShortName s := by
    -- the only name is longer than one character
    rintro s ⟨hs, -, c, rfl⟩
    rw [names, List.mem_singleton] at hs
    have hlength := congrArg String.length hs
    rw [String.length_singleton] at hlength
    exact absurd hlength (by decide)
  obtain ⟨matched, rejected⟩ := (parse_matches e).2 none
  refine ⟨e, log, built, ⟨_, tokens ▸ List.mem_cons_self, ?_⟩, ?_⟩
  · exact matched "42" [1] (eq_ok_of_toOption taken) _ (tokens ▸ List.mem_cons_self)
  · apply rejected "N" _ (tokens' ▸ List.mem_cons_self)
    exact ⟨.start, 'N', rfl, Lexer.firstMatch_eq_none missed, rfl⟩

/-- With the name `N` the text of the name is taken, although no rule matches it. -/
theorem Engine.not_parse_matches_digits :
    ∃ e log, build .bare (.grammar (digits "N")) .default = .ok (e, log) ∧ e.parse "N" = .ok [1] ∧
      ∃ t ∈ (e.lex "N").dropLast, e.lexer.Unmatched "N".toList.toArray t ∧
        ¬ e.lexer.Matches "N".toList.toArray t := by
  obtain ⟨⟨e, log⟩, built⟩ : ∃ x, build .bare (.grammar (digits "N")) .default = .ok x :=
    exists_eq_ok (by decide +kernel)
  have observed : (build .bare (.grammar (digits "N")) .default).toOption.map
      (fun x => ((x.1.parse "N").toOption, (x.1.lex "N").dropLast,
        x.1.lexer.firstMatch "N".toList.toArray 0)) =
        some (some [1], [Lexer.tokenAt "N" "N" .start], none) := by
    decide +kernel
  rw [built, Except.toOption, Option.map_some, Option.some.injEq, Prod.mk.injEq] at observed
  obtain ⟨taken, observed⟩ := observed
  obtain ⟨tokens, missed⟩ := Prod.mk.inj observed
  have unmatched : e.lexer.Unmatched "N".toList.toArray (Lexer.tokenAt "N" "N" .start) :=
    ⟨.start, 'N', rfl, Lexer.firstMatch_eq_none missed, rfl⟩
  exact ⟨e, log, built, eq_ok_of_toOption taken, _, tokens ▸ List.mem_cons_self, unmatched,
    unmatched.not_matches⟩

end Predictive
