import Predictive.Proofs.CorrectTable
import Predictive.Proofs.Termination

/-!
# What a rejection says

A rejection names the token at which the recognition stopped, one before the end marker or the end
marker itself, and shows the stack as it was then, with the symbol back on it that had been taken off
(`Stops.rejection`). So the tokens before that one, with the rest of the stack behind them, are a
left-sentential form (`leftDerives_of_rejection`), even when symbols have vanished under a token that
does not follow them. If each symbol that is used derives tokens (`Grammar.Fruitful`), such a form can
be completed to a sentence: the recognition never goes beyond a token with which no sentence can go on
(`parse_rejects`).
-/

set_option autoImplicit false

namespace Predictive

variable {g : Grammar}

/-! ## Forms that can be completed -/

/-- The symbol is a token, or a nonterminal from which tokens can be derived; it is not the end
marker. -/
def Grammar.FruitfulSymbol (g : Grammar) (s : Symbol) : Prop :=
  s ≠ Symbol.endMarker ∧
    (g.isToken s = true ∨
      (s ≠ Symbol.empty ∧ ∃ kinds, g.allTokens kinds ∧ Derives g [s] kinds))

/-- The start symbol and all symbols that are used, apart from the empty one, are fruitful. -/
def Grammar.Fruitful (g : Grammar) : Prop :=
  g.FruitfulSymbol g.start ∧
    ∀ p ∈ g.productionList, ∀ s ∈ p.rhs, s ≠ Symbol.empty → g.FruitfulSymbol s

theorem Grammar.FruitfulSymbol.exists_tokens {s : Symbol} (h : g.FruitfulSymbol s) :
    ∃ kinds, g.allTokens kinds ∧ Derives g [s] kinds := by
  rcases h.2 with token | ⟨-, derived⟩
  · exact ⟨[s], Grammar.allTokens_cons.2 ⟨token, Grammar.allTokens_nil⟩, .refl [s]⟩
  · exact derived

/-- Tokens can be derived from a form of fruitful symbols. -/
theorem Grammar.exists_tokens {form : List Symbol} (h : ∀ s ∈ form, g.FruitfulSymbol s) :
    ∃ kinds, g.allTokens kinds ∧ Derives g form kinds := by
  induction form with
  | nil => exact ⟨[], Grammar.allTokens_nil, .refl []⟩
  | cons s form ih =>
      obtain ⟨front, tokens, derived⟩ := (h s List.mem_cons_self).exists_tokens
      obtain ⟨back, tokens', derived'⟩ := ih fun u hu => h u (List.mem_cons_of_mem _ hu)
      exact ⟨front ++ back, Grammar.allTokens_append.2 ⟨tokens, tokens'⟩, derived.append derived'⟩

/-- All symbols of sentential forms are fruitful. -/
theorem Grammar.Fruitful.of_derives (fruitful : g.Fruitful) {form : List Symbol}
    (h : Derives g [g.start] form) : ∀ s ∈ form, g.FruitfulSymbol s := by
  apply h.forall_mem (P := g.FruitfulSymbol)
  · intro p hp s hs
    obtain ⟨hrhs, visible⟩ := List.mem_filter.1 hs
    exact fruitful.2 p hp s hrhs (by simpa using visible)
  · intro s hs
    rw [List.mem_singleton.1 hs]
    exact fruitful.1

namespace Recognizer

variable {r : Recognizer} {c c' : Configuration} {tokens : List Token}

/-! ## The four places where a text is rejected -/

theorem finish_eq_rejected {j : Rejection} (h : r.finish c = .error (.rejected j)) :
    j.cause = .unexpectedEnd ∧ j.offender = .token c.token ∧ j.stack = some c.shownStack := by
  rw [finish] at h
  split at h
  · exact absurd h (by simp)
  · cases onTop : c.stack with
    | nil =>
        rw [onTop] at h
        exact absurd h (by simp)
    | cons top below =>
        rw [onTop] at h
        cases h
        exact ⟨rfl, rfl, rfl⟩

/-- A rejection names the lookahead, and the cause tells whether the input is over. It shows the whole
stack, or the end marker alone if that has come to the top. -/
theorem Stops.rejection {j : Rejection} (h : r.Stops c (.error (.rejected j)) c') :
    j.offender = .token c.token ∧ (j.cause = .unexpectedToken ↔ c.rest ≠ []) ∧
      (j.stack = some c.shownStack ∨
        (∃ below, c.stack = Symbol.endMarker :: below) ∧ j.stack = some [Symbol.endMarker]) := by
  -- one case for each way to stop; two of them are no rejection
  generalize hfailure : Except.error (Failure.rejected j) = outcome at h
  cases h with
  | finished atEnd stuck =>
      obtain ⟨hcause, htoken, hstack⟩ := finish_eq_rejected hfailure.symm
      exact ⟨htoken, by simp [hcause, atEnd], .inl hstack⟩
  | noSymbol ahead onTop => exact absurd hfailure (by simp)
  | bottom ahead onTop =>
      cases hfailure
      exact ⟨rfl, by simp [ahead], .inr ⟨⟨_, onTop⟩, rfl⟩⟩
  | mismatch ahead onTop before token other =>
      cases hfailure
      exact ⟨rfl, by simp [ahead], .inl (by simp [Configuration.shownStack, onTop])⟩
  | noEntry ahead onTop before expandable absent =>
      cases hfailure
      exact ⟨rfl, by simp [ahead], .inl (by simp [Configuration.shownStack, onTop])⟩
  | noProduction onTop expandable cell unnumbered => exact absurd hfailure (by simp)

/-- The tokens before the one that a rejection names, followed by the stack that it shows without the
end marker at the bottom, are a left-sentential form. -/
theorem leftDerives_of_rejection (fruitful : r.grammar.Fruitful)
    (explains : c.Explains r.grammar tokens) {j : Rejection}
    (h : r.Stops c (.error (.rejected j)) c') :
    ∃ before above, tokens = before ++ c.token :: c.rest ∧
      j.stack = some (Symbol.endMarker :: above.reverse) ∧
      r.grammar.allTokens (before.map (·.kind)) ∧
      LeftDerives r.grammar [r.grammar.start] c.numbers (before.map (·.kind) ++ above) := by
  obtain ⟨before, above, htokens, hstack, passed, derived⟩ := explains
  refine ⟨before, above, htokens, ?_, passed, derived⟩
  obtain ⟨-, -, shown | ⟨⟨below, onTop⟩, shown⟩⟩ := h.rejection
  · rw [shown, Configuration.shownStack, hstack, List.reverse_append]
    rfl
  · -- the end marker stands nowhere above the bottom, so nothing is left above it
    have hmarker : Symbol.endMarker ∉ above := by
      intro hmem
      exact (fruitful.of_derives derived.derives _ (List.mem_append_right _ hmem)).1 rfl
    cases above with
    | nil => exact shown
    | cons top above =>
        obtain ⟨rfl, -⟩ := List.cons.inj (hstack.symm.trans onTop)
        exact absurd List.mem_cons_self hmarker

/-! ## Texts -/

/-- A table that was built for a grammar of fruitful symbols takes a text, goes on for ever or rejects
the text. A rejection names a token of the text, before the last one if that token is unexpected, and
the last one if the end is. The tokens before it, followed by the shown stack from its top down to the
end marker, are a left-sentential form, and those tokens begin a sentence. -/
theorem parse_rejects (wf : r.grammar.WellFormed) {strict : Bool} {m : Memo}
    (built : (ParseTable.build r.grammar strict m).result r.grammar = .ok r.table)
    (fruitful : r.grammar.Fruitful) {text : String} {failure : Failure}
    (h : r.parse text = .error failure) (ends : failure ≠ .endless) :
    ∃ j, failure = .rejected j ∧ ∃ before token after above,
      r.lexer.tokens text = before ++ token :: after ∧ j.offender = .token token ∧
      (j.cause = .unexpectedToken → after ≠ []) ∧ (j.cause = .unexpectedEnd → after = []) ∧
      j.stack = some (Symbol.endMarker :: above.reverse) ∧
      (∃ ns, LeftDerives r.grammar [r.grammar.start] ns (before.map (·.kind) ++ above)) ∧
      ∃ rest, r.grammar.Generates (before.map (·.kind) ++ rest) := by
  have fits : r.table.Fits r.grammar := ParseTable.fits_of_build wf built
  rw [parse, recognizeText, recognize] at h
  have hends : (r.run (r.moveBound (r.stateAt text.toList.toArray .start r.startStack))
      (r.stateAt text.toList.toArray .start r.startStack)).1 ≠ .error .endless := by
    rw [h]
    simpa using ends
  obtain ⟨c, c', hmoves, hstops⟩ := run_stops hends
  rw [h] at hstops
  have explains := explains_of_moves fits hmoves (r.explains_stateAt text)
  have hstack : c.stack ≠ [] := by
    obtain ⟨above, habove⟩ := stack_eq_append fits text hmoves
    simp [habove]
  -- the table fits, so nothing but a rejection can stop the recognition
  rcases hstops.outcome_cases fits hstack with ⟨ns, hok⟩ | ⟨j, hj⟩
  · exact absurd hok (by simp)
  · obtain rfl : failure = .rejected j := Except.error.inj hj
    obtain ⟨htoken, hcause, -⟩ := hstops.rejection
    obtain ⟨before, above, htokens, hshown, passed, derived⟩ :=
      leftDerives_of_rejection fruitful explains hstops
    -- what stands on the stack can be completed to tokens
    obtain ⟨rest, tokens, completed⟩ := Grammar.exists_tokens fun s hs =>
      fruitful.of_derives derived.derives s (List.mem_append_right (before.map (·.kind)) hs)
    refine ⟨j, rfl, before, c.token, c.rest, above, htokens, htoken, hcause.1, ?_, hshown,
      ⟨c.numbers, derived⟩, rest, ?_, Grammar.allTokens_append.2 ⟨passed, tokens⟩⟩
    · intro hend
      by_contra hrest
      rw [hcause.2 hrest] at hend
      exact absurd hend (by simp)
    · exact derived.derives.trans ((Derives.refl (before.map (·.kind))).append completed)

end Recognizer

/-! ## Brackets that are not closed -/

namespace nested

theorem fruitful : nested.Fruitful := by
  have start : nested.FruitfulSymbol "S" := by
    have vanishes : LeftDerives nested ["S"] [2] [] := Grammar.replay_eq_some_iff.1 (by decide)
    exact ⟨by decide, .inr ⟨by decide, [], Grammar.allTokens_nil, vanishes.derives⟩⟩
  have used : ∀ p ∈ nested.productionList, ∀ s ∈ p.rhs, s ≠ Symbol.empty →
      s = "S" ∨ (s ≠ Symbol.endMarker ∧ nested.isToken s = true) := by
    decide
  refine ⟨start, ?_⟩
  intro p hp s hs visible
  rcases used p hp s hs visible with rfl | ⟨marker, token⟩
  · exact start
  · exact ⟨marker, .inl token⟩

/-- What is said about a text with a bracket that is not closed. The brackets inside have vanished under
the end marker. -/
def unclosed : Rejection where
  cause := .unexpectedEnd
  offender := .token (Lexer.tokenAt Symbol.endMarker Symbol.endMarker ⟨3, 1, 4, 0⟩)
  expected := SymbolSet.singleton "\")\""
  stack := some ["$", "S", "\")\""]

end nested

/-- The rejection with which a recognition ends, if it does. -/
def rejection? {α : Type} : Except Failure α → Option Rejection
  | .error (.rejected j) => some j
  | _ => none

theorem eq_of_rejection? {α : Type} {x : Except Failure α} {j : Rejection}
    (h : rejection? x = some j) : x = .error (.rejected j) := by
  unfold rejection? at h
  split at h
  · rw [Option.some.inj h]
  · exact absurd h (by simp)

/-- The brackets that were passed begin a sentence. -/
theorem Recognizer.parse_rejects_nested :
    nested.Fruitful ∧ nested.recognizer.parse "(()" = .error (.rejected nested.unclosed) ∧
      ∃ rest, nested.Generates (["\"(\"", "\"(\"", "\")\""] ++ rest) := by
  have observed : (rejection? (nested.recognizer.parse "(()"),
      (nested.recognizer.lexer.tokens "(()").map (·.kind)) =
        (some nested.unclosed, ["\"(\"", "\"(\"", "\")\"", "$"]) := by
    decide +kernel
  obtain ⟨refused, kinds⟩ := Prod.mk.inj observed
  have rejected : nested.recognizer.parse "(()" = .error (.rejected nested.unclosed) :=
    eq_of_rejection? refused
  have built : (ParseTable.build nested.recognizer.grammar false .empty).result
      nested.recognizer.grammar = .ok nested.recognizer.table := rfl
  obtain ⟨j, hj, before, token, after, above, htokens, -, -, hend, -, -, rest, generates⟩ :=
    parse_rejects nested.wellFormed built nested.fruitful rejected (by simp)
  obtain rfl : nested.unclosed = j := Failure.rejected.inj hj
  refine ⟨nested.fruitful, rejected, rest, ?_⟩
  -- the rejected token is the last one, so the three brackets stand before it
  have hbefore : before.map (·.kind) ++ [token.kind] =
      ["\"(\"", "\"(\"", "\")\""] ++ ["$"] := by
    rw [← List.map_singleton, ← List.map_append, ← hend rfl, ← htokens]
    exact kinds
  rw [← (List.append_inj' hbefore rfl).1]
  exact generates

end Predictive
