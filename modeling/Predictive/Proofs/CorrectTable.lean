import Predictive.Proofs.SentenceParsing
import Predictive.Proofs.Unmatched

/-!
# Recognition with a correct table

A table is correct if a cell holds a number exactly when its production predicts the lookahead, by the
least sets, however the table was made (`ParseTable.IsCorrect`). Such a table selects each production
of a leftmost derivation of tokens (`Recognizer.selects_of_isCorrect`), and no token is predicted by
two productions of one symbol (`IsCorrect.predictsOne`). So the recognizer takes every sentence with
the numbers of its only leftmost derivation (`parse_of_isCorrect`). A build without conflicts and with
closed Follow sets makes a correct table (`isCorrect_of_build`).
-/

set_option autoImplicit false

namespace Predictive

open Analysis

variable {g : Grammar}

/-! ## Symbols without rules -/

/-- The symbol is no left-hand side and is the name of no lexical rule. -/
def Grammar.Unruled (g : Grammar) (s : Symbol) : Prop :=
  (∀ p ∈ g.productionList, p.lhs ≠ s) ∧ s ∉ g.lexicalRules.values

/-- What is no terminal and names no lexical rule is no token. -/
theorem Grammar.Unruled.isToken_eq_false {s : Symbol} (h : g.Unruled s)
    (named : Symbol.isTerminal s = false) : g.isToken s = false := by
  cases token : g.isToken s with
  | false => rfl
  | true =>
      have hmem := Grammar.mem_lexicalVariables token named
      rw [Grammar.lexicalVariables, mem_distinct, List.mem_filter] at hmem
      exact absurd hmem.1 h.2

/-! ## Correct tables -/

namespace ParseTable

/-- A cell of a correct table has room for one number. -/
theorem IsCorrect.predictsOne {table : ParseTable} (correct : table.IsCorrect g) :
    g.PredictsOne := by
  intro n m p q t numbered numbered' hlhs hp hq
  have hn := (correct p.lhs t n).2 ⟨p, numbered, rfl, hp⟩
  have hm := (correct p.lhs t m).2 ⟨q, numbered', hlhs.symm, hq⟩
  exact Option.some.inj (hn.symm.trans hm)

/-- A build from a true memo in which no two productions claim one cell, and which leaves closed Follow
sets, makes a correct table. -/
theorem isCorrect_of_build (wf : g.WellFormed) (plain : g.Plain) (free : g.IsLeftRecursionFree)
    (ll1 : g.IsLL1) (strict : Bool) {m : Memo} (holds : m.FollowHolds g [])
    (closed : (build g strict m).memo.FollowClosed g) :
    (ParseTable.mk (build g strict m).rows).IsCorrect g := by
  have holds' := (build_advances g strict m).holds plain holds
  obtain ⟨going, cells⟩ := build_of_isLL1 plain ll1 strict holds
  -- a production that has claimed its cells is predicted alike at the end of the build
  have again : ∀ p ∈ g.productionList,
      (predict g p (build g strict m).memo).2 = (build g strict m).memo := by
    rcases build_spec g strict m with ⟨-, built⟩ | ⟨-, p, -, q, -, t, hstop⟩
    · exact built.again
    · rw [hstop.2.2.2.2] at going
      exact absurd going (by simp)
  intro s t n
  rw [cells]
  constructor
  · rintro ⟨p, hp, hlhs, rfl, ht⟩
    exact ⟨p, wf.production?_number hp, hlhs, inPredict_of_mem_claims plain hp holds' ht⟩
  · rintro ⟨p, numbered, hlhs, ht⟩
    have hp := Grammar.mem_productionList numbered
    exact ⟨p, hp, hlhs, wf.numbered n p numbered,
      mem_claims_of_inPredict plain free hp holds' closed (again p hp) ht⟩

end ParseTable

/-! ## Recognition -/

namespace Recognizer

variable {r : Recognizer}

/-- A correct table selects all productions of leftmost derivations of tokens. -/
theorem selects_of_isCorrect (correct : r.table.IsCorrect r.grammar)
    (proper : r.grammar.EmptyHasNoRule) {kinds : List Symbol} (tokens : r.grammar.allTokens kinds)
    (visible : Symbol.empty ∉ kinds) : r.Selects [r.grammar.start] kinds := by
  intro ms n p front after rest hform passed expandable numbered hrest hkinds
  rw [hkinds] at tokens visible
  have hpredict : InPredict r.grammar p (lookahead rest) :=
    inPredict_lookahead proper hform.derives hrest (Grammar.allTokens_append.1 tokens).2
      fun h => visible (List.mem_append_right _ h)
  exact (correct p.lhs (lookahead rest) n).2 ⟨p, numbered, rfl, hpredict⟩

/-- With a correct table the recognizer takes every text whose tokens the grammar generates, whatever
the lexical rules are, and gives the numbers of their leftmost derivation, which is the only one. The
end marker and the empty symbol may be used, but they must have no productions and name no lexical
rules. -/
theorem parse_of_isCorrect (marker : r.grammar.Unruled Symbol.endMarker)
    (empty : r.grammar.Unruled Symbol.empty) (correct : r.table.IsCorrect r.grammar) {text : String}
    (generates : r.grammar.Generates (r.sentence text)) :
    ∃ ns, r.parse text = .ok ns ∧
      LeftDerives r.grammar [r.grammar.start] ns (r.sentence text) ∧
      ∀ ms, LeftDerives r.grammar [r.grammar.start] ms (r.sentence text) → ms = ns := by
  obtain ⟨derived, tokens⟩ := generates
  obtain ⟨ns, hns⟩ := exists_leftDerives derived tokens
  -- ε is no token here, so it is no part of a sentence
  have visible : Symbol.empty ∉ r.sentence text := by
    intro h
    have token := tokens Symbol.empty h
    rw [empty.isToken_eq_false (by decide)] at token
    exact absurd token (by simp)
  have selects := selects_of_isCorrect correct empty.1 tokens visible
  refine ⟨ns, ?_, hns, ?_⟩
  · exact parse_of_selects_of_bare marker.1 (marker.isToken_eq_false (by decide)) hns tokens selects
  · intro ms hms
    exact correct.predictsOne.leftDerives_unique empty.1 (.refl _) tokens visible hms hns

end Recognizer

/-! ## Nested brackets with their table -/

/-- The recognizer of nested brackets, with the table that is built. -/
def nested.recognizer : Recognizer where
  grammar := nested
  table := ⟨(ParseTable.build nested false .empty).rows⟩
  lexer := ((Lexer.ofGrammar nested (Pattern.compiler Pattern.nameless) (.int 0)).toOption).getD []

theorem nested.isCorrect : nested.recognizer.table.IsCorrect nested := by
  have plain := nested.wellFormed.plain nested.emptyStandsAlone
  have closes := Grammar.queriesClose_of_acyclic plain nested.isLeftRecursionFree nested.acyclic
  exact ParseTable.isCorrect_of_build nested.wellFormed plain nested.isLeftRecursionFree nested.isLL1
    false (Memo.followHolds_empty nested)
    (ParseTable.followClosed_of_build closes plain nested.isLeftRecursionFree false)

/-- A sentence of nested brackets is taken with its only leftmost derivation. -/
theorem Recognizer.parse_of_isCorrect_nested :
    nested.recognizer.table.IsCorrect nested ∧ nested.Generates (nested.recognizer.sentence "()()") ∧
      nested.recognizer.parse "()()" = .ok [1, 2, 1, 2, 2] := by
  have kinds : nested.recognizer.sentence "()()" = ["\"(\"", "\")\"", "\"(\"", "\")\""] := by
    decide +kernel
  have derived : LeftDerives nested [nested.start] [1, 2, 1, 2, 2]
      (nested.recognizer.sentence "()()") := by
    rw [kinds]
    exact Grammar.replay_eq_some_iff.1 (by decide +kernel)
  have tokens : nested.allTokens (nested.recognizer.sentence "()()") := by
    rw [kinds]
    unfold Grammar.allTokens
    decide
  have marker : nested.Unruled Symbol.endMarker := by
    unfold Grammar.Unruled
    decide
  have empty : nested.Unruled Symbol.empty := by
    unfold Grammar.Unruled
    decide
  -- there is one leftmost derivation only, so the result is the one that was replayed
  obtain ⟨ns, taken, -, unique⟩ := parse_of_isCorrect (r := nested.recognizer) marker empty
    nested.isCorrect ⟨derived.derives, tokens⟩
  refine ⟨nested.isCorrect, ⟨derived.derives, tokens⟩, ?_⟩
  rw [unique _ derived]
  exact taken

end Predictive
