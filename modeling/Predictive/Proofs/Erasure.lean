import Predictive.Engine.Basic
import Predictive.Proofs.ErasedTables
import Predictive.Proofs.MoveBound

/-!
# Embedded empty symbols stand for nothing

The recognizer leaves the empty symbol out of what it puts on its stack, and no lexical rule comes from
it, so with the same table a text is recognized alike for a grammar and for the erased one
(`Recognizer.parse_erased`). If the empty symbols of the grammar are sheltered, the tables are the same,
and all that can be seen of the two grammars is (`erased_alike`).

It is not if the search for a First set meets the empty symbol with a proper one behind it:
`embedded` is the smallest grammar of this kind.
-/

set_option autoImplicit false

namespace Predictive

open Analysis

variable {g : Grammar}

/-! ## Erased right-hand sides -/

theorem properSymbols_erasedRhs (rhs : List Symbol) :
    properSymbols (erasedRhs rhs) = properSymbols rhs := by
  by_cases h : properSymbols rhs = []
  · rw [erasedRhs_of_eq_nil h, h, properSymbols_empty_cons]
    rfl
  · rw [erasedRhs_of_ne_nil h, properSymbols, List.filter_eq_self]
    intro s hs
    simpa using (mem_properSymbols.1 hs).2

theorem Production.content_erased (p : Production) : p.erased.content = p.content :=
  properSymbols_erasedRhs p.rhs

/-! ## Lexers -/

theorem filter_isTerminal_erasedRhs (rhs : List Symbol) :
    (erasedRhs rhs).filter Symbol.isTerminal = rhs.filter Symbol.isTerminal := by
  have terminal : ∀ s, Symbol.isTerminal s = true → s ≠ Symbol.empty := by
    rintro s hs rfl
    exact absurd hs (by decide)
  have proper : (properSymbols rhs).filter Symbol.isTerminal = rhs.filter Symbol.isTerminal := by
    rw [properSymbols, List.filter_filter]
    refine List.filter_congr fun s _ => ?_
    cases h : Symbol.isTerminal s with
    | true => simp [terminal s h]
    | false => simp
  by_cases h : properSymbols rhs = []
  · rw [erasedRhs_of_eq_nil h, ← proper, h]
    decide
  · rw [erasedRhs_of_ne_nil h, proper]

theorem Grammar.terminals_erased (g : Grammar) : g.erased.terminals = g.terminals := by
  unfold terminals
  rw [productionList_erased, List.flatMap_map]
  simp only [Production.erased_rhs, filter_isTerminal_erasedRhs]

theorem Grammar.lexicalRules_erased (g : Grammar) : g.erased.lexicalRules = g.lexicalRules := by
  unfold lexicalRules
  rw [terminals_erased]
  rfl

theorem Engine.lexerOf_erased (p : Platform) (g : Grammar) (o : Options) :
    lexerOf p g.erased o = lexerOf p g o := by
  unfold lexerOf Lexer.ofGrammar Lexer.rulesOf
  rw [Grammar.lexicalRules_erased]

/-! ## Recognizers -/

namespace Recognizer

/-- The recognizer with the same table for the erased grammar. -/
def erased (r : Recognizer) : Recognizer := { r with grammar := r.grammar.erased }

variable (r : Recognizer)

theorem expand_erased (nonterminal : Symbol) (c : Configuration) :
    r.erased.expand nonterminal c = r.expand nonterminal c := by
  have sameTable : r.erased.table = r.table := rfl
  have found (n : Int) :
      r.erased.grammar.production? n = (r.grammar.production? n).map Production.erased :=
    r.grammar.production?_erased n
  -- both look into the same table, and the production that they find has the same content
  rw [expand, expand, sameTable]
  cases r.table.cell? nonterminal c.token.kind with
  | none => rfl
  | some n =>
      simp only [found]
      cases r.grammar.production? n with
      | none => rfl
      | some p => simp only [Option.map_some, Production.content_erased]

theorem step_erased (c : Configuration) : r.erased.step c = r.step c := by
  have move : ∀ s d, r.erased.expandMove s d = r.expandMove s d := by
    intro s d
    rw [expandMove, expandMove, expand_erased]
  have finished : ∀ d, r.erased.finish d = r.finish d := fun _ => rfl
  unfold step
  simp only [move, finished]
  rfl

theorem run_erased (fuel : Nat) (c : Configuration) : r.erased.run fuel c = r.run fuel c := by
  induction fuel generalizing c with
  | zero => rfl
  | succ fuel ih =>
      rw [run, run, step_erased]
      cases r.step c with
      | next d => exact ih d
      | stop outcome d => rfl

/-- A text is recognized alike. -/
theorem parse_erased (text : String) : r.erased.parse text = r.parse text := by
  have hstack : (r.stateAt text.toList.toArray .start r.startStack).stack =
      [r.grammar.start] ++ [Symbol.endMarker] := rfl
  change (r.erased.recognize (r.stateAt text.toList.toArray .start r.startStack)).1 =
    (r.recognize (r.stateAt text.toList.toArray .start r.startStack)).1
  by_cases ends : ∃ fuel, (r.run fuel (r.stateAt text.toList.toArray .start r.startStack)).1 ≠
      .error .endless
  · obtain ⟨fuel, ends⟩ := ends
    rw [recognize_eq_run hstack ends, recognize_eq_run hstack (by rwa [run_erased]), run_erased]
  · -- a run without an end has none within any bound
    have endless := fun fuel => Classical.not_not.1 (not_exists.1 ends fuel)
    rw [recognize, recognize, run_erased, endless, endless]

end Recognizer

/-! ## Engines -/

namespace Engine

/-- The result of parsing a text with the engine of a grammar on a platform, if there is one. -/
def parses? (p : Platform) (g : Grammar) (o : Options) (text : String) :
    Option (Except Failure (List Int)) :=
  (ofGrammar p g o).toOption.map fun made => made.1.parse text

/-- An engine is made of a table and a lexer, and parses as its recognizer does. -/
theorem parses?_eq (p : Platform) (g : Grammar) (o : Options) (text : String) :
    parses? p g o text =
      ((ParseTable.build g o.strict.truthy .empty).result g).toOption.bind fun t =>
        (lexerOf p g o).toOption.map fun lexer =>
          (Recognizer.mk g t lexer).parse text := by
  rw [parses?, ofGrammar]
  cases (ParseTable.build g o.strict.truthy .empty).result g with
  | error fault => rfl
  | ok t =>
      simp only [assemble]
      cases lexerOf p g o with
      | error failure => rfl
      | ok lexer => rfl

end Engine

/-! ## What can be seen of a grammar -/

/-- An analysis of a grammar and one of the erased grammar, with these memos, give the same First sets,
the same Follow sets of proper symbols, the same Predict sets but for the empty symbol, and the same
tables. -/
structure Grammar.ErasedAlike (g : Grammar) (m m' : Memo) : Prop where
  first : ∀ s, (firstOf g.erased s m').1 = (firstOf g s m).1
  follow : ∀ s, s ≠ Symbol.empty → (followOf g.erased s m').1 = (followOf g s m).1
  predict : ∀ n, (g.erased.production? n).map (g.erased.claims · m') =
    (g.production? n).map (g.claims · m)
  table : ∀ strict, ((ParseTable.build g.erased strict m').result g.erased).toOption =
    ((ParseTable.build g strict m).result g).toOption

/-- If something stands behind the empty symbol in a right-hand side only where what stands before it
cannot vanish, nothing tells the grammar from the erased one: not the sets and tables that the analysis
gives, whatever it has been asked for before, and not the results for texts, on whatever platform. -/
theorem erased_alike (wf : g.WellFormed) (noRule : g.EmptyHasNoRule)
    (sheltered : g.EmptySheltered) :
    (∀ requests : List Request, (∀ r ∈ requests, r.Shared) →
      g.ErasedAlike (Request.runAll g requests .empty) (Request.runAll g.erased requests .empty)) ∧
    ∀ p o text, Engine.parses? p g.erased o text = Engine.parses? p g o text := by
  constructor
  · intro requests shared
    obtain ⟨same, sound⟩ := Request.runAll_erased wf noRule sheltered requests shared
      (Memo.vanishSound_empty g)
    rw [same]
    refine ⟨fun s => ?_, fun s proper => ?_, fun n => ?_, fun strict => ?_⟩
    · rw [(firstOf_erased wf noRule sheltered s sound).1]
    · rw [(followOf_erased wf noRule sheltered proper sound).1]
    · rw [Grammar.production?_erased]
      cases numbered : g.production? n with
      | none => simp only [Option.map_none]
      | some p =>
          have member := Grammar.mem_productionList numbered
          simp only [Option.map_some, (predictsAlike wf noRule sheltered member sound).claims]
    · exact (ParseTable.build_erased wf noRule sheltered strict sound).1.toOption_result
  · -- the lexers are the same for any grammar, the tables since the empty symbols are sheltered
    intro p o text
    rw [Engine.parses?_eq, Engine.parses?_eq, Engine.lexerOf_erased,
      (ParseTable.build_erased wf noRule sheltered o.strict.truthy
        (Memo.vanishSound_empty g)).1.toOption_result]
    simp only [show ∀ t lexer, (Recognizer.mk g.erased t lexer).parse text =
      (Recognizer.mk g t lexer).parse text from
        fun t lexer => Recognizer.parse_erased ⟨g, t, lexer⟩ text]

/-- Empty symbols behind a token, at the end of a right-hand side and in the place of none. -/
def padded : Grammar :=
  .ofRules [⟨"S", ["\"a\"", "ε", "S", "ε"]⟩, ⟨"S", ["ε", "ε"]⟩] .inferred ⟨.null, .null⟩

/-- So the grammar with the productions of `padded` but for the empty symbols among others can be told
from what is known of `padded`: here the First set of `S` and the result for a text. -/
theorem erased_alike_padded :
    padded.WellFormed ∧ padded.EmptyHasNoRule ∧ padded.EmptySheltered ∧
      padded.erased.productionList = [⟨1, "S", ["\"a\"", "S"]⟩, ⟨2, "S", ["ε"]⟩] ∧
      (firstOf padded.erased "S" .empty).1 = .ofList ["ε", "\"a\""] ∧
      (Engine.parses? .bare padded.erased .default "a a").bind Except.toOption = some [1, 1, 2] := by
  have wf : padded.WellFormed := Grammar.wellFormed_ofRules _ _ (by simp)
  have noRule : padded.EmptyHasNoRule := by
    unfold Grammar.EmptyHasNoRule
    decide
  have sheltered : padded.EmptySheltered := by
    intro p hp
    have productions : padded.productionList =
        [⟨1, "S", ["\"a\"", "ε", "S", "ε"]⟩, ⟨2, "S", ["ε", "ε"]⟩] := by
      decide
    rw [productions, List.mem_cons, List.mem_singleton] at hp
    rcases hp with rfl | rfl
    · -- the token in front cannot vanish
      apply Grammar.shelters_of_head (by decide)
      exact Grammar.not_inFirst_empty_of_isToken (by decide) (by decide)
    · exact Grammar.shelters_of_properSymbols_eq_nil (by decide)
  obtain ⟨alike, parses⟩ := erased_alike wf noRule sheltered
  refine ⟨wf, noRule, sheltered, by decide, ?_, ?_⟩
  · rw [show (firstOf padded.erased "S" .empty).1 = _ from (alike [] (by simp)).first "S"]
    decide
  · rw [parses]
    decide +kernel

/-- A grammar whose only right-hand side begins with the empty symbol. -/
def embedded : Grammar :=
  .ofRules [⟨"S", ["ε", "\"a\""]⟩] .inferred ⟨.null, .null⟩

/-- The search for the First set of the right-hand side stops at the empty symbol, so it is not found
that `S` begins with the token behind it, and a text is rejected that the erased grammar takes. -/
theorem not_erased_alike_embedded :
    ¬ ∀ g : Grammar, g.WellFormed → g.EmptyHasNoRule → g.isToken Symbol.empty = false →
      g.ErasedAlike .empty .empty ∧
        ∀ p o text, Engine.parses? p g.erased o text = Engine.parses? p g o text := by
  intro alike
  have wf : embedded.WellFormed := Grammar.wellFormed_ofRules _ _ (by simp)
  have noRule : embedded.EmptyHasNoRule := by
    unfold Grammar.EmptyHasNoRule
    decide
  obtain ⟨-, parses⟩ := alike embedded wf noRule (by decide)
  have taken :
      (Engine.parses? .bare embedded.erased .default "a").bind Except.toOption = some [1] := by
    decide +kernel
  have rejected : (Engine.parses? .bare embedded .default "a").bind Except.toOption = none := by
    decide +kernel
  rw [parses, rejected] at taken
  exact absurd taken (by simp)

end Predictive
