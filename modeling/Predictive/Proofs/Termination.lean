import Predictive.Proofs.Acceptance
import Predictive.Proofs.MoveBound

/-!
# Recognition comes to an end

The expansions between two tokens are a derivation, one at the front of the stack (`Spreads.expands`),
so a symbol that leads to itself there is left-recursive (`leftRecursive_of_spreads`). Without left
recursion no run goes on for ever, whatever the table holds, as long as it fits the grammar; conflicts
and cells that are missing do not matter. The end marker stays at the bottom of the stack, and each
cell names a production, so a run can stop in two ways only: the text is taken, or it is rejected
(`parse_ends`).
-/

set_option autoImplicit false

namespace Predictive

namespace Recognizer

variable {r : Recognizer} {c c' : Configuration}

/-! ## Expansions are derivations -/

/-- An expansion at the front of the stack is a step of a derivation. -/
theorem Spreads.expands (fits : r.table.Fits r.grammar) {lookahead : Symbol} {ahead : Prop}
    {front front' : List Symbol} (h : r.Spreads lookahead ahead front front') :
    Expands r.grammar front front' := by
  cases h with
  | @intro top front n p expandable cell numbered before =>
      obtain ⟨q, hq, hlhs⟩ := fits top lookahead n cell
      obtain rfl : p = q := Option.some.inj (numbered.symm.trans hq)
      subst hlhs
      exact .intro p [] front (Grammar.mem_productionList numbered) expandable

/-- Any number of expansions at the front of the stack is a derivation. -/
theorem derives_of_spreads (fits : r.table.Fits r.grammar) {lookahead : Symbol} {ahead : Prop}
    {front front' : List Symbol}
    (h : Relation.ReflTransGen (r.Spreads lookahead ahead) front front') :
    Derives r.grammar front front' := by
  induction h using Relation.ReflTransGen.head_induction_on with
  | refl => exact .refl _
  | head spreads _ ih => exact .step (spreads.expands fits) ih

/-- A symbol that leads to itself without a token being passed is left-recursive. -/
theorem leftRecursive_of_spreads (fits : r.table.Fits r.grammar) {lookahead b : Symbol}
    {ahead : Prop} {more : List Symbol}
    (cycle : Relation.TransGen (r.Spreads lookahead ahead) [b] (b :: more)) :
    r.grammar.LeftRecursive b := by
  obtain ⟨form, first, others⟩ := Relation.TransGen.head'_iff.1 cycle
  exact ⟨form, more, first.expands fits, derives_of_spreads fits others⟩

/-- Without left recursion no symbol leads to itself. -/
theorem straight_of_isLeftRecursionFree (fits : r.table.Fits r.grammar)
    (free : r.grammar.IsLeftRecursionFree) (c : Configuration) : r.Straight c := by
  intro top below more _ _ cycle
  exact free top (leftRecursive_of_spreads fits cycle)

/-! ## How a run stops -/

/-- The verdict at the end of the input is that the text is taken, or that it is rejected. -/
theorem finish_cases (hstack : c.stack ≠ []) :
    (∃ ns, r.finish c = .ok ns) ∨ ∃ rejection, r.finish c = .error (.rejected rejection) := by
  rw [finish]
  split
  · exact .inl ⟨c.numbers, rfl⟩
  · cases onTop : c.stack with
    | nil => exact absurd onTop hstack
    | cons top below => exact .inr ⟨_, rfl⟩

/-- A move that stops takes the text or rejects it, if there is something on the stack and the table
fits the grammar. -/
theorem Stops.outcome_cases (fits : r.table.Fits r.grammar) (hstack : c.stack ≠ [])
    {outcome : Except Failure (List Int)} (h : r.Stops c outcome c') :
    (∃ ns, outcome = .ok ns) ∨ ∃ rejection, outcome = .error (.rejected rejection) := by
  cases h with
  | finished atEnd stuck => exact finish_cases hstack
  | noSymbol ahead onTop => exact absurd onTop hstack
  | bottom ahead onTop => exact .inr ⟨_, rfl⟩
  | mismatch ahead onTop before token other => exact .inr ⟨_, rfl⟩
  | noEntry ahead onTop before expandable absent => exact .inr ⟨_, rfl⟩
  | @noProduction top below n onTop expandable cell unnumbered =>
      -- a cell of a table that fits names a production
      obtain ⟨p, hp, -⟩ := fits top c.token.kind n cell
      exact absurd (unnumbered.symm.trans hp) (by simp)

/-- So does a run that ends, if there is something on the stack all the time. -/
theorem run_outcome_cases (fits : r.table.Fits r.grammar) {fuel : Nat}
    (hstack : ∀ d, Relation.ReflTransGen r.Moves c d → d.stack ≠ [])
    (ends : (r.run fuel c).1 ≠ .error .endless) :
    (∃ ns, (r.run fuel c).1 = .ok ns) ∨
      ∃ rejection, (r.run fuel c).1 = .error (.rejected rejection) := by
  obtain ⟨d, d', hmoves, hstops⟩ := run_stops ends
  exact hstops.outcome_cases fits (hstack d hmoves)

/-! ## Texts -/

/-- The end marker stays at the bottom of the stack. -/
theorem stack_eq_append (fits : r.table.Fits r.grammar) (text : String)
    (h : Relation.ReflTransGen r.Moves (r.stateAt text.toList.toArray .start r.startStack) c) :
    ∃ above, c.stack = above ++ [Symbol.endMarker] := by
  obtain ⟨-, above, -, hstack, -⟩ := explains_of_moves fits h (r.explains_stateAt text)
  exact ⟨above, hstack⟩

/-- Without left recursion, a table that was built for the grammar, conflicts overwritten or not, lets
the recognizer come to an end on every text: runs of a certain length and of any greater one give the
same. The text is taken or rejected, which are the only outcomes, and the end marker stays at the bottom
of the stack in all states on the way. -/
theorem parse_ends (wf : r.grammar.WellFormed) (free : r.grammar.IsLeftRecursionFree)
    {strict : Bool} {m : Memo}
    (built : (ParseTable.build r.grammar strict m).result r.grammar = .ok r.table) (text : String) :
    let first := r.stateAt text.toList.toArray .start r.startStack
    (∃ fuel, ∀ extra, r.run (fuel + extra) first = r.recognizeText text) ∧
    ((∃ ns, r.parse text = .ok ns) ∨ ∃ rejection, r.parse text = .error (.rejected rejection)) ∧
    ∀ c, Relation.ReflTransGen r.Moves first c → ∃ above, c.stack = above ++ [Symbol.endMarker] := by
  intro first
  have fits : r.table.Fits r.grammar := ParseTable.fits_of_build wf built
  have bottom : ∀ c, Relation.ReflTransGen r.Moves first c →
      ∃ above, c.stack = above ++ [Symbol.endMarker] := by
    intro c h
    exact stack_eq_append fits text h
  have hstack : first.stack = [r.grammar.start] ++ [Symbol.endMarker] := rfl
  -- without left recursion every state is straight, so the bound on the moves holds
  have ends : (r.run (r.moveBound first) first).1 ≠ .error .endless := by
    apply run_moveBound hstack
    intro c _
    exact straight_of_isLeftRecursionFree fits free c
  refine ⟨⟨r.moveBound first, ?_⟩, ?_, bottom⟩
  · intro extra
    exact r.run_add extra ends
  · apply run_outcome_cases fits _ ends
    intro c h
    obtain ⟨above, hstack⟩ := bottom c h
    rw [hstack]
    simp

/-- A text that ends too early is rejected, although cells of the table have been overwritten. -/
theorem parse_ends_dangling :
    dangling.grammar.WellFormed ∧ dangling.grammar.IsLeftRecursionFree ∧
      (ParseTable.build dangling.grammar false .empty).collisions ≠ [] ∧
      ∃ rejection, dangling.parse "if if do else" = .error (.rejected rejection) := by
  have wf : dangling.grammar.WellFormed := Grammar.wellFormed_ofRules _ _ (by simp)
  have free : dangling.grammar.IsLeftRecursionFree :=
    isLeftRecursionFree_of_ranksFall (fun s => s == "E")
      (fun s => if s = "S" ∨ s = "E" then 1 else 0) (by decide)
  have built : (ParseTable.build dangling.grammar false .empty).result dangling.grammar =
      .ok dangling.table := rfl
  have refused : (dangling.parse "if if do else").isOk = false := by decide +kernel
  refine ⟨wf, free, by decide, ?_⟩
  rcases (parse_ends wf free built "if if do else").2.1 with ⟨ns, taken⟩ | rejected
  · rw [taken] at refused
    exact absurd refused (by simp [Except.isOk, Except.toBool])
  · exact rejected

end Recognizer

end Predictive
