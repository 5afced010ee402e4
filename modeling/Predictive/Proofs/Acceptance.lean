import Predictive.Proofs.Leftmost
import Predictive.Proofs.Moves
import Predictive.Proofs.Scanning
import Predictive.Proofs.StrictBuild

/-!
# What an accepted text is

In every state of a recognition the tokens passed so far, followed by the stack above its bottom, are
a sentential form, and the productions used so far derive it from the start symbol, leftmost first
(`Configuration.Explains`). Every move keeps this, whatever the table holds, as long as each cell
names a production of the symbol of its row. So the numbers that are given for a text are those of a
leftmost derivation of its tokens (`parse_sound`).
-/

set_option autoImplicit false

namespace Predictive

variable {g : Grammar}

/-- One more expansion at the end of a leftmost derivation. -/
theorem LeftDerives.snoc {first tokens after : List Symbol} {ns : List Int} {n : Int}
    {p : Production} (h : LeftDerives g first ns (tokens ++ p.lhs :: after))
    (numbered : g.production? n = some p) (expandable : g.isToken p.lhs = false)
    (passed : g.allTokens tokens) :
    LeftDerives g first (ns ++ [n]) (tokens ++ (p.content ++ after)) :=
  h.trans (.step numbered expandable passed (.refl _))

/-- The tokens before the lookahead, followed by the stack above the end marker, are derived by the
productions used so far. -/
def Configuration.Explains (g : Grammar) (tokens : List Token) (c : Configuration) : Prop :=
  ∃ done above, tokens = done ++ c.token :: c.rest ∧ c.stack = above ++ [Symbol.endMarker] ∧
    g.allTokens (done.map (·.kind)) ∧
    LeftDerives g [g.start] c.numbers (done.map (·.kind) ++ above)

namespace Recognizer

variable {r : Recognizer} {c c' : Configuration} {tokens : List Token}

theorem explains_stateAt (r : Recognizer) (text : String) :
    (r.stateAt text.toList.toArray .start r.startStack).Explains r.grammar
      (r.lexer.tokens text) :=
  ⟨[], [r.grammar.start], (r.tokens_stateAt text r.startStack).symm, rfl, Grammar.allTokens_nil,
    .refl _⟩

/-- The bottom of the stack is not moved: what stands on top is above it. -/
theorem cons_of_append_endMarker {above below : List Symbol} {top : Symbol}
    (h : above ++ [Symbol.endMarker] = top :: below)
    (inside : below = [] → top ≠ Symbol.endMarker) :
    ∃ rest, above = top :: rest ∧ below = rest ++ [Symbol.endMarker] := by
  cases above with
  | nil =>
      obtain ⟨htop, hbelow⟩ := List.cons.inj h
      exact absurd htop.symm (inside hbelow.symm)
  | cons s rest =>
      obtain ⟨rfl, rfl⟩ := List.cons.inj h
      exact ⟨rest, rfl, rfl⟩

/-- Each move keeps the explanation. -/
theorem Moves.explains (fits : r.table.Fits r.grammar) (h : r.Moves c c')
    (holds : c.Explains r.grammar tokens) : c'.Explains r.grammar tokens := by
  obtain ⟨done, above, htokens, hstack, passed, derived⟩ := holds
  cases h with
  | @expand top below n p onTop expandable cell numbered before atEnd =>
      -- the cell names a production of the symbol, which is the leftmost nonterminal of the form
      obtain ⟨q, hq, hlhs⟩ := fits top c.token.kind n cell
      obtain rfl : p = q := Option.some.inj (numbered.symm.trans hq)
      subst hlhs
      have inside : below = [] → p.lhs ≠ Symbol.endMarker := fun hbelow =>
        before fun hrest => atEnd hrest hbelow
      obtain ⟨rest, rfl, rfl⟩ := cons_of_append_endMarker (hstack ▸ onTop) inside
      refine ⟨done, p.content ++ rest, htokens, ?_, passed, ?_⟩
      · simp [Configuration.expanded]
      · have hnumbers : (c.expanded n p (rest ++ [Symbol.endMarker])).numbers =
            c.numbers ++ [n] := by
          simp [Configuration.numbers, Configuration.expanded]
        rw [hnumbers]
        exact derived.snoc numbered expandable passed
  | @pass next ahead below hahead onTop token before =>
      -- the lookahead goes over to the tokens that are done, and the form stays
      obtain ⟨rest, rfl, rfl⟩ := cons_of_append_endMarker (hstack ▸ onTop) fun _ => before
      refine ⟨done ++ [c.token], rest, ?_, rfl, ?_, ?_⟩
      · simp [Configuration.passed, htokens, hahead]
      · rw [List.map_append]
        exact Grammar.allTokens_append.2 ⟨passed, Grammar.allTokens_cons.2
          ⟨token, Grammar.allTokens_nil⟩⟩
      · rw [List.map_append, List.append_assoc]
        exact derived

/-- All moves from one state to another keep the explanation. -/
theorem explains_of_moves (fits : r.table.Fits r.grammar)
    (h : Relation.ReflTransGen r.Moves c c') (holds : c.Explains r.grammar tokens) :
    c'.Explains r.grammar tokens := by
  induction h with
  | refl => exact holds
  | tail _ last ih => exact last.explains fits ih

/-- When a recognition has taken its text, the productions used derive the tokens before the last
one. -/
theorem leftDerives_of_accepts (holds : c.Explains r.grammar tokens) (accepts : c.Accepts) :
    LeftDerives r.grammar [r.grammar.start] c.numbers (tokens.dropLast.map (·.kind)) := by
  obtain ⟨done, above, htokens, hstack, -, derived⟩ := holds
  obtain ⟨hrest, hend, -⟩ := accepts
  -- nothing is left above the end marker, so the form consists of the tokens that are done
  have habove : above = [] := by
    have hlength := congrArg List.length (hstack.symm.trans hend)
    simpa using hlength
  rw [habove, List.append_nil] at derived
  rw [htokens, hrest, List.dropLast_concat]
  exact derived

/-- The numbers given for a text are those of a leftmost derivation of its tokens. -/
theorem leftDerives_of_parse (fits : r.table.Fits r.grammar) {text : String} {ns : List Int}
    (h : r.parse text = .ok ns) :
    LeftDerives r.grammar [r.grammar.start] ns
      ((r.lexer.tokens text).dropLast.map (·.kind)) := by
  obtain ⟨c, hmoves, accepts, rfl⟩ := run_eq_ok h
  exact leftDerives_of_accepts (explains_of_moves fits hmoves (r.explains_stateAt text)) accepts

/-- The tables that are built, conflicts overwritten or not, fit their grammars; and whenever a text
is taken by a table that fits, expanding the leftmost nonterminal by the productions with the given
numbers, one after the other, leads from the start symbol to exactly the tokens of the text. -/
theorem parse_sound :
    (∀ (g : Grammar) (strict : Bool) (m : Memo) (t : ParseTable), g.WellFormed →
      (ParseTable.build g strict m).result g = .ok t → t.Fits g) ∧
    ∀ (r : Recognizer) (text : String) (ns : List Int), r.table.Fits r.grammar →
      r.parse text = .ok ns →
        r.grammar.replay ns [r.grammar.start] =
          some ((r.lexer.tokens text).dropLast.map (·.kind)) := by
  constructor
  · intro g strict m t wf built
    exact ParseTable.fits_of_build wf built
  · intro r text ns fits taken
    rw [Grammar.replay_eq_some_iff]
    exact leftDerives_of_parse fits taken

/-- The recognizer for a grammar with a conflict, in whose table one production has lost a cell. -/
def dangling : Recognizer where
  grammar := ParseTable.dangling
  table := ⟨(ParseTable.build ParseTable.dangling false .empty).rows⟩
  lexer := ((Lexer.ofGrammar ParseTable.dangling (Pattern.compiler Pattern.nameless)
    (.int 0)).toOption).getD []

/-- A text that it takes nevertheless. -/
theorem parse_sound_dangling :
    dangling.table.Fits dangling.grammar ∧ dangling.parse "if if do" = .ok [1, 1, 2, 4, 4] ∧
      dangling.grammar.replay [1, 1, 2, 4, 4] ["S"] =
        some ["\"if\"", "\"if\"", "\"do\""] := by
  have fits : dangling.table.Fits dangling.grammar :=
    parse_sound.1 ParseTable.dangling false .empty _
      (Grammar.wellFormed_ofRules _ _ (by simp)) rfl
  have taken : dangling.parse "if if do" = .ok [1, 1, 2, 4, 4] :=
    eq_ok_of_toOption (by decide +kernel)
  refine ⟨fits, taken, ?_⟩
  have := parse_sound.2 dangling "if if do" [1, 1, 2, 4, 4] fits taken
  have tokens : (dangling.lexer.tokens "if if do").dropLast.map (·.kind) =
      ["\"if\"", "\"if\"", "\"do\""] := by
    decide +kernel
  rw [tokens] at this
  exact this

end Recognizer

end Predictive
