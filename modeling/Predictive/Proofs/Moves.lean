import Mathlib.Logic.Relation
import Predictive.Recognizer.Basic

/-!
# Moves of the recognizer

`Moves` says what one move can do: expand the symbol on top of the stack by the production that the
table selects, or pass a token that is the lookahead. `Stops` says where there is no such move, and
with what the recognition is over then. `step_eq_next_iff`, `step_stops` and `step_eq_ok_iff` tie them
to `Recognizer.step`; a run that ends is a sequence of moves to a state where one stops (`run_stops`),
in particular a run that takes a text (`run_eq_ok`), and such a sequence makes a run (`exists_run_eq`).
-/

set_option autoImplicit false

namespace Predictive

/-- The state after the expansion of the symbol on top by the production with a number. -/
def Configuration.expanded (c : Configuration) (n : Int) (p : Production) (below : List Symbol) :
    Configuration :=
  { c with stack := p.content ++ below, used := n :: c.used }

/-- The state after the lookahead has been passed. -/
def Configuration.passed (c : Configuration) (next : Token) (rest : List Token)
    (below : List Symbol) : Configuration :=
  { c with token := next, rest := rest, stack := below }

/-- Recognition is over, and the text is taken. -/
def Configuration.Accepts (c : Configuration) : Prop :=
  c.rest = [] ∧ c.stack = [Symbol.endMarker] ∧ c.token.kind = Symbol.endMarker

namespace Recognizer

variable {r : Recognizer} {c c' : Configuration}

/-- The moves that do not stop. Before the end of the input the end marker is not expanded, and at the
end the bottom of the stack is not. -/
inductive Moves (r : Recognizer) (c : Configuration) : Configuration → Prop
  | expand {top : Symbol} {below : List Symbol} {n : Int} {p : Production}
      (onTop : c.stack = top :: below) (expandable : r.grammar.isToken top = false)
      (cell : r.table.cell? top c.token.kind = some n) (numbered : r.grammar.production? n = some p)
      (before : c.rest ≠ [] → top ≠ Symbol.endMarker) (atEnd : c.rest = [] → below ≠ []) :
      Moves r c (c.expanded n p below)
  | pass {next : Token} {rest : List Token} {below : List Symbol} (ahead : c.rest = next :: rest)
      (onTop : c.stack = c.token.kind :: below) (token : r.grammar.isToken c.token.kind = true)
      (before : c.token.kind ≠ Symbol.endMarker) : Moves r c (c.passed next rest below)

/-! ## One move -/

theorem expandMove_eq_next {top : Symbol} {below : List Symbol} {n : Int} {p : Production}
    (cell : r.table.cell? top c.token.kind = some n)
    (numbered : r.grammar.production? n = some p) :
    r.expandMove top { c with stack := below } = .next (c.expanded n p below) := by
  simp only [expandMove, expand, cell, numbered, Configuration.expanded]

/-- The moves that stop. Before the end of the input the bottom of the stack is met, a token that is
not the lookahead, or a symbol that the table has no entry for; at the end nothing more vanishes. The
other ones are those of a stack without a bottom and of a table that does not fit the grammar. -/
inductive Stops (r : Recognizer) (c : Configuration) :
    Except Failure (List Int) → Configuration → Prop
  | finished (atEnd : c.rest = [])
      (stuck : ∀ top second below, c.stack = top :: second :: below → r.vanishes top c = false) :
      Stops r c (r.finish c) c
  | noSymbol (ahead : c.rest ≠ []) (onTop : c.stack = []) : Stops r c (.error .outOfRange) c
  | bottom {below : List Symbol} (ahead : c.rest ≠ [])
      (onTop : c.stack = Symbol.endMarker :: below) :
      Stops r c (.error (unexpected c (SymbolSet.singleton Symbol.endMarker) [Symbol.endMarker]))
        { c with stack := below }
  | mismatch {top : Symbol} {below : List Symbol} (ahead : c.rest ≠ [])
      (onTop : c.stack = top :: below) (before : top ≠ Symbol.endMarker)
      (token : r.grammar.isToken top = true) (other : top ≠ c.token.kind) :
      Stops r c (.error (unexpected c (SymbolSet.singleton top) (below.reverse ++ [top])))
        { c with stack := below }
  | noEntry {top : Symbol} {below : List Symbol} (ahead : c.rest ≠ [])
      (onTop : c.stack = top :: below) (before : top ≠ Symbol.endMarker)
      (expandable : r.grammar.isToken top = false)
      (absent : r.table.cell? top c.token.kind = none) :
      Stops r c (.error (unexpected c (r.table.expected top) (below.reverse ++ [top])))
        { c with stack := below }
  | noProduction {top : Symbol} {below : List Symbol} {n : Int} (onTop : c.stack = top :: below)
      (expandable : r.grammar.isToken top = false) (cell : r.table.cell? top c.token.kind = some n)
      (unnumbered : r.grammar.production? n = none) :
      Stops r c (.error (.missingKey (.key (.int n)))) { c with stack := below }

/-- An expansion goes on, or the table or the grammar lacks what it needs. -/
theorem expandMove_cases (r : Recognizer) (c : Configuration) (top : Symbol)
    (below : List Symbol) :
    (∃ n p, r.table.cell? top c.token.kind = some n ∧ r.grammar.production? n = some p ∧
      r.expandMove top { c with stack := below } = .next (c.expanded n p below)) ∨
    (r.table.cell? top c.token.kind = none ∧ r.expandMove top { c with stack := below } =
      .stop (.error (unexpected c (r.table.expected top) (below.reverse ++ [top])))
        { c with stack := below }) ∨
    ∃ n, r.table.cell? top c.token.kind = some n ∧ r.grammar.production? n = none ∧
      r.expandMove top { c with stack := below } =
        .stop (.error (.missingKey (.key (.int n)))) { c with stack := below } := by
  cases hcell : r.table.cell? top c.token.kind with
  | none =>
      refine .inr (.inl ⟨rfl, ?_⟩)
      simp only [expandMove, expand, hcell]
      rfl
  | some n =>
      cases hp : r.grammar.production? n with
      | none =>
          refine .inr (.inr ⟨n, rfl, hp, ?_⟩)
          simp only [expandMove, expand, hcell, hp]
      | some p => exact .inl ⟨n, p, rfl, hp, expandMove_eq_next hcell hp⟩

theorem step_of_ahead {next : Token} {rest : List Token} {top : Symbol} {below : List Symbol}
    (ahead : c.rest = next :: rest) (onTop : c.stack = top :: below)
    (before : top ≠ Symbol.endMarker) :
    r.step c =
      if r.grammar.isToken top then
        if top = c.token.kind then .next (c.passed next rest below)
        else .stop (.error (unexpected c (SymbolSet.singleton top)
          (Configuration.shownStack { c with stack := below } ++ [top]))) { c with stack := below }
      else r.expandMove top { c with stack := below } := by
  simp only [step, ahead, onTop, if_neg before, Configuration.passed]

theorem step_of_atEnd {top second : Symbol} {below : List Symbol} (atEnd : c.rest = [])
    (onTop : c.stack = top :: second :: below) :
    r.step c =
      if r.vanishes top c then r.expandMove top { c with stack := second :: below }
      else .stop (r.finish c) c := by
  simp only [step, atEnd, onTop]

/-- One move goes on as `Moves` says, or stops as `Stops` says. -/
theorem step_cases (r : Recognizer) (c : Configuration) :
    (∃ c', r.Moves c c' ∧ r.step c = .next c') ∨
    ∃ outcome c', r.Stops c outcome c' ∧ r.step c = .stop outcome c' := by
  cases ahead : c.rest with
  | nil =>
      -- at the end of the input only symbols that vanish are expanded
      cases onTop : c.stack with
      | nil =>
          exact .inr ⟨_, _, .finished ahead (by simp [onTop]), by simp only [step, ahead, onTop]⟩
      | cons top below =>
          cases below with
          | nil =>
              exact .inr ⟨_, _, .finished ahead (by simp [onTop]),
                by simp only [step, ahead, onTop]⟩
          | cons second below =>
              rw [step_of_atEnd ahead onTop]
              by_cases hv : r.vanishes top c = true
              · rw [if_pos hv]
                simp only [vanishes, Bool.and_eq_true, Bool.not_eq_true'] at hv
                rcases expandMove_cases r c top (second :: below) with
                  ⟨n, p, cell, numbered, hnext⟩ | ⟨absent, -⟩ | ⟨n, cell, unnumbered, hstop⟩
                · exact .inl ⟨_, .expand onTop hv.1 cell numbered (fun hne => absurd ahead hne)
                    (fun _ => by simp), hnext⟩
                · rw [absent] at hv
                  exact absurd hv.2 (by simp)
                · exact .inr ⟨_, _, .noProduction onTop hv.1 cell unnumbered, hstop⟩
              · rw [if_neg hv]
                refine .inr ⟨_, _, .finished ahead fun top' second' below' onTop' => ?_, rfl⟩
                obtain ⟨rfl, -⟩ := List.cons.inj (onTop.symm.trans onTop')
                simpa using hv
  | cons next rest =>
      have hrest : c.rest ≠ [] := by simp [ahead]
      cases onTop : c.stack with
      | nil => exact .inr ⟨_, _, .noSymbol hrest onTop, by simp only [step, ahead, onTop]⟩
      | cons top below =>
          by_cases before : top = Symbol.endMarker
          · -- the bottom of the stack while tokens are left
            subst before
            exact .inr ⟨_, _, .bottom hrest onTop, by simp only [step, ahead, onTop, if_true]⟩
          · rw [step_of_ahead ahead onTop before]
            by_cases htoken : r.grammar.isToken top = true
            · -- a token is passed if it is the lookahead
              rw [if_pos htoken]
              by_cases hkind : top = c.token.kind
              · rw [if_pos hkind]
                subst hkind
                exact .inl ⟨_, .pass ahead onTop htoken before, rfl⟩
              · rw [if_neg hkind]
                exact .inr ⟨_, _, .mismatch hrest onTop before htoken hkind, rfl⟩
            · -- any other symbol is expanded if the table and the grammar allow it
              rw [if_neg htoken]
              have expandable : r.grammar.isToken top = false := by simpa using htoken
              rcases expandMove_cases r c top below with
                ⟨n, p, cell, numbered, hnext⟩ | ⟨absent, hstop⟩ | ⟨n, cell, unnumbered, hstop⟩
              · exact .inl ⟨_, .expand onTop expandable cell numbered (fun _ => before)
                  (fun hnil => absurd hnil hrest), hnext⟩
              · exact .inr ⟨_, _, .noEntry hrest onTop before expandable absent, hstop⟩
              · exact .inr ⟨_, _, .noProduction onTop expandable cell unnumbered, hstop⟩

/-- Which moves `step` makes. -/
theorem step_eq_next_iff : r.step c = .next c' ↔ r.Moves c c' := by
  constructor
  · intro h
    rcases step_cases r c with ⟨d, hmoves, hd⟩ | ⟨outcome, d, -, hstop⟩
    · rw [hd, Move.next.injEq] at h
      exact h ▸ hmoves
    · exact absurd (h.symm.trans hstop) (by simp)
  · intro h
    cases h with
    | @expand top below n p onTop expandable cell numbered before atEnd =>
        cases ahead : c.rest with
        | nil =>
            cases below with
            -- at the end of the tokens the bottom of the stack is not expanded
            | nil => exact absurd rfl (atEnd ahead)
            | cons second below =>
                have hv : r.vanishes top c = true := by
                  simp only [vanishes, expandable, cell, Bool.not_false, Option.isSome_some,
                    Bool.and_self]
                rw [step_of_atEnd ahead onTop, if_pos hv]
                exact expandMove_eq_next cell numbered
        | cons next rest =>
            rw [step_of_ahead ahead onTop (before (by simp [ahead])),
              if_neg (by simp [expandable])]
            exact expandMove_eq_next cell numbered
    | pass ahead onTop token before =>
        rw [step_of_ahead ahead onTop before, if_pos token, if_pos rfl]

/-- Where `step` stops, and with what. -/
theorem step_stops {outcome : Except Failure (List Int)} (h : r.step c = .stop outcome c') :
    r.Stops c outcome c' := by
  rcases step_cases r c with ⟨d, -, hd⟩ | ⟨outcome', d, hstops, hstop⟩
  · exact absurd (h.symm.trans hd) (by simp)
  · rw [hstop, Move.stop.injEq] at h
    obtain ⟨rfl, rfl⟩ := h
    exact hstops

theorem finish_eq_ok_iff {ns : List Int} :
    r.finish c = .ok ns ↔
      (c.stack = [Symbol.endMarker] ∧ c.token.kind = Symbol.endMarker) ∧ ns = c.numbers := by
  rw [finish]
  by_cases h : c.stack = [Symbol.endMarker] ∧ c.token.kind = Symbol.endMarker
  · simp [h, eq_comm]
  · rw [if_neg h]
    cases hstack : c.stack with
    | nil => simp
    | cons top below =>
        simp only [reduceCtorEq, false_iff, not_and]
        exact fun hacc _ => h ⟨hstack.trans hacc.1, hacc.2⟩

/-- A single move is never endless. -/
theorem Stops.ne_endless {outcome : Except Failure (List Int)} (h : r.Stops c outcome c') :
    outcome ≠ .error .endless := by
  cases h with
  | finished atEnd stuck =>
      rw [finish]
      split
      · simp
      · cases c.stack with
        | nil => simp
        | cons top below => simp
  | _ => simp [unexpected]

/-- Where `step` stops and takes the text. -/
theorem step_eq_ok_iff {ns : List Int} :
    r.step c = .stop (.ok ns) c' ↔ c.Accepts ∧ ns = c.numbers ∧ c' = c := by
  constructor
  · intro h
    -- all other moves that stop fail
    generalize hok : Except.ok ns = outcome at h
    cases step_stops h with
    | finished atEnd _ =>
        obtain ⟨⟨hstack, hkind⟩, hns⟩ := finish_eq_ok_iff.1 hok.symm
        exact ⟨⟨atEnd, hstack, hkind⟩, hns, rfl⟩
    | _ => exact absurd hok (by simp)
  · rintro ⟨⟨ahead, hstack, hkind⟩, rfl, rfl⟩
    have hfinish := (finish_eq_ok_iff (r := r)).2 ⟨⟨hstack, hkind⟩, rfl⟩
    simp only [step, ahead, hstack, hfinish]

/-! ## Runs -/

/-- A run that takes its text moves to a state that is over. -/
theorem run_eq_ok {fuel : Nat} {ns : List Int} (h : (r.run fuel c).1 = .ok ns) :
    ∃ c', Relation.ReflTransGen r.Moves c c' ∧ c'.Accepts ∧ ns = c'.numbers := by
  induction fuel generalizing c with
  | zero => exact absurd h (by simp [run])
  | succ fuel ih =>
      rw [run] at h
      cases hstep : r.step c with
      | next d =>
          rw [hstep] at h
          obtain ⟨c', hmoves, haccepts, hns⟩ := ih h
          exact ⟨c', .head (step_eq_next_iff.1 hstep) hmoves, haccepts, hns⟩
      | stop outcome d =>
          rw [hstep] at h
          simp only at h
          subst h
          obtain ⟨haccepts, hns, rfl⟩ := step_eq_ok_iff.1 hstep
          exact ⟨d, .refl, haccepts, hns⟩

/-- A run that ends moves to a state where the last move stops. -/
theorem run_stops {fuel : Nat} (ends : (r.run fuel c).1 ≠ .error .endless) :
    ∃ d d', Relation.ReflTransGen r.Moves c d ∧ r.Stops d (r.run fuel c).1 d' := by
  induction fuel generalizing c with
  | zero => exact absurd rfl ends
  | succ fuel ih =>
      rw [run] at ends ⊢
      cases hstep : r.step c with
      | stop outcome d => exact ⟨c, d, .refl, step_stops hstep⟩
      | next next =>
          rw [hstep] at ends
          obtain ⟨d, d', hmoves, hstops⟩ := ih ends
          exact ⟨d, d', .head (step_eq_next_iff.1 hstep) hmoves, hstops⟩

/-- Moves to a state that is over make a run. -/
theorem exists_run_eq (h : Relation.ReflTransGen r.Moves c c') (haccepts : c'.Accepts) :
    ∃ fuel, r.run fuel c = (.ok c'.numbers, c') := by
  induction h using Relation.ReflTransGen.head_induction_on with
  | refl =>
      refine ⟨1, ?_⟩
      rw [run, step_eq_ok_iff.2 ⟨haccepts, rfl, rfl⟩]
  | head hmove _ ih =>
      obtain ⟨fuel, hrun⟩ := ih
      refine ⟨fuel + 1, ?_⟩
      rw [run, step_eq_next_iff.2 hmove]
      exact hrun

end Recognizer

end Predictive
