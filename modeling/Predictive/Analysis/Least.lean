import Predictive.Grammar.Derivation
import Predictive.Table.Basic

/-!
# The least First, Follow and Predict sets

The sets as the rules of the theory define them: the least families that are closed under the rules.
A grammar is LL(1) when no two productions of one symbol share a token of their Predict sets. The
rules take the empty symbol for the empty sequence; `EmptyStandsAlone` is the usual form, in which it
occurs as a whole right-hand side only.
-/

set_option autoImplicit false

namespace Predictive

mutual

/-- The rules for the First set of a symbol. -/
inductive InFirst (g : Grammar) : Symbol → Symbol → Prop
  | token {s : Symbol} (h : g.isToken s = true) : InFirst g s s
  | production {p : Production} {t : Symbol} (member : p ∈ g.productionList)
      (expandable : g.isToken p.lhs = false) (h : InFirstOf g p.rhs t) : InFirst g p.lhs t

/-- The rules for the First set of a sequence. -/
inductive InFirstOf (g : Grammar) : List Symbol → Symbol → Prop
  | nil : InFirstOf g [] Symbol.empty
  | empty {rest : List Symbol} {t : Symbol} (h : InFirstOf g rest t) :
      InFirstOf g (Symbol.empty :: rest) t
  | head {s t : Symbol} {rest : List Symbol} (proper : s ≠ Symbol.empty) (h : InFirst g s t)
      (visible : t ≠ Symbol.empty) : InFirstOf g (s :: rest) t
  | tail {s t : Symbol} {rest : List Symbol} (proper : s ≠ Symbol.empty)
      (vanishes : InFirst g s Symbol.empty) (h : InFirstOf g rest t) : InFirstOf g (s :: rest) t

end

/-- The rules for the Follow set of a symbol. -/
inductive InFollow (g : Grammar) : Symbol → Symbol → Prop
  | start : InFollow g g.start Symbol.endMarker
  | next {p : Production} {s t : Symbol} {before after : List Symbol}
      (member : p ∈ g.productionList) (used : p.rhs = before ++ s :: after)
      (h : InFirstOf g after t) (visible : t ≠ Symbol.empty) : InFollow g s t
  | last {p : Production} {s t : Symbol} {before after : List Symbol}
      (member : p ∈ g.productionList) (used : p.rhs = before ++ s :: after)
      (vanishes : InFirstOf g after Symbol.empty) (h : InFollow g p.lhs t) : InFollow g s t

/-- The tokens in the Predict set of a production, and the end marker. -/
inductive InPredict (g : Grammar) (p : Production) : Symbol → Prop
  | first {t : Symbol} (h : InFirstOf g p.rhs t) (visible : t ≠ Symbol.empty) : InPredict g p t
  | follow {t : Symbol} (vanishes : InFirstOf g p.rhs Symbol.empty) (h : InFollow g p.lhs t) :
      InPredict g p t

namespace Grammar

/-- Two productions of one symbol that share a lookahead. -/
def Conflict (g : Grammar) (p q : Production) (t : Symbol) : Prop :=
  p ∈ g.productionList ∧ q ∈ g.productionList ∧ p ≠ q ∧ p.lhs = q.lhs ∧
    InPredict g p t ∧ InPredict g q t

/-- No two productions of one symbol share a lookahead. -/
def IsLL1 (g : Grammar) : Prop := ∀ p q t, ¬ g.Conflict p q t

/-- The empty symbol is used as a whole right-hand side only. -/
def EmptyStandsAlone (g : Grammar) : Prop :=
  ∀ p ∈ g.productionList, p.lhs ≠ Symbol.empty ∧ (p.rhs = [Symbol.empty] ∨ Symbol.empty ∉ p.rhs)

/-- The symbol is no left-hand side, is used nowhere and is the name of no lexical rule. -/
def Lacks (g : Grammar) (s : Symbol) : Prop :=
  (∀ p ∈ g.productionList, p.lhs ≠ s ∧ s ∉ p.rhs) ∧ g.isToken s = false

/-- No symbol is left-recursive. -/
def IsLeftRecursionFree (g : Grammar) : Prop := ∀ s, ¬ g.LeftRecursive s

/-- The grammar without the empty symbol among others. -/
def erased (g : Grammar) : Grammar :=
  { g with productions := g.productions.map Production.erased }

end Grammar

/-- A table that holds a number exactly where its production predicts the lookahead. -/
def ParseTable.IsCorrect (table : ParseTable) (g : Grammar) : Prop :=
  ∀ s t n, table.cell? s t = some n ↔
    ∃ p, g.production? n = some p ∧ p.lhs = s ∧ InPredict g p t

/-- A table that holds only numbers of productions of the symbol of the row. -/
def ParseTable.Fits (table : ParseTable) (g : Grammar) : Prop :=
  ∀ s t n, table.cell? s t = some n → ∃ p, g.production? n = some p ∧ p.lhs = s

/-! ## Closure under shorter descriptions -/

/-- What begins a sequence without the empty symbol begins the sequence with it. -/
theorem inFirstOf_filter {g : Grammar} {rhs : List Symbol} {t : Symbol} :
    InFirstOf g (rhs.filter (· ≠ Symbol.empty)) t ↔ InFirstOf g rhs t := by
  induction rhs generalizing t with
  | nil => simp
  | cons s rest ih =>
      -- only an ε at the head tells the two apart, and the rule `empty` passes over it
      by_cases hs : s = Symbol.empty
      · subst hs
        simp only [ne_eq, not_true_eq_false, decide_false, Bool.false_eq_true, not_false_eq_true,
          List.filter_cons_of_neg]
        constructor
        · intro h
          exact .empty (ih.1 h)
        · intro h
          cases h with
          | empty h => exact ih.2 h
          | head proper _ _ => exact absurd rfl proper
          | tail proper _ _ => exact absurd rfl proper
      · simp only [ne_eq, hs, not_false_eq_true, decide_true, List.filter_cons_of_pos]
        constructor
        · intro h
          cases h with
          | empty _ => exact absurd rfl hs
          | head proper h visible => exact .head proper h visible
          | tail proper vanishes h => exact .tail proper vanishes (ih.1 h)
        · intro h
          cases h with
          | empty _ => exact absurd rfl hs
          | head proper h visible => exact .head proper h visible
          | tail proper vanishes h => exact .tail proper vanishes (ih.2 h)

end Predictive
