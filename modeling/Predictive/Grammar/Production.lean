import Predictive.Datum
import Predictive.Symbol

/-!
# Productions

A production gives a nonterminal one sequence of symbols to stand for. An empty sequence is written
as the empty symbol alone. `render` is the form in which a production stands in a grammar.
-/

set_option autoImplicit false

namespace Predictive

/-- One production of a grammar. -/
structure Production where
  /-- The place of the production in its grammar, counted from one. -/
  number : Int
  lhs : Symbol
  rhs : List Symbol
deriving Repr, DecidableEq

namespace Production

/-- The production with this right-hand side; an empty one becomes the empty symbol. -/
def of (number : Int) (lhs : Symbol) (rhs : List Symbol) : Production :=
  ⟨number, lhs, if rhs = [] then [Symbol.empty] else rhs⟩

/-- Whether the right-hand side is the empty symbol alone. -/
def isEmpty (p : Production) : Bool :=
  p.rhs == [Symbol.empty]

/-- The symbols that the production puts in the place of its left-hand side: the empty symbol stands
for none. -/
def content (p : Production) : List Symbol :=
  p.rhs.filter (· ≠ Symbol.empty)

/-- The production without the empty symbol among others. -/
def erased (p : Production) : Production :=
  of p.number p.lhs p.content

/-- The rule that a left-hand and a right-hand side make, as a line. -/
def renderRule (lhs : Symbol) (rhs : List Symbol) : String :=
  lhs ++ " -> " ++ Datum.joinWith " " rhs

/-- The production as a line of a grammar. -/
def render (p : Production) : String :=
  renderRule p.lhs p.rhs

/-- The production with its number and quoted symbols. -/
def describe (p : Production) : String :=
  "Production(" ++ Datum.intText p.number ++ ", " ++ Text.quote p.lhs ++ ", " ++
    (Datum.tuple (p.rhs.map .text)).render ++ ")"

end Production

end Predictive
