import Predictive.Pattern.CharSet

/-!
# Patterns

A pattern describes pieces of a text, in the manner of regular expressions with captures, look-around
and three kinds of repetition. `Pattern.width` bounds the lengths of the pieces that a pattern can
match; a pattern that looks back has to have one length only.
-/

set_option autoImplicit false

namespace Predictive

/-- A condition on a place in a text. -/
inductive Anchor where
  | textStart
  /-- The start of the text, or after a line feed. -/
  | lineStart
  | textEnd
  /-- The end of the text, or before a line feed that ends it. -/
  | finalLineEnd
  /-- The end of the text, or before a line feed. -/
  | lineEnd
  /-- Between a word character and one that is none. -/
  | boundary (letters : CharClass)
  /-- Elsewhere than at a boundary. -/
  | nonBoundary (letters : CharClass)
deriving Repr, DecidableEq

/-- How a repetition chooses its number of rounds. -/
inductive RepeatMode where
  /-- As many rounds as the rest allows. -/
  | greedy
  /-- As few rounds as the rest allows. -/
  | sparing
  /-- As many rounds as there are, whatever the rest needs. -/
  | possessive
deriving Repr, DecidableEq

/-- Bounds for the length of a piece; without `most` there is no upper bound. -/
structure Width where
  least : Nat
  most : Option Nat
deriving Repr, DecidableEq

namespace Width

/-- The width of a piece of exactly `n` characters. -/
def exactly (n : Nat) : Width := ⟨n, some n⟩

/-- The width of two pieces after each other. -/
def append (v w : Width) : Width :=
  ⟨v.least + w.least, do return (← v.most) + (← w.most)⟩

/-- The width of one of two pieces. -/
def either (v w : Width) : Width :=
  ⟨min v.least w.least, do return max (← v.most) (← w.most)⟩

/-- The width of `least` up to `most` pieces. -/
def times (v : Width) (least : Nat) (most : Option Nat) : Width :=
  { least := v.least * least
    most := match v.most, most with
      | some n, some m => some (n * m)
      | some 0, none => some 0
      | none, some 0 => some 0
      | _, _ => none }

end Width

/-- A description of pieces of a text. -/
inductive Pattern where
  /-- The piece without characters. -/
  | empty
  /-- One character of a set. -/
  | one (set : CharSet)
  | anchor (condition : Anchor)
  | append (first second : Pattern)
  /-- The first alternative that lets the rest match. -/
  | choice (first second : Pattern)
  /-- A part in parentheses, captured if it has a number. -/
  | group (number : Option Nat) (body : Pattern)
  /-- A part in parentheses under flags of its own. -/
  | scoped (body : Pattern)
  /-- From `least` up to `most` rounds of a pattern. -/
  | repetition (least : Nat) (most : Option Nat) (mode : RepeatMode) (body : Pattern)
  /-- The first match of a pattern, whatever the rest needs. -/
  | atomic (body : Pattern)
  /-- What follows here, or stands before, matches; or it does not, if negated. -/
  | look (behind negated : Bool) (body : Pattern)
  /-- The piece that a group has captured, whose width is `width`. -/
  | backreference (number : Nat) (folding : Folding) (width : Width)
  /-- One pattern if a group has captured, another one if not. -/
  | condition (number : Nat) (yes no : Pattern)
deriving Repr, DecidableEq

namespace Pattern

/-- Bounds for the lengths of the pieces that a pattern matches. -/
def width : Pattern → Width
  | .empty => .exactly 0
  | .one _ => .exactly 1
  | .anchor _ => .exactly 0
  | .append p q => p.width.append q.width
  | .choice p q => p.width.either q.width
  | .group _ p => p.width
  | .scoped p => p.width
  | .repetition least most _ p => p.width.times least most
  | .atomic p => p.width
  | .look _ _ _ => .exactly 0
  | .backreference _ _ w => w
  | .condition _ p q => p.width.either q.width

/-! ## Items

A pattern is read as a list of items. Parentheses that neither capture nor set flags are no item:
what they hold stands in their place. -/

/-- Items after each other. -/
def sequence : List Pattern → Pattern
  | [] => .empty
  | [p] => p
  | p :: ps => .append p (sequence ps)

/-- The items of a pattern. -/
def items : Pattern → List Pattern
  | .empty => []
  | .append p q => p :: items q
  | p => [p]

/-- The items that stand in the place of one. -/
def opened : Pattern → List Pattern
  | .group none p => p.items
  | p => [p]

/-- The set of a pattern that is one character of it. -/
def single? : Pattern → Option CharSet
  | .one set => some set
  | .scoped p => p.single?
  | _ => none

/-- The set that the first character is in, if the pattern, and after it what follows, begins with
one; `next` is that of what follows. -/
def lead (next : Option CharSet) : Pattern → Option CharSet
  | .empty => next
  | .one set => some set
  | .append p q => p.lead (q.lead next)
  | .scoped p => p.lead next
  | _ => none

/-! ## Alternatives

What all alternatives begin with is taken out of them, and alternatives of one character each are
one set. -/

/-- Whether an item is the same wherever it stands. -/
def isShared : Pattern → Bool
  | .one _ => true
  | .anchor _ => true
  | .backreference _ _ _ => true
  | _ => false

/-- The first items and the remaining ones of alternatives that all begin with one item. -/
def headsAndTails (p : Pattern) : List (List Pattern) → Option (List (List Pattern))
  | [] => some []
  | (q :: qs) :: alternatives =>
      if q = p then (headsAndTails p alternatives).map (qs :: ·) else none
  | [] :: _ => none

/-- The items that all alternatives begin with, and the alternatives without them; `fuel` bounds the
number of these items. -/
def commonStart : Nat → List (List Pattern) → List Pattern × List (List Pattern)
  | 0, alternatives => ([], alternatives)
  | fuel + 1, alternatives =>
      match alternatives with
      | (p :: _) :: _ =>
          match if p.isShared then headsAndTails p alternatives else none with
          | some tails =>
              let (start, rest) := commonStart fuel tails
              (p :: start, rest)
          | none => ([], alternatives)
      | _ => ([], alternatives)

/-- The parts of the sets of alternatives that are all one character of a set. -/
def mergedItems? : List (List Pattern) → Option (List SetItem)
  | [] => some []
  | [.one set] :: alternatives =>
      if set.negated then none else (mergedItems? alternatives).map (set.items ++ ·)
  | _ => none

/-- The folding of the first item of alternatives that is a character. -/
def firstFolding : List (List Pattern) → Folding
  | [.one set] :: _ => set.folding
  | _ => .exact

/-- An alternative; one that has alternatives itself and nothing else is kept apart from the ones
around it. -/
def alternative (items : List Pattern) : Pattern :=
  match sequence items with
  | .choice p q => .append (.choice p q) .empty
  | p => p

/-- Patterns of which the first one is preferred. -/
def choices : List Pattern → Pattern
  | [] => .empty
  | [p] => p
  | p :: ps => .choice p (choices ps)

/-- The pattern of alternatives, the first one preferred. -/
def alternatives : List (List Pattern) → Pattern
  | [] => .empty
  | [items] => sequence items
  | lists =>
      let (start, rest) := commonStart (lists.headD []).length lists
      match mergedItems? rest with
      | some items => sequence (start ++ [.one ⟨items.eraseDups, false, firstFolding rest⟩])
      | none => sequence (start ++ [choices (rest.map alternative)])

end Pattern

end Predictive
