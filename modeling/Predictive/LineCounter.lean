/-!
# Line counters

A line counter goes through a text piece by piece and knows the position reached, its line and its
column, both counted from one, and the position at which the line begins.
-/

set_option autoImplicit false

namespace Predictive

/-- A place in a text. -/
structure LineCounter where
  position : Nat
  line : Nat
  column : Nat
  lineStart : Nat
deriving Repr, DecidableEq

namespace LineCounter

/-- The beginning of a text. -/
def start : LineCounter := ⟨0, 1, 1, 0⟩

/-- The number of characters up to and with the last line feed; zero without one. -/
def lastFeed (piece : List Char) : Nat :=
  (piece.reverse.dropWhile (· ≠ '\n')).length

/-- The place after one more piece of the text. Line feeds count only if `countFeeds` is set. -/
def feed (c : LineCounter) (piece : List Char) (countFeeds : Bool) : LineCounter :=
  let feeds := if countFeeds then piece.count '\n' else 0
  let lineStart := if feeds = 0 then c.lineStart else c.position + lastFeed piece
  let position := c.position + piece.length
  { position := position
    line := c.line + feeds
    column := position - lineStart + 1
    lineStart := lineStart }

end LineCounter

end Predictive
