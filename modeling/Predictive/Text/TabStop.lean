/-!
# Tab stops

The width of a text on a page whose tab stops stand at every eighth column. A line feed or a
carriage return takes one character and moves back to the first column.
-/

set_option autoImplicit false

namespace Predictive.Text

/-- The distance between two tab stops. -/
def tabStop : Nat := 8

/-- The characters that a text takes once its tabs are replaced by blanks, when it begins at
column `column` (counted from zero). -/
def expandedLength : List Char → Nat → Nat
  | [], _ => 0
  | c :: cs, column =>
      if c = '\t' then
        let width := tabStop - column % tabStop
        width + expandedLength cs (column + width)
      else if c = '\n' ∨ c = '\r' then 1 + expandedLength cs 0
      else 1 + expandedLength cs (column + 1)

end Predictive.Text
