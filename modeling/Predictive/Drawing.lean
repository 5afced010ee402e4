/-!
# Drawing tables

A table is drawn with characters: every column is as wide as its widest cell, a border stands above
the head, below it and below every row, and cells are filled up with blanks. The head says how many
columns there are; a row with fewer cells cannot be drawn, and of one with more the rest is left out.
-/

set_option autoImplicit false

namespace Predictive.Drawing

/-- The text in one field of a table. -/
abbrev Cell := List Char

/-- The widths that also take the cells of a row; `none` when the row has too few cells. -/
def widen : List Nat → List Cell → Option (List Nat)
  | [], _ => some []
  | _ :: _, [] => none
  | w :: ws, c :: cs => (widen ws cs).map fun widths => max w c.length :: widths

/-- The widths that take the cells of all rows. -/
def widenAll : List Nat → List (List Cell) → Option (List Nat)
  | widths, [] => some widths
  | widths, row :: rows => (widen widths row).bind fun widths => widenAll widths rows

/-- The widths of the columns. -/
def widths (head : List Cell) (rows : List (List Cell)) : Option (List Nat) :=
  widenAll (head.map List.length) rows

/-- A cell with blanks up to a width. -/
def padded (width : Nat) (cell : Cell) : List Char :=
  cell ++ List.replicate (width - cell.length) ' '

@[simp] theorem length_padded {width : Nat} {cell : Cell} (h : cell.length ≤ width) :
    (padded width cell).length = width := by
  simp [padded]
  omega

/-- A line of the border. -/
def border (widths : List Nat) : List Char :=
  '+' :: (List.intercalate ['+'] (widths.map fun w => List.replicate (w + 2) '-') ++ ['+'])

/-- A line of cells. -/
def line (widths : List Nat) (cells : List Cell) : List Char :=
  ['|', ' '] ++ List.intercalate [' ', '│', ' '] (List.zipWith padded widths cells) ++ [' ', '|']

/-- The lines of the rows, each with a border below. -/
def body (widths : List Nat) : List (List Cell) → List (List Char)
  | [] => []
  | row :: rows => line widths row :: border widths :: body widths rows

/-- The lines of a drawn table. -/
def lines (head : List Cell) (rows : List (List Cell)) : Option (List (List Char)) :=
  (widths head rows).map fun widths =>
    border widths :: line widths head :: border widths :: body widths rows

/-- The drawn table. -/
def draw (head : List String) (rows : List (List String)) : Option String :=
  (lines (head.map String.toList) (rows.map (·.map String.toList))).map fun lines =>
    String.ofList (List.intercalate ['\n'] lines)

end Predictive.Drawing
