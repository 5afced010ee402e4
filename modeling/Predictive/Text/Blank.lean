/-!
# Blank characters, words and lines

The cutting of texts that both notations of the library rest on. A character is blank by `isBlank`;
`strip` removes the blanks at both ends, `words` gives the maximal runs without blanks, and `lines`
cuts at line feeds only, so a text always has at least one line.
-/

set_option autoImplicit false

namespace Predictive.Text

/-- The blank characters: the separators of Unicode that stand for white space, with the four
information separators and the next-line control among them. -/
def isBlank (c : Char) : Bool :=
  let n := c.toNat
  (0x09 ≤ n && n ≤ 0x0D) || (0x1C ≤ n && n ≤ 0x20) || n == 0x85 || n == 0xA0 || n == 0x1680 ||
    (0x2000 ≤ n && n ≤ 0x200A) || n == 0x2028 || n == 0x2029 || n == 0x202F || n == 0x205F ||
    n == 0x3000

/-- What remains after the blanks at the front. -/
def dropBlanks (cs : List Char) : List Char :=
  cs.dropWhile isBlank

/-- What remains after the blanks at both ends. -/
def strip (cs : List Char) : List Char :=
  (dropBlanks (dropBlanks cs).reverse).reverse

/-- The maximal runs of characters that are not blank, from left to right. -/
def words : List Char → List (List Char)
  | [] => []
  | c :: cs =>
      if isBlank c then words cs
      else
        match cs, words cs with
        | d :: _, w :: ws => if isBlank d then [c] :: w :: ws else (c :: w) :: ws
        | _, ws => [c] :: ws

/-- The lines of a text: the pieces between its line feeds. -/
def lines : List Char → List (List Char)
  | [] => [[]]
  | c :: cs =>
      match lines cs with
      | l :: ls => if c = '\n' then [] :: l :: ls else (c :: l) :: ls
      | [] => [[c]]

/-- The text whose lines are given: line feeds stand between them. -/
def unlines : List (List Char) → List Char
  | [] => []
  | [l] => l
  | l :: ls => l ++ '\n' :: unlines ls

theorem lines_ne_nil (cs : List Char) : lines cs ≠ [] := by
  cases cs with
  | nil => simp [lines]
  | cons c cs =>
      unfold lines
      split
      · split <;> simp
      · simp

end Predictive.Text
