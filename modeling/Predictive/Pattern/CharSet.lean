import Predictive.Text.Blank
import Predictive.Unicode.Digit
import Predictive.Unicode.LetterCase
import Predictive.Unicode.Word

/-!
# Sets of characters in patterns

A set is a list of code points, ranges and named classes, possibly negated. `Folding` says which
letters count as one: a character lies in a range when one of its variants does. A set of a single
code point holds all variants of it. In other sets the variants beyond the basic plane do not count;
there a code point is compared with the small form of a character, and a range with its small form
and the capital form of that.
-/

set_option autoImplicit false

namespace Predictive

/-- Which letters a pattern takes for one. -/
inductive Folding where
  /-- Every letter stands for itself. -/
  | exact
  /-- Letters below 128 stand for both of their forms. -/
  | ascii
  /-- Letters stand for all of their forms, with the restriction on planes. -/
  | full
deriving Repr, DecidableEq

/-- The last code point of the basic plane. -/
def lastBasicPoint : Nat := 0xFFFF

namespace Folding

/-- The code points that count as one with `n`. -/
def variants : Folding → Nat → List Nat
  | .exact, n => [n]
  | .ascii, n => Unicode.asciiCaseVariants n
  | .full, n => Unicode.caseVariants n

/-- The form in which letters are compared one by one. -/
def small : Folding → Nat → Nat
  | .exact, n => n
  | .ascii, n => Unicode.asciiLower n
  | .full, n => Unicode.lower n

/-- Whether one of the code points that count as one with `n` lies in a range. -/
def meets (f : Folding) (first last n : Nat) : Bool :=
  (f.variants n).any fun m => first ≤ m && m ≤ last

/-- Whether the code point `n` counts as the code point `m` in a set of several parts. -/
def isPoint (f : Folding) (m n : Nat) : Bool :=
  if f ≠ .exact && lastBasicPoint < m then f.small n == m else f.meets m m n

/-- Whether the code point `n` counts as one in a range of a set. -/
def isBetween (f : Folding) (first last n : Nat) : Bool :=
  if f ≠ .exact && lastBasicPoint < last then
    let low := f.small n
    let high := Unicode.upper low
    f.meets first lastBasicPoint n || (first ≤ low && low ≤ last) || (first ≤ high && high ≤ last)
  else f.meets first last n

/-- Whether some letter from `first` to `last` has forms that count as one with it. -/
def hasCase (f : Folding) (first last : Nat) : Bool :=
  match f with
  | .exact => false
  | .ascii => (first ≤ 90 && 65 ≤ last) || (first ≤ 122 && 97 ≤ last)
  | .full => Unicode.hasCase first last

/-- Whether a set with the letters from `first` to `last` compares forms of letters. -/
def folds (f : Folding) (first last : Nat) : Bool :=
  f ≠ .exact && (f.hasCase first last || lastBasicPoint < last)

/-- Whether the code point `n` has forms beyond its small and its capital one. -/
def hasSiblings (f : Folding) (n : Nat) : Bool :=
  f = .full && f.hasCase n n && !(Unicode.siblings (f.small n)).isEmpty

end Folding

/-- The named classes of characters. -/
inductive CharClass where
  | digit
  | blank
  | word
  | asciiDigit
  | asciiBlank
  | asciiWord
deriving Repr, DecidableEq

/-- The blank characters below 128, without the separators of information. -/
def isAsciiBlank (c : Char) : Bool :=
  c = ' ' || (9 ≤ c.toNat && c.toNat ≤ 13)

/-- Whether a character is in a class. -/
def CharClass.contains : CharClass → Char → Bool
  | .digit, c => Unicode.isDigit c
  | .blank, c => Text.isBlank c
  | .word, c => Unicode.isWord c
  | .asciiDigit, c => Unicode.isAsciiDigit c
  | .asciiBlank, c => isAsciiBlank c
  | .asciiWord, c => Unicode.isAsciiWord c

/-- A part of a set. -/
inductive SetItem where
  /-- A single code point. -/
  | point (n : Nat)
  /-- The code points from `first` to `last`. -/
  | range (first last : Nat)
  /-- A class, or everything outside it. -/
  | ofClass (name : CharClass) (negated : Bool)
deriving Repr, DecidableEq

namespace SetItem

/-- Whether a character is in a part of a set. -/
def contains (folding : Folding) (c : Char) : SetItem → Bool
  | .point n => folding.isPoint n c.toNat
  | .range first last => folding.isBetween first last c.toNat
  | .ofClass name negated => negated != name.contains c

/-- Whether forms of letters are compared for a part. -/
def folds (folding : Folding) : SetItem → Bool
  | .point n => folding.folds n n
  | .range first last => folding.folds first last
  | .ofClass _ _ => false

end SetItem

/-- A set of characters. -/
structure CharSet where
  items : List SetItem
  negated : Bool
  folding : Folding
deriving Repr, DecidableEq

namespace CharSet

/-- The set of one code point. -/
def point (folding : Folding) (n : Nat) : CharSet := ⟨[.point n], false, folding⟩

/-- The set of all characters. -/
def all : CharSet := ⟨[], true, .exact⟩

/-- The set of all characters but the line feed. -/
def withinLine : CharSet := ⟨[.range 10 10], true, .exact⟩

/-- The code point of a set that has no other part. -/
def point? (s : CharSet) : Option Nat :=
  match s.items with
  | [.point n] => some n
  | _ => none

/-- Whether a character is in a set. -/
def contains (s : CharSet) (c : Char) : Bool :=
  s.negated != match s.point? with
    | some n => s.folding.meets n n c.toNat
    | none => s.items.any (SetItem.contains s.folding c)

/-- Whether a set has parts of its own, other than a single code point. -/
def isComposed (s : CharSet) : Bool :=
  s.point?.isNone && !s.items.isEmpty && s ≠ withinLine

/-- Whether forms of letters are compared for some part of a set. -/
def folds (s : CharSet) : Bool := s.items.any (SetItem.folds s.folding)

/-- The code point of a set that holds it and nothing else. -/
def only? (s : CharSet) : Option Nat :=
  if s.negated then none else s.point?.filter fun n => !s.folding.hasCase n n

/-- Whether the members of a set are told by comparing characters as they are, part by part. -/
def isPlain (s : CharSet) : Bool := s.isComposed && !s.folds

/-- Whether the members of a set are told by comparing forms of letters, part by part. -/
def isFolded (s : CharSet) : Bool :=
  match s.point? with
  | some n => s.folding.hasSiblings n
  | none => s.isComposed && s.folds

/-- The set of one character holds that character alone. -/
theorem contains_point_iff (c d : Char) : (point .exact c.toNat).contains d = true ↔ d = c := by
  constructor
  · intro h
    simp only [contains, point, point?, Folding.meets, Folding.variants, List.any_cons,
      List.any_nil, Bool.or_false, Bool.false_bne, Bool.and_eq_true, decide_eq_true_eq] at h
    exact Char.ext (UInt32.toNat_inj.mp (Nat.le_antisymm h.2 h.1))
  · rintro rfl
    simp [contains, point, point?, Folding.meets, Folding.variants]

end CharSet

end Predictive
