import Predictive.Pattern.Basic

/-!
# Flags of patterns

Flags change the meaning of a pattern or of a part of it. They come as the bits of an integer and as
letters inside the pattern. Exactly one alphabet is in force: all of Unicode, unless the flag for the
characters below 128 is set.
-/

set_option autoImplicit false

namespace Predictive

/-- A flag of a pattern. -/
inductive PatternFlag where
  /-- The pattern may not repeat anything. -/
  | template
  | ignoreCase
  /-- Letters are those of the locale, which texts do not have. -/
  | locale
  /-- Anchors of lines hold at every line. -/
  | multiline
  /-- The dot stands for line feeds too. -/
  | dotAll
  | unicode
  /-- Blanks and comments inside the pattern do not count. -/
  | verbose
  | ascii
deriving Repr, DecidableEq

/-- The flags that are set. -/
abbrev PatternFlags := List PatternFlag

namespace PatternFlag

/-- The flags with their places among the bits of an integer. -/
def places : List (PatternFlag × Nat) :=
  [(template, 0), (ignoreCase, 1), (locale, 2), (multiline, 3), (dotAll, 4), (unicode, 5),
    (verbose, 6), (ascii, 8)]

/-- The flag that a letter stands for. -/
def ofLetter? : Char → Option PatternFlag
  | 'i' => some ignoreCase
  | 'L' => some locale
  | 'm' => some multiline
  | 's' => some dotAll
  | 'x' => some verbose
  | 'a' => some ascii
  | 't' => some template
  | 'u' => some unicode
  | _ => none

/-- Whether a flag chooses an alphabet. -/
def isAlphabet (f : PatternFlag) : Bool :=
  f == ascii || f == locale || f == unicode

end PatternFlag

namespace PatternFlags

/-- Whether the bit at a place of an integer is set; negative integers have bits without end. -/
def hasBit (n : Int) (place : Nat) : Bool :=
  (n >>> place) % 2 = 1

/-- The flags of an integer; other bits of it mean nothing. -/
def ofInt (n : Int) : PatternFlags :=
  PatternFlag.places.filterMap fun f => if hasBit n f.2 then some f.1 else none

/-- Whether an integer can be handed on as flags: it has 32 bits, one of them for the sign. -/
def fits (n : Int) : Bool := -2147483648 ≤ n && n ≤ 2147483647

/-- The flags inside a part that turns some on and some off. A new alphabet takes the place of the
one before. -/
def within (flags on off : PatternFlags) : PatternFlags :=
  let kept := if on.any PatternFlag.isAlphabet then
      flags.filter fun f => !f.isAlphabet
    else flags
  (kept ++ on).filter fun f => !off.contains f

/-- Whether the flags go together in a pattern for texts. -/
def consistent (flags : PatternFlags) : Bool :=
  !flags.contains .locale && !(flags.contains .ascii && flags.contains .unicode)

/-- The folding under the flags. -/
def folding (flags : PatternFlags) : Folding :=
  if flags.contains .ignoreCase then
    if flags.contains .ascii then .ascii else .full
  else .exact

/-- The class of digits under the flags. -/
def digits (flags : PatternFlags) : CharClass :=
  if flags.contains .ascii then .asciiDigit else .digit

/-- The class of blanks under the flags. -/
def blanks (flags : PatternFlags) : CharClass :=
  if flags.contains .ascii then .asciiBlank else .blank

/-- The class of word characters under the flags. -/
def words (flags : PatternFlags) : CharClass :=
  if flags.contains .ascii then .asciiWord else .word

/-- What the dot stands for under the flags. -/
def dot (flags : PatternFlags) : CharSet :=
  if flags.contains .dotAll then .all else .withinLine

/-- The anchor for the start of a line under the flags. -/
def lineStart (flags : PatternFlags) : Anchor :=
  if flags.contains .multiline then .lineStart else .textStart

/-- The anchor for the end of a line under the flags. -/
def lineEnd (flags : PatternFlags) : Anchor :=
  if flags.contains .multiline then .lineEnd else .finalLineEnd

end PatternFlags

end Predictive
