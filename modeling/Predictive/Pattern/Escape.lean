import Predictive.Pattern.Reading

/-!
# Escapes in patterns

What a backslash with a character stands for, inside sets and outside of them. The two differ in the
anchors, in the backspace and in the digits, which outside of sets refer to groups. Which characters
go by a name is left to a parameter.
-/

set_option autoImplicit false

namespace Predictive

/-- The characters that go by names. -/
abbrev CharacterNames := String → Option Char

namespace PatternReader

/-- The value of a hexadecimal digit below 128. -/
def hexValue? (c : Char) : Option Nat :=
  if '0' ≤ c ∧ c ≤ '9' then some (c.toNat - 48)
  else if 'a' ≤ c ∧ c ≤ 'f' then some (c.toNat - 87)
  else if 'A' ≤ c ∧ c ≤ 'F' then some (c.toNat - 55)
  else none

/-- The number that digits write in a base. -/
def digitsValue (base : Nat) (cs : List Char) : Nat :=
  cs.foldl (fun n c => base * n + (hexValue? c).getD 0) 0

/-- Whether a character is an octal digit. -/
def isOctal (c : Char) : Bool := '0' ≤ c && c ≤ '7'

/-- The text of an escape with the characters that follow it. -/
def escapeText (c : Char) (more : List Char) : String := String.ofList ('\\' :: c :: more)

/-- The control character of a letter. -/
def control? : Char → Option Nat
  | 'a' => some 7
  | 'f' => some 12
  | 'n' => some 10
  | 'r' => some 13
  | 't' => some 9
  | 'v' => some 11
  | '\\' => some 92
  | _ => none

/-- The class of a letter. -/
def classOf? (scope : PatternFlags) : Char → Option SetItem
  | 'd' => some (.ofClass scope.digits false)
  | 'D' => some (.ofClass scope.digits true)
  | 's' => some (.ofClass scope.blanks false)
  | 'S' => some (.ofClass scope.blanks true)
  | 'w' => some (.ofClass scope.words false)
  | 'W' => some (.ofClass scope.words true)
  | _ => none

/-- The anchor of a letter. -/
def anchorOf? (scope : PatternFlags) : Char → Option Anchor
  | 'A' => some .textStart
  | 'Z' => some .textEnd
  | 'b' => some (.boundary scope.words)
  | 'B' => some (.nonBoundary scope.words)
  | _ => none

/-- Reads exactly `count` hexadecimal digits after an escape. -/
def hexEscape (c : Char) (count : Nat) : PatternReader Nat := do
  let digits ← takeWhile (fun c => (hexValue? c).isSome) count
  if digits.length = count then
    let n := digitsValue 16 digits
    if n ≤ 0x10FFFF then return n else fail (.badEscape (escapeText c digits)) (2 + count)
  else fail (.incompleteEscape (escapeText c digits)) (2 + digits.length)

/-- Reads the name of a character. -/
def namedEscape (names : CharacterNames) : PatternReader Nat := do
  if ← accept '\x7b' then
    let cs ← name '\x7d' "character name"
    match names (String.ofList cs) with
    | some c => return c.toNat
    | none => fail (.unknownCharacterName (String.ofList cs)) (cs.length + 4)
  else fail (.missing "\x7b") 0

/-- The code point of an escape that is written by its number or its name. -/
def codeEscape? (names : CharacterNames) (c : Char) : PatternReader (Option Nat) := do
  match c with
  | 'x' => return some (← hexEscape c 2)
  | 'u' => return some (← hexEscape c 4)
  | 'U' => return some (← hexEscape c 8)
  | 'N' => return some (← namedEscape names)
  | _ => return none

/-- The part of a set that an escape stands for. -/
def setEscape (names : CharacterNames) (scope : PatternFlags) (c : Char) : PatternReader SetItem := do
  let point (n : Nat) : SetItem := .point n
  if c = 'b' then return point 8
  else if let some n := control? c then return point n
  else if let some item := classOf? scope c then return item
  else
    match ← codeEscape? names c with
    | some n => return point n
    | none =>
        if isOctal c then
          let more ← takeWhile isOctal 2
          let n := digitsValue 8 (c :: more)
          if n ≤ 0xFF then return point n
          else fail (.octalTooLarge (escapeText c more)) (2 + more.length)
        else if c.isDigit ∨ c.isAlpha then fail (.badEscape (escapeText c [])) 2
        else return point c.toNat

/-- The reference, or the octal number, that begins with a digit other than zero. -/
def digitEscape (folding : Folding) (c : Char) : PatternReader Pattern := do
  let second ← takeWhile Char.isDigit 1
  let octal := second.length = 1 ∧ isOctal c ∧ second.all isOctal
  let third ← takeWhile isOctal (if octal then 1 else 0)
  let digits := c :: second ++ third
  if third.length = 1 then
    let n := digitsValue 8 digits
    if n ≤ 0xFF then return .one (.point folding n)
    else fail (.octalTooLarge (escapeText c (second ++ third))) (1 + digits.length)
  else
    let number := digitsValue 10 digits
    if number ≤ (← get).opened then backreference folding number (1 + digits.length)
    else fail (.noSuchGroup number) digits.length

/-- The pattern that an escape outside of sets stands for. -/
def escape (names : CharacterNames) (scope : PatternFlags) (c : Char) : PatternReader Pattern := do
  let folding := scope.folding
  let point (n : Nat) : Pattern := .one (.point folding n)
  if let some a := anchorOf? scope c then return .anchor a
  else if let some item := classOf? scope c then return .one ⟨[item], false, folding⟩
  else if let some n := control? c then return point n
  else
    match ← codeEscape? names c with
    | some n => return point n
    | none =>
        if c = '0' then return point (digitsValue 8 (← takeWhile isOctal 2))
        else if c.isDigit then digitEscape folding c
        else if c.isAlpha then fail (.badEscape (escapeText c [])) 2
        else return point c.toNat

end PatternReader

end Predictive
