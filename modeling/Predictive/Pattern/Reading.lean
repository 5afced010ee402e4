import Predictive.Pattern.Fault
import Predictive.Pattern.Flags
import Predictive.Text.WholeNumber
import Predictive.Unicode.Identifier

/-!
# Going through the notation of a pattern

The notation is cut into pieces: a character, or a backslash with the character after it. A reader
takes piece after piece and keeps account of the groups. A backslash at the end of the notation is
noticed as soon as it comes next.
-/

set_option autoImplicit false

namespace Predictive

/-- A piece of the notation of a pattern. -/
inductive PatternPiece where
  | plain (c : Char)
  /-- A backslash with the character after it. -/
  | escape (c : Char)
  /-- A backslash with nothing after it. -/
  | loose
deriving Repr, DecidableEq

namespace PatternPiece

/-- The characters of a piece. -/
def chars : PatternPiece → List Char
  | .plain c => [c]
  | .escape c => ['\\', c]
  | .loose => ['\\']

/-- The number of characters of a piece. -/
def length (p : PatternPiece) : Nat := p.chars.length

/-- The text of a piece. -/
def text (p : PatternPiece) : String := String.ofList p.chars

/-- The character of a piece that is one alone. -/
def plain? : PatternPiece → Option Char
  | .plain c => some c
  | _ => none

/-- The pieces of a notation. -/
def ofChars : List Char → List PatternPiece
  | [] => []
  | ['\\'] => [.loose]
  | '\\' :: c :: cs => .escape c :: ofChars cs
  | c :: cs => .plain c :: ofChars cs

end PatternPiece

/-- How far a pattern is read. -/
structure PatternReading where
  rest : List PatternPiece
  /-- The number of characters before `rest`. -/
  position : Nat
  /-- The flags of the whole pattern. -/
  flags : PatternFlags
  /-- The number of groups that have been opened. -/
  opened : Nat
  /-- The widths of the groups that have been closed. -/
  closed : List (Nat × Width)
  names : List (String × Nat)
  /-- The number of groups opened before the outermost look-behind that is open. -/
  lookBehind : Option Nat
  /-- The groups that conditions refer to by number, each with its first place. -/
  references : List (Nat × Nat)
deriving Repr

/-- A step of reading a pattern. -/
abbrev PatternReader := StateT PatternReading (Except PatternFault)

namespace PatternReader

/-- Fails with a flaw at a position. -/
def failAt {α : Type} (reason : PatternFlaw) (position : Nat) : PatternReader α :=
  throw (.flaw reason (some position))

/-- Fails with a flaw `back` characters before the place that is reached. -/
def fail {α : Type} (reason : PatternFlaw) (back : Nat) : PatternReader α := do
  failAt reason ((← get).position - back)

/-- The next piece, which stays where it is. -/
def peek : PatternReader (Option PatternPiece) := do
  return (← get).rest.head?

/-- The next piece if it is one character. -/
def peekPlain : PatternReader (Option Char) := do
  return (← get).rest.head?.bind PatternPiece.plain?

/-- Fails if a loose backslash comes next. -/
def checkNext : PatternReader Unit := do
  match (← get).rest with
  | .loose :: _ => fail .looseBackslash 0
  | _ => pure ()

/-- Takes the next piece; `none` at the end. -/
def take : PatternReader (Option PatternPiece) := do
  let s ← get
  match s.rest with
  | [] => return none
  | piece :: rest =>
      set { s with rest := rest, position := s.position + piece.length }
      checkNext
      return some piece

/-- Takes the next piece if it is this character, and tells whether it was. -/
def accept (c : Char) : PatternReader Bool := do
  if (← peekPlain) = some c then
    let _ ← take
    return true
  else
    return false

/-- Takes characters of a class, at most `limit` of them. -/
def takeWhile (ok : Char → Bool) : Nat → PatternReader (List Char)
  | 0 => return []
  | limit + 1 => do
      match ← peekPlain with
      | some c =>
          if ok c then
            let _ ← take
            return c :: (← takeWhile ok limit)
          else return []
      | none => return []

/-- The number of pieces that remain. -/
def remaining : PatternReader Nat := do
  return (← get).rest.length

/-- Takes the characters of a name up to its terminator; `fuel` bounds the number of pieces. -/
def takeName (terminator : Char) (what : String) : Nat → List Char → PatternReader (List Char)
  | 0, name => return name
  | fuel + 1, name => do
      match ← take with
      | none =>
          if name.isEmpty then fail (.missing what) 0
          else fail (.unterminatedName terminator) name.length
      | some piece =>
          if piece = .plain terminator then
            if name.isEmpty then fail (.missing what) 1 else return name
          else takeName terminator what fuel (name ++ piece.chars)

/-- Takes a name up to its terminator. -/
def name (terminator : Char) (what : String) : PatternReader (List Char) := do
  takeName terminator what ((← remaining) + 1) []

/-- Takes characters up to and with a line feed. -/
def skipLine : Nat → PatternReader Unit
  | 0 => return ()
  | fuel + 1 => do
      match ← take with
      | none => return ()
      | some piece => if piece = .plain '\n' then return () else skipLine fuel

/-! ## Groups -/

/-- Fails if a name just taken, with its terminator, is no identifier. -/
def checkName (cs : List Char) : PatternReader Unit := do
  if Unicode.isIdentifier cs then return ()
  else fail (.badGroupName (String.ofList cs)) (cs.length + 1)

/-- Opens a group, with a name just taken if it has one. -/
def openGroup (name : Option (List Char)) : PatternReader Nat := do
  let s ← get
  let number := s.opened + 1
  set { s with opened := number }
  match name with
  | none => return number
  | some cs =>
      let label := String.ofList cs
      match s.names.lookup label with
      | some before => fail (.redefinedGroup label number before) (cs.length + 1)
      | none =>
          modify fun s => { s with names := (label, number) :: s.names }
          return number

/-- Closes a group. -/
def closeGroup (number : Nat) (width : Width) : PatternReader Unit :=
  modify fun s => { s with closed := (number, width) :: s.closed }

/-- The width of a group that has been closed. -/
def widthOf? (number : Nat) : PatternReader (Option Width) := do
  return (← get).closed.lookup number

/-- Fails if a group cannot be referred to from inside a look-behind that is open. -/
def checkLookBehind (number : Nat) : PatternReader Unit := do
  match (← get).lookBehind with
  | none => return ()
  | some before =>
      if (← widthOf? number).isNone then fail .openGroup 0
      else if before < number then fail .groupInLookBehind 0
      else return ()

/-- The pattern for what a group has captured; the reference has just been taken and fills `length`
characters. -/
def backreference (folding : Folding) (number length : Nat) : PatternReader Pattern := do
  match ← widthOf? number with
  | none => fail .openGroup length
  | some w =>
      checkLookBehind number
      return .backreference number folding w

/-- Runs a step inside a look-behind. -/
def lookingBehind {α : Type} (step : PatternReader α) : PatternReader α := do
  let outer := (← get).lookBehind
  modify fun s => { s with lookBehind := some (outer.getD s.opened) }
  let result ← step
  modify fun s => { s with lookBehind := outer }
  return result

end PatternReader

end Predictive
