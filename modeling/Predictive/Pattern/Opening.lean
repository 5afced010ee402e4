import Predictive.Pattern.Escape
import Predictive.Unicode.Letter

/-!
# Sets, repetitions and parentheses in patterns

The parts of the notation that hold no patterns themselves: sets in brackets, the marks that repeat
what stands before, and what follows an opening parenthesis and tells its kind.
-/

set_option autoImplicit false

namespace Predictive

namespace PatternReader

/-! ## Sets -/

/-- One end of a range, or a class. -/
def setPart (names : CharacterNames) (scope : PatternFlags) : PatternPiece → PatternReader SetItem
  | .escape c => setEscape names scope c
  | .plain c => return .point c.toNat
  | .loose => fail .looseBackslash 0

/-- The range between two parts that were written as the given pieces. -/
def rangeOf (first last : SetItem) (firstPiece lastPiece : PatternPiece) : PatternReader SetItem := do
  let bad : PatternReader SetItem :=
    fail (.badRange firstPiece.text lastPiece.text) (firstPiece.length + 1 + lastPiece.length)
  match first, last with
  | .point a, .point b => if a ≤ b then return .range a b else bad
  | _, _ => bad

/-- Reads the parts of a set up to its closing bracket; a bracket that comes first is a part. -/
def setItems (names : CharacterNames) (scope : PatternFlags) (start : Nat) :
    Nat → List SetItem → PatternReader (List SetItem)
  | 0, items => return items
  | fuel + 1, items => do
      match ← take with
      | none => failAt .unterminatedSet start
      | some piece =>
          if piece = .plain ']' ∧ !items.isEmpty then return items
          let first ← setPart names scope piece
          if ← accept '-' then
            match ← take with
            | none => failAt .unterminatedSet start
            | some last =>
                if last = .plain ']' then return items ++ [first, .point 45]
                let lastItem ← setPart names scope last
                let item ← rangeOf first lastItem piece last
                setItems names scope start fuel (items ++ [item])
          else setItems names scope start fuel (items ++ [first])

/-- Reads a set after its opening bracket. -/
def charSet (names : CharacterNames) (scope : PatternFlags) : PatternReader Pattern := do
  let start := (← get).position - 1
  let negated ← accept '^'
  let items ← setItems names scope start ((← remaining) + 1) []
  return .one ⟨items.eraseDups, negated, scope.folding⟩

/-! ## Repetitions -/

/-- The largest number of rounds that can be written. -/
def maxRounds : Nat := 4294967294

/-- The bounds in braces, after the opening brace at `start - 1`; `none` if the brace stands for
itself. -/
def braces (start : Nat) : PatternReader (Option (Nat × Option Nat)) := do
  let before ← get
  if (← peekPlain) = some '\x7d' then return none
  let low ← takeWhile Char.isDigit (← remaining)
  let high ← if ← accept ',' then takeWhile Char.isDigit (← remaining) else pure low
  if !(← accept '\x7d') then
    set before
    return none
  let least := digitsValue 10 low
  let most := digitsValue 10 high
  if maxRounds < least ∨ maxRounds < most then throw .hugeRepeat
  if high.isEmpty then return some (least, none)
  if most < least then failAt .fewerThanLeast start
  return some (least, some most)

/-- The repetition of the last item, with the bounds that were written from `start` on. -/
def repeatLast (start least : Nat) (most : Option Nat) :
    List Pattern → PatternReader (List Pattern)
  | [] => failAt .nothingToRepeat start
  | .anchor _ :: _ => failAt .nothingToRepeat start
  | .repetition .. :: _ => failAt .repeatedRepeat start
  | item :: items => do
      let item := Pattern.sequence item.opened
      if ← accept '?' then return .repetition least most .sparing item :: items
      if ← accept '+' then return .repetition least most .possessive item :: items
      return .repetition least most .greedy item :: items

/-- Reads a repetition after its mark; `items` are the items before it, the last one first. -/
def repetition (folding : Folding) (mark : Char) (items : List Pattern) :
    PatternReader (List Pattern) := do
  let here := (← get).position
  match mark with
  | '?' => repeatLast (here - 1) 0 (some 1) items
  | '*' => repeatLast (here - 1) 0 none items
  | '+' => repeatLast (here - 1) 1 none items
  | _ =>
      match ← braces here with
      | some (least, most) => repeatLast (here - 1) least most items
      | none => return .one (.point folding mark.toNat) :: items

/-! ## Flags in parentheses -/

/-- Takes the character that follows a flag; the message tells what may follow. -/
def flagEnd (what : String) : PatternReader PatternPiece := do
  match ← take with
  | none => fail (.missing what) 0
  | some piece => return piece

/-- Fails at a piece that is no flag where one, or an end, is expected. -/
def noFlag {α : Type} (what : String) (piece : PatternPiece) : PatternReader α :=
  match piece.plain? with
  | some c =>
      if Unicode.isLetter c then fail .unknownFlag 1 else fail (.missing what) 1
  | none => fail (.missing what) piece.length

/-- Reads the flags that are turned on, from a flag on; gives them with the character that ends
them. -/
def flagsOn : Nat → PatternFlag → PatternFlags → PatternReader (PatternFlags × Char)
  | 0, _, on => return (on, ')')
  | fuel + 1, flag, on => do
      if flag = .locale then fail .localeFlag 0
      let on := on ++ [flag]
      if flag.isAlphabet ∧ on.any fun f => f.isAlphabet && f ≠ flag then fail .conflictingFlags 0
      let piece ← flagEnd "-, : or )"
      match piece with
      | .plain ')' => return (on, ')')
      | .plain '-' => return (on, '-')
      | .plain ':' => return (on, ':')
      | _ =>
          match piece.plain?.bind PatternFlag.ofLetter? with
          | some next => flagsOn fuel next on
          | none => noFlag "-, : or )" piece

/-- Reads the flags that are turned off, from a flag on, up to the colon. -/
def flagsOff : Nat → PatternFlag → PatternFlags → PatternReader PatternFlags
  | 0, _, off => return off
  | fuel + 1, flag, off => do
      if flag.isAlphabet then fail .alphabetFlagOff 0
      let off := off ++ [flag]
      let piece ← flagEnd ":"
      if piece = .plain ':' then return off
      match piece.plain?.bind PatternFlag.ofLetter? with
      | some next => flagsOff fuel next off
      | none => noFlag ":" piece

/-- Reads flags in parentheses from their first character on: those turned on and off for a part, or
those turned on for the whole pattern. -/
def flagGroup (first : Char) : PatternReader (PatternFlags × Option PatternFlags) := do
  let fuel := (← remaining) + 1
  let (on, ending) ←
    match PatternFlag.ofLetter? first with
    | some flag => flagsOn fuel flag []
    | none => pure ([], '-')
  if ending = ')' then return (on, none)
  if on.contains .template then fail (.globalFlag true) 1
  let off ←
    if ending = '-' then
      let piece ← flagEnd "flag"
      match piece.plain?.bind PatternFlag.ofLetter? with
      | some flag => flagsOff fuel flag []
      | none => noFlag "flag" piece
    else pure []
  if off.contains .template then fail (.globalFlag false) 1
  if on.any off.contains then fail .flagOnAndOff 1
  return (on, some off)

/-! ## Parentheses -/

/-- What an opening parenthesis begins. -/
inductive Opening where
  | comment
  /-- Flags for the whole pattern. -/
  | flags (on : PatternFlags)
  /-- A pattern that has no parts. -/
  | closed (p : Pattern)
  /-- A part that is captured if it has a number. -/
  | part (number : Option Nat)
  /-- A part under its own flags. -/
  | scoped (scope : PatternFlags)
  | atomic
  | look (behind negated : Bool)
  | condition (number : Nat)

/-- Skips a comment up to its closing parenthesis; it began at `start`. -/
def skipComment (start : Nat) : Nat → PatternReader Unit
  | 0 => return ()
  | fuel + 1 => do
      match ← take with
      | none => failAt .unterminatedComment start
      | some piece => if piece = .plain ')' then return () else skipComment start fuel

/-- The group of which a condition gives the name or the number. -/
def conditionGroup : PatternReader Nat := do
  let cs ← name ')' "group name"
  let label := String.ofList cs
  if Unicode.isIdentifier cs then
    match (← get).names.lookup label with
    | some number => return number
    | none => fail (.unknownGroupName label) (cs.length + 1)
  else
    match Text.wholeNumber? cs with
    | none => fail (.badGroupName label) (cs.length + 1)
    | some n =>
        if n < 0 then fail (.badGroupName label) (cs.length + 1)
        let number := n.toNat
        if number = 0 then fail .groupZero (cs.length + 1)
        if 1073741823 ≤ number then fail (.noSuchGroup number) (cs.length + 1)
        let place := (← get).position - cs.length - 1
        if ((← get).references.lookup number).isNone then
          modify fun s => { s with references := s.references ++ [(number, place)] }
        return number

/-- What begins with the letter for named groups. -/
def namedOpening (folding : Folding) : PatternReader Opening := do
  if ← accept '<' then
    let cs ← name '>' "group name"
    checkName cs
    return .part (some (← openGroup (some cs)))
  if ← accept '=' then
    let cs ← name ')' "group name"
    checkName cs
    match (← get).names.lookup (String.ofList cs) with
    | none => fail (.unknownGroupName (String.ofList cs)) (cs.length + 1)
    | some number => return .closed (← backreference folding number (cs.length + 1))
  match ← take with
  | none => fail .unexpectedEnd 0
  | some piece => fail (.unknownExtension ("P" ++ piece.text)) (piece.length + 2)

/-- What begins with the sign for looking back. -/
def backwardOpening : PatternReader Opening := do
  match ← take with
  | none => fail .unexpectedEnd 0
  | some (.plain '=') => return .look true false
  | some (.plain '!') => return .look true true
  | some piece => fail (.unknownExtension ("<" ++ piece.text)) (piece.length + 2)

/-- Reads what follows an opening parenthesis at `start` and tells its kind. -/
def opening (scope : PatternFlags) (start : Nat) : PatternReader Opening := do
  if !(← accept '?') then return .part (some (← openGroup none))
  match ← take with
  | none => fail .unexpectedEnd 0
  | some piece =>
      let unknown : PatternReader Opening :=
        fail (.unknownExtension piece.text) (piece.length + 1)
      match piece with
      | .plain c =>
          match c with
          | 'P' => namedOpening scope.folding
          | ':' => return .part none
          | '#' =>
              skipComment start ((← remaining) + 1)
              return .comment
          | '=' => return .look false false
          | '!' => return .look false true
          | '<' => backwardOpening
          | '(' => return .condition (← conditionGroup)
          | '>' => return .atomic
          | _ =>
              if c = '-' ∨ (PatternFlag.ofLetter? c).isSome then
                match ← flagGroup c with
                | (on, none) => return .flags on
                | (on, some off) => return .scoped (scope.within on off)
              else unknown
      | _ => unknown

end PatternReader

end Predictive
