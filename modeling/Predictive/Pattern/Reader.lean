import Predictive.Pattern.Opening

/-!
# Reading patterns

The notation of patterns as a whole: alternatives, and items after each other in them, some with
patterns inside parentheses. `Pattern.read` reads a notation. Two faults show only when all of it is
read: a part that looks back and has no fixed length, and a repetition where none is allowed.
-/

set_option autoImplicit false

namespace Predictive

namespace PatternReader

/-- Takes the parenthesis that closes what began at `start`. -/
def closing (start : Nat) : PatternReader Unit := do
  if !(← accept ')') then failAt .unterminatedGroup start

/-- Whether a character is skipped in patterns with comments. -/
def isSkipped (c : Char) : Bool := isAsciiBlank c

/-- Reads an item that holds no other ones, from its first piece on; `none` for an opening
parenthesis. -/
def simpleItem (names : CharacterNames) (scope : PatternFlags) (piece : PatternPiece)
    (items : List Pattern) : PatternReader (Option (List Pattern)) := do
  match piece with
  | .loose => fail .looseBackslash 0
  | .escape c => return some ((← escape names scope c) :: items)
  | .plain c =>
      match c with
      | '(' => return none
      | '[' => return some ((← charSet names scope) :: items)
      | '.' => return some (.one scope.dot :: items)
      | '^' => return some (.anchor scope.lineStart :: items)
      | '$' => return some (.anchor scope.lineEnd :: items)
      | _ =>
          if c = '?' ∨ c = '*' ∨ c = '+' ∨ c = '\x7b' then
            return some (← repetition scope.folding c items)
          else return some (.one (.point scope.folding c.toNat) :: items)

/-- The flags of a further alternative: at the top of a pattern they are those of the whole. -/
def alternativeScope (top : Bool) (scope : PatternFlags) : PatternReader PatternFlags := do
  if top then return (← get).flags else return scope

/-- The items of an alternative that is read, when they were gathered with the last one first. -/
def settled (items : List Pattern) : List Pattern := items.reverse.flatMap Pattern.opened

mutual

/-- Reads alternatives. At the top of a pattern the flags may still change in the first one. -/
def readAlternatives (names : CharacterNames) :
    Nat → (top : Bool) → PatternFlags → PatternReader Pattern
  | 0, _, _ => return .empty
  | fuel + 1, top, scope => do
      let items ← readItems names fuel top scope []
      if ← accept '|' then
        let scope ← alternativeScope top scope
        let others ← readFurther names fuel top scope
        return Pattern.alternatives (settled items :: others)
      else return Pattern.sequence (settled items)

/-- Reads the alternatives after the first one. -/
def readFurther (names : CharacterNames) :
    Nat → (top : Bool) → PatternFlags → PatternReader (List (List Pattern))
  | 0, _, _ => return []
  | fuel + 1, top, scope => do
      let items ← readItems names fuel false scope []
      if ← accept '|' then
        let scope ← alternativeScope top scope
        return settled items :: (← readFurther names fuel top scope)
      else return [settled items]

/-- Reads items up to the end of an alternative; `items` are those before, the last one first. -/
def readItems (names : CharacterNames) :
    Nat → (mayFlag : Bool) → PatternFlags → List Pattern → PatternReader (List Pattern)
  | 0, _, _, items => return items
  | fuel + 1, mayFlag, scope, items => do
      match ← peek with
      | none => return items
      | some piece =>
          if piece = .plain '|' ∨ piece = .plain ')' then return items
          let _ ← take
          if scope.contains .verbose ∧ (piece.plain?.map isSkipped).getD false then
            readItems names fuel mayFlag scope items
          else if scope.contains .verbose ∧ piece = .plain '#' then
            skipLine ((← remaining) + 1)
            readItems names fuel mayFlag scope items
          else
            match ← simpleItem names scope piece items with
            | some items => readItems names fuel mayFlag scope items
            | none => do
                let start := (← get).position - 1
                match ← opening scope start with
                | .comment => readItems names fuel mayFlag scope items
                | .flags on =>
                    if mayFlag ∧ items.isEmpty then
                      modify fun s => { s with flags := s.flags ++ on }
                      readItems names fuel mayFlag (← get).flags items
                    else failAt .lateFlags start
                | .closed p => readItems names fuel mayFlag scope (p :: items)
                | o =>
                    let p ← readPart names fuel scope start o
                    readItems names fuel mayFlag scope (p :: items)

/-- Reads the inside of parentheses of which the kind is known, and the closing one. -/
def readPart (names : CharacterNames) :
    Nat → PatternFlags → (start : Nat) → Opening → PatternReader Pattern
  | 0, _, _, _ => return .empty
  | fuel + 1, scope, start, o =>
      match o with
      | .part number => do
          let p ← readAlternatives names fuel false scope
          closing start
          if let some n := number then closeGroup n p.width
          return .group number p
      | .scoped inner => do
          let p ← readAlternatives names fuel false inner
          closing start
          return .scoped p
      | .atomic => do
          let p ← readAlternatives names fuel false scope
          closing start
          return .atomic p
      | .look behind negated => do
          let inside := readAlternatives names fuel false scope
          let p ← if behind then lookingBehind inside else inside
          closing start
          return .look behind negated p
      | .condition number => do
          checkLookBehind number
          let yes ← readItems names fuel false scope []
          let no ←
            if ← accept '|' then
              let no ← readItems names fuel false scope []
              if (← peekPlain) = some '|' then fail .tooManyBranches 0
              pure no
            else pure []
          closing start
          return .condition number (Pattern.sequence (settled yes)) (Pattern.sequence (settled no))
      | _ => return .empty

end

end PatternReader

namespace Pattern

/-- The largest distance that a part may look back. -/
def maxLookBehind : Nat := 4294967295

/-- The first flaw, from left to right, that shows only in a pattern as a whole. -/
def flaw? (template : Bool) : Pattern → Option PatternFlaw
  | .append p q => (p.flaw? template).or (q.flaw? template)
  | .choice p q => (p.flaw? template).or (q.flaw? template)
  | .condition _ p q => (p.flaw? template).or (q.flaw? template)
  | .group _ p => p.flaw? template
  | .scoped p => p.flaw? template
  | .atomic p => p.flaw? template
  | .repetition _ _ mode p =>
      if template then some (.repetitionInTemplate mode) else p.flaw? template
  | .look behind _ p =>
      if behind ∧ maxLookBehind < p.width.least then some .wideLookBehind
      else if behind ∧ p.width.most ≠ some p.width.least then some .looseLookBehind
      else p.flaw? template
  | _ => none

/-- The state before the first piece of a notation. -/
def startReading (flags : PatternFlags) (written : List Char) : PatternReading :=
  ⟨PatternPiece.ofChars written, 0, flags, 0, [], [], none, []⟩

/-- Reads a notation to its end and checks the pattern as a whole. -/
def reader (names : CharacterNames) (flags : PatternFlags) : PatternReader Pattern := do
  PatternReader.checkNext
  let p ← PatternReader.readAlternatives names (4 * (← PatternReader.remaining) + 4) true flags
  let s ← get
  if !s.flags.consistent then throw .badFlags
  if !s.rest.isEmpty then PatternReader.fail .unbalanced 0
  if let some (number, place) := s.references.find? fun r => s.opened < r.1 then
    PatternReader.failAt (.noSuchGroup number) place
  match p.flaw? (s.flags.contains .template) with
  | some reason => throw (.flaw reason none)
  | none => return p

/-- The pattern that a notation describes under flags. -/
def read (names : CharacterNames) (flags : PatternFlags) (written : List Char) :
    Except PatternFault Pattern :=
  (reader names flags).run' (startReading flags written)

end Pattern

end Predictive
