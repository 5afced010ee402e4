import Predictive.Pattern.Basic

/-!
# Matching patterns

`Pattern.run` tries a pattern at a place of a text and hands every way to match it, in the order of
preference, to the rest of the work, until the rest succeeds. `Pattern.matchAt` gives the end of the
preferred match.

What is kept on the way goes on into the next way when one fails. Of the places at which groups were
opened and closed, a failed way leaves those that it has changed inside of repetitions as they were
before, and elsewhere only takes back those that it has added. The place that was reached last
matters to possessive repetitions: each round, and the rest after the last one, begins there, even
when a further round was tried in vain.

A repetition goes on after its least number of rounds only if the last of these further rounds began
elsewhere; this bounds the number of rounds by the length of the text.
-/

set_option autoImplicit false

namespace Predictive

/-- What is kept while a pattern is tried. -/
structure MatchState where
  /-- The place that was reached last. -/
  reached : Nat
  /-- The places at which groups were opened and closed: those of group `n` have the indexes
  `2 * n - 2` and `2 * n - 1`. -/
  marks : List (Option Nat)
deriving Repr, DecidableEq

namespace MatchState

/-- The state before a pattern is tried at a place. -/
def start (place : Nat) : MatchState := ⟨place, []⟩

/-- The state when a place is reached. -/
def reach (s : MatchState) (place : Nat) : MatchState := { s with reached := place }

/-- The marks with a place at an index; those in between that are missing hold none. -/
def setMark (marks : List (Option Nat)) (index place : Nat) : List (Option Nat) :=
  if index < marks.length then marks.set index (some place)
  else marks ++ List.replicate (index - marks.length) none ++ [some place]

/-- Opens a group at a place. -/
def openGroup (s : MatchState) (group place : Nat) : MatchState :=
  { s with marks := setMark s.marks (2 * group - 2) place }

/-- Closes a group at a place. -/
def closeGroup (s : MatchState) (group place : Nat) : MatchState :=
  { s with marks := setMark s.marks (2 * group - 1) place }

/-- The bounds of the piece that a group holds. A group that was opened again and not yet closed
holds nothing, unless it begins where it ended before. -/
def group? (s : MatchState) (group : Nat) : Option (Nat × Nat) :=
  match s.marks[2 * group - 2]?, s.marks[2 * group - 1]? with
  | some (some first), some (some stop) => if stop < first then none else some (first, stop)
  | _, _ => none

/-- The state after a way that failed, when the marks before it are known. -/
def undo (inRepetition : Bool) (marks : List (Option Nat)) (s : MatchState) : MatchState :=
  { s with marks := if inRepetition then marks else s.marks.take marks.length }

end MatchState

/-- The outcome of trying a way. -/
structure Attempt where
  matched : Bool
  state : MatchState
deriving Repr, DecidableEq

namespace Attempt

/-- A way that fails. -/
def failed (s : MatchState) : Attempt := ⟨false, s⟩

/-- A way that succeeds at a place. -/
def succeeded (place : Nat) (s : MatchState) : Attempt := ⟨true, s.reach place⟩

/-- What to do when a way fails. -/
def orElse (a : Attempt) (next : MatchState → Attempt) : Attempt :=
  if a.matched then a else next a.state

end Attempt

/-- What is still to be matched after a pattern, from a place on. -/
abbrev MatchRest := Nat → MatchState → Attempt

/-- A way to match: from a place, with what follows. -/
abbrev MatchStep := Nat → MatchState → MatchRest → Attempt

/-- Whether the character at a place is in a class; outside the text there is none. -/
def CharClass.holdsAt (letters : CharClass) (text : Array Char) (place : Nat) : Bool :=
  match text[place]? with
  | some c => letters.contains c
  | none => false

/-- Whether the characters before and at a place differ in belonging to a class. -/
def CharClass.changesAt (letters : CharClass) (text : Array Char) (place : Nat) : Bool :=
  (place ≠ 0 && letters.holdsAt text (place - 1)) != letters.holdsAt text place

/-- Whether an anchor holds at a place. -/
def Anchor.holds (text : Array Char) (place : Nat) : Anchor → Bool
  | .textStart => place = 0
  | .lineStart => place = 0 || text[place - 1]? = some '\n'
  | .textEnd => place = text.size
  | .finalLineEnd => place = text.size || (place + 1 = text.size && text[place]? = some '\n')
  | .lineEnd => place = text.size || text[place]? = some '\n'
  | .boundary letters => text.size ≠ 0 && letters.changesAt text place
  | .nonBoundary letters => text.size ≠ 0 && !letters.changesAt text place

/-- Whether the character at a place is in a set; outside the text there is none. -/
def CharSet.holdsAt (set : CharSet) (text : Array Char) (place : Nat) : Bool :=
  match text[place]? with
  | some c => set.contains c
  | none => false

/-- The number of characters from a place on that are in a set, up to a bound. -/
def CharSet.countAt (set : CharSet) (text : Array Char) : Nat → Nat → Nat
  | 0, _ => 0
  | bound + 1, place =>
      if set.holdsAt text place then set.countAt text bound (place + 1) + 1 else 0

namespace Pattern

/-! ## Repetitions of one character -/

/-- The place reached by counting characters of a set: only sets that are told by forms of letters
move it. -/
def counted (set : CharSet) (place count : Nat) (s : MatchState) : MatchState :=
  s.reach (if set.isFolded then place + count else place)

/-- Whether the rest cannot begin at a place, since it begins with another character. -/
def cannotBegin (next : Option CharSet) (text : Array Char) (place : Nat) : Bool :=
  match next.bind CharSet.only? with
  | some n => (text[place]?.map Char.toNat) != some n
  | none => false

/-- Tries the rest after so many more characters than `place`, and after fewer ones. -/
def backOff (text : Array Char) (inRepetition : Bool) (next : Option CharSet) (place : Nat)
    (marks : List (Option Nat)) (rest : MatchRest) : Nat → MatchState → Attempt
  | 0, s =>
      if cannotBegin next text place then .failed s
      else
        (rest place (s.reach place)).orElse fun s => .failed (s.undo inRepetition marks)
  | more + 1, s =>
      let here := place + (more + 1)
      if cannotBegin next text here then backOff text inRepetition next place marks rest more s
      else
        (rest here (s.reach here)).orElse fun s =>
          backOff text inRepetition next place marks rest more (s.undo inRepetition marks)

/-- Tries the rest at a place, and then after more characters of a set. -/
def goOn (text : Array Char) (inRepetition : Bool) (set : CharSet) (most : Option Nat)
    (marks : List (Option Nat)) (rest : MatchRest) : Nat → Nat → Nat → MatchState → Attempt
  | 0, _, _, s => .failed s
  | fuel + 1, count, place, s =>
      if most.all (count ≤ ·) then
        (rest place (s.reach place)).orElse fun s =>
          let s := (s.undo inRepetition marks).reach place
          if set.holdsAt text place then
            goOn text inRepetition set most marks rest fuel (count + 1) (place + 1)
              (counted set place 1 s)
          else .failed s
      else .failed s

/-- Matches characters of a set and then the rest. -/
def runSingle (text : Array Char) (inRepetition : Bool) (next : Option CharSet) (least : Nat)
    (most : Option Nat) (mode : RepeatMode) (set : CharSet) : MatchStep := fun place s rest =>
  let room := text.size - place
  if room < least then .failed s
  else
    let bound := match mode with
      | .sparing => least
      | _ => (most.map (min room)).getD room
    let count := set.countAt text bound place
    let s := counted set place count s
    if count < least then .failed s
    else
      match mode with
      | .greedy =>
          backOff text inRepetition next (place + least) s.marks rest (count - least) s
      | .sparing =>
          goOn text inRepetition set most s.marks rest (room + 1) least (place + least) s
      | .possessive => rest (place + count) s

/-! ## Repetitions of patterns -/

/-- Whether the rounds of a repetition may go on: the count is below the bound, and the last further
round, if there was one, began elsewhere. -/
def mayRepeat (most : Option Nat) (count : Nat) (last : Option Nat) (place : Nat) : Bool :=
  most.all (count < ·) && last ≠ some place

/-- Rounds of `step`, as many as the rest allows. -/
def runGreedy (step : MatchStep) (least : Nat) (most : Option Nat) (rest : MatchRest) :
    Nat → Nat → Option Nat → MatchRest
  | 0, _, _, _, s => .failed s
  | fuel + 1, count, last, place, s =>
      let s := s.reach place
      if count < least then
        (step place s (runGreedy step least most rest fuel (count + 1) last)).orElse fun s =>
          .failed (s.reach place)
      else
        let finish (s : MatchState) : Attempt :=
          (rest place s).orElse fun s => .failed (s.reach place)
        if mayRepeat most count last place then
          (step place s (runGreedy step least most rest fuel (count + 1) (some place))).orElse
            fun t => finish ((t.undo true s.marks).reach place)
        else finish s

/-- Rounds of `step`, as few as the rest allows. -/
def runSparing (inRepetition : Bool) (step : MatchStep) (least : Nat) (most : Option Nat)
    (rest : MatchRest) : Nat → Nat → Option Nat → MatchRest
  | 0, _, _, _, s => .failed s
  | fuel + 1, count, last, place, s =>
      let s := s.reach place
      if count < least then
        (step place s (runSparing inRepetition step least most rest fuel (count + 1) last)).orElse
          fun s => .failed (s.reach place)
      else
        (rest place s).orElse fun t =>
          let t := (t.undo inRepetition s.marks).reach place
          if mayRepeat most count last place then
            (step place t
              (runSparing inRepetition step least most rest fuel (count + 1) (some place))).orElse
                fun t => .failed (t.reach place)
          else .failed t

/-- Rounds of `step`, as many as there are. -/
def runPossessive (step : MatchState → Attempt) (least : Nat) (most : Option Nat) (place : Nat) :
    Nat → Nat → Option Nat → MatchState → Attempt
  | 0, _, _, s => .failed s
  | fuel + 1, count, last, s =>
      if count < least then
        let a := step s
        if a.matched then runPossessive step least most place fuel (count + 1) last a.state
        else .failed (a.state.reach place)
      else if mayRepeat most count last s.reached then
        let a := step s
        if a.matched then
          runPossessive step least most place fuel (count + 1) (some s.reached) a.state
        else ⟨true, a.state.undo true s.marks⟩
      else ⟨true, s⟩

/-! ## Patterns -/

/-- The place after a copy of `length` characters from `first` on, if it stands at `place`. -/
def copyAt (text : Array Char) (folding : Folding) (first place : Nat) : Nat → Option Nat
  | 0 => some place
  | length + 1 =>
      match text[first]?, text[place]? with
      | some c, some d =>
          if folding.small c.toNat = folding.small d.toNat then
            copyAt text folding (first + 1) (place + 1) length
          else none
      | _, _ => none

/-- Whether an alternative need not be tried at a place: its first character cannot stand there. -/
def isPassed (text : Array Char) (place : Nat) (p : Pattern) : Bool :=
  match p.lead none with
  | some set => ((set.only?).isSome || set.isPlain) && !set.holdsAt text place
  | none => false

/-- Tries an alternative, and after it another way. -/
def runAlternative (text : Array Char) (inRepetition : Bool) (p : Pattern) (step : MatchStep)
    (place : Nat) (s : MatchState) (rest : MatchRest) (next : MatchState → Attempt) : Attempt :=
  if isPassed text place p then next s
  else (step place (s.reach place) rest).orElse fun t => next (t.undo inRepetition s.marks)

/-- Matches a pattern and then the rest, which begins with a character of the set `next` if there is
one. -/
def run (text : Array Char) : (inRepetition : Bool) → (next : Option CharSet) → Pattern → MatchStep
  | _, _, .empty, place, s, rest => rest place s
  | _, _, .one set, place, s, rest =>
      if set.holdsAt text place then rest (place + 1) s else .failed s
  | _, _, .anchor a, place, s, rest => if a.holds text place then rest place s else .failed s
  | inRepetition, next, .append p q, place, s, rest =>
      run text inRepetition (q.lead next) p place s fun place s =>
        run text inRepetition next q place s rest
  | inRepetition, _, .choice p q, place, s, rest =>
      runAlternative text inRepetition p (run text inRepetition none p) place s rest fun s =>
        match q with
        | .choice _ _ => run text inRepetition none q place s rest
        | _ => runAlternative text inRepetition q (run text inRepetition none q) place s rest
            Attempt.failed
  | inRepetition, next, .scoped p, place, s, rest => run text inRepetition next p place s rest
  | inRepetition, next, .group none p, place, s, rest => run text inRepetition next p place s rest
  | inRepetition, _, .group (some n) p, place, s, rest =>
      run text inRepetition none p place (s.openGroup n place) fun place s =>
        rest place (s.closeGroup n place)
  | inRepetition, next, .repetition least most mode p, place, s, rest =>
      match p.single? with
      | some set => runSingle text inRepetition next least most mode set place s rest
      | none =>
          let fuel := least + text.size + 2
          match mode with
          | .greedy => runGreedy (run text true none p) least most rest fuel 0 none place s
          | .sparing =>
              runSparing inRepetition (run text true none p) least most rest fuel 0 none place s
          | .possessive =>
              let step (s : MatchState) : Attempt :=
                run text inRepetition none p s.reached s Attempt.succeeded
              let a := runPossessive step least most place fuel 0 none (s.reach place)
              if a.matched then rest a.state.reached a.state else a
  | inRepetition, _, .atomic p, place, s, rest =>
      let a := run text inRepetition none p place (s.reach place) Attempt.succeeded
      if a.matched then rest a.state.reached a.state else .failed (a.state.reach place)
  | inRepetition, _, .look behind negated p, place, s, rest =>
      let back := if behind then p.width.least else 0
      if place < back then if negated then rest place s else .failed s
      else
        let a := run text inRepetition none p (place - back) (s.reach (place - back))
          Attempt.succeeded
        if negated then
          if a.matched then .failed a.state
          else rest place (a.state.undo inRepetition s.marks)
        else if a.matched then rest place a.state
        else a
  | _, _, .backreference n folding _, place, s, rest =>
      match s.group? n with
      | none => .failed s
      | some (first, stop) =>
          match copyAt text folding first place (stop - first) with
          | some place => rest place s
          | none => .failed s
  | inRepetition, next, .condition n p q, place, s, rest =>
      if (s.group? n).isSome then
        run text inRepetition (if q = .empty then next else none) p place s rest
      else run text inRepetition next q place s rest

/-- The end of the preferred match of a pattern at a place of a text. -/
def matchAt (p : Pattern) (text : Array Char) (place : Nat) : Option Nat :=
  let a := run text false none p place (.start place) Attempt.succeeded
  if a.matched then some a.state.reached else none

end Pattern

end Predictive
