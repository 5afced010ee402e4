import Predictive.Lexer.Scan
import Predictive.Log
import Predictive.Table.Basic

/-!
# The recognizer

The recognizer follows a parsing table. It keeps a stack of symbols that the tokens still to come
have to match, the start symbol above the end marker at first. A token on top has to be the lookahead
and is passed together with it; any other symbol gives way to the right-hand side that the table
selects. When only the end marker is left to read, what stands above the bottom has to vanish.

`Recognizer.step` makes one move, `Recognizer.run` makes moves until one of them stops, and
`Recognizer.parse` runs on a text. The run is bounded by `Recognizer.moveBound`: between two tokens
no chain of expansions, each at the left end of the one before, can be longer than the number of rows
unless it goes on for ever.
-/

set_option autoImplicit false

namespace Predictive

/-- What a recognizer works with. -/
structure Recognizer where
  grammar : Grammar
  table : ParseTable
  lexer : Lexer

/-- A state of recognition. -/
structure Configuration where
  /-- The lookahead. -/
  token : Token
  /-- The tokens after the lookahead. -/
  rest : List Token
  /-- The symbols to be matched, the next one first. -/
  stack : List Symbol
  /-- The numbers of the productions used so far, the last one first. -/
  used : List Int
deriving Repr, DecidableEq

namespace Configuration

/-- The stack from its bottom to its top. -/
def shownStack (c : Configuration) : List Symbol := c.stack.reverse

/-- The numbers of the productions in the order of their use. -/
def numbers (c : Configuration) : List Int := c.used.reverse

end Configuration

/-- The result of one move. -/
inductive Move where
  | next (c : Configuration)
  /-- Recognition is over: with the productions used, or with a failure. -/
  | stop (outcome : Except Failure (List Int)) (c : Configuration)

namespace Recognizer

/-- The rejection of the lookahead. -/
def unexpected (c : Configuration) (expected : SymbolSet) (stack : List Symbol) : Failure :=
  .rejected ⟨.unexpectedToken, .token c.token, expected, some stack⟩

/-- Expands a symbol, which is off the stack already, by the production that the table selects. -/
def expand (r : Recognizer) (nonterminal : Symbol) (c : Configuration) :
    Except Failure Configuration :=
  match r.table.cell? nonterminal c.token.kind with
  | none =>
      .error (unexpected c (r.table.expected nonterminal) (c.shownStack ++ [nonterminal]))
  | some n =>
      match r.grammar.production? n with
      | none => .error (.missingKey (.key (.int n)))
      | some p =>
          .ok { c with stack := p.content ++ c.stack, used := n :: c.used }

/-- The move that expands a symbol. -/
def expandMove (r : Recognizer) (nonterminal : Symbol) (c : Configuration) : Move :=
  match r.expand nonterminal c with
  | .ok next => .next next
  | .error failure => .stop (.error failure) c

/-- What could come instead of the end, by the symbol on top of the stack. -/
def expectedAtEnd (r : Recognizer) (top : Symbol) : SymbolSet :=
  if top = Symbol.endMarker ∨ r.grammar.isToken top then SymbolSet.singleton top
  else r.table.expected top

/-- The verdict when nothing more can vanish. -/
def finish (r : Recognizer) (c : Configuration) : Except Failure (List Int) :=
  if c.stack = [Symbol.endMarker] ∧ c.token.kind = Symbol.endMarker then .ok c.numbers
  else
    match c.stack with
    | [] => .error .outOfRange
    | top :: _ =>
        .error (.rejected ⟨.unexpectedEnd, .token c.token, r.expectedAtEnd top, some c.shownStack⟩)

/-- Whether a symbol above the bottom can be expanded at the end of the input. -/
def vanishes (r : Recognizer) (top : Symbol) (c : Configuration) : Bool :=
  !r.grammar.isToken top && (r.table.cell? top c.token.kind).isSome

/-- One move. -/
def step (r : Recognizer) (c : Configuration) : Move :=
  match c.rest, c.stack with
  | [], top :: second :: below =>
      if r.vanishes top c then r.expandMove top { c with stack := second :: below }
      else .stop (r.finish c) c
  | [], _ => .stop (r.finish c) c
  | _ :: _, [] => .stop (.error .outOfRange) c
  | token :: rest, top :: below =>
      let popped := { c with stack := below }
      if top = Symbol.endMarker then
        .stop (.error (unexpected c (SymbolSet.singleton top) [top])) popped
      else if r.grammar.isToken top then
        if top = c.token.kind then .next { popped with token := token, rest := rest }
        else
          .stop (.error (unexpected c (SymbolSet.singleton top) (popped.shownStack ++ [top]))) popped
      else r.expandMove top popped

/-- Moves until one of them stops; `fuel` bounds their number. -/
def run (r : Recognizer) : Nat → Configuration → Except Failure (List Int) × Configuration
  | 0, c => (.error .endless, c)
  | fuel + 1, c =>
      match r.step c with
      | .next c => run r fuel c
      | .stop outcome c => (outcome, c)

/-- A run that ends does not change when it may take more moves. -/
theorem run_add (r : Recognizer) {fuel : Nat} (extra : Nat) {c : Configuration}
    (h : (r.run fuel c).1 ≠ .error .endless) : r.run (fuel + extra) c = r.run fuel c := by
  induction fuel generalizing c with
  | zero => exact absurd rfl h
  | succ fuel ih =>
      rw [Nat.succ_add]
      unfold run at h ⊢
      split at h
      · exact ih h
      · rfl

/-- The length of the longest right-hand side. -/
def widest (g : Grammar) : Nat :=
  (g.productionList.map fun p => p.rhs.length).foldl max 0

/-- A bound for the number of moves of a run that ends. -/
def moveBound (r : Recognizer) (c : Configuration) : Nat :=
  let rows := r.table.rows.size
  let width := widest r.grammar
  (c.stack.length + c.rest.length * (rows * width + 1)) * Nat.pow (width + 2) (rows + 1) + 1

/-- Runs from a state to the end. -/
def recognize (r : Recognizer) (c : Configuration) : Except Failure (List Int) × Configuration :=
  r.run (r.moveBound c) c

/-- The stack at the start of a recognition, the next symbol first. -/
def startStack (r : Recognizer) : List Symbol := [r.grammar.start, Symbol.endMarker]

/-- The state at a place of a text, with a stack. -/
def stateAt (r : Recognizer) (text : Array Char) (place : LineCounter) (stack : List Symbol) :
    Configuration :=
  let (token, after) := r.lexer.next text place
  ⟨token, (r.lexer.scanFrom text (text.size + 1) after).map (·.1), stack, []⟩

/-- The place that the lexer has reached in a state, when the run began at a place with a state. -/
def placeIn (r : Recognizer) (text : Array Char) (place : LineCounter) (first c : Configuration) :
    LineCounter :=
  r.lexer.skip text (first.rest.length - c.rest.length + 1) place

/-- Runs on a text from its beginning. -/
def recognizeText (r : Recognizer) (text : String) : Except Failure (List Int) × Configuration :=
  r.recognize (r.stateAt text.toList.toArray .start r.startStack)

/-- The numbers of the productions in the leftmost derivation of a text. -/
def parse (r : Recognizer) (text : String) : Except Failure (List Int) :=
  (r.recognizeText text).1

/-- The details about the state in which a text was rejected. -/
def rejectionLog (result : Except Failure (List Int) × Configuration) : Log :=
  match result.1 with
  | .error (.rejected _) =>
      Log.debug ("Stack dump: " ++ Datum.joinWith " " result.2.shownStack) ++
        Log.debug ("Productions so far: " ++
          Datum.joinWith ", " (result.2.numbers.map Datum.intText))
  | _ => []

end Recognizer

end Predictive
