import Predictive.Recognizer.Basic
import Predictive.Unchecked.Lexer
import Predictive.Unchecked.Table

/-!
# Recognition with unchecked grammars and tables

The moves are those of a recognizer. A move that meets a value of the wrong kind fails, and tokens
are taken one by one, since a lexer may fail too. A rejection is told in words only if the symbols
that it names are texts.
-/

set_option autoImplicit false

namespace Predictive.Unchecked

/-- What a recognizer works with. -/
structure Recognizer where
  grammar : Grammar
  table : Datum
  lexer : Lexer

/-- A state of recognition. -/
structure Configuration where
  /-- The lookahead. -/
  token : KindedToken
  /-- The place after the lookahead. -/
  place : LineCounter
  /-- The symbols to be matched, the next one first. -/
  stack : List Datum
  /-- The numbers of the productions used so far, the last one first. -/
  used : List Datum

/-- The result of one move. -/
inductive Move where
  | next (c : Configuration)
  | stop (outcome : Except Failure (List Datum)) (c : Configuration)

namespace Recognizer

/-- The failure of a rejection, with the stack from its bottom to its top. -/
def rejection (cause : RejectionCause) (token : KindedToken) (expected stack : List Datum) :
    Failure :=
  match orderedTexts expected with
  | .error _ => .untold
  | .ok texts =>
      let r : Rejection :=
        ⟨cause, .token token.2, SymbolSet.ofList texts, some (stack.map Datum.display)⟩
      match token.1, Datum.texts? stack with
      | .text _, some _ => .rejected r
      | kind, some _ => .oddlyRejected r kind stack
      | kind, none =>
          match cause with
          | .unexpectedToken => .oddlyRejected r kind stack
          | .unexpectedEnd => .untold

/-- Expands a symbol, which is off the stack already, by the production that the table selects. -/
def expand (r : Recognizer) (nonterminal : Datum) (c : Configuration) :
    Except Failure Configuration := do
  match ← Table.cell? r.table nonterminal c.token.1 with
  | none =>
      let expected ← Table.expected r.table nonterminal
      .error (rejection .unexpectedToken c.token expected (c.stack.reverse ++ [nonterminal]))
  | some number =>
      let p ← item r.grammar.productions number
      let content := visible (← rhsOf p)
      .ok { c with stack := content ++ c.stack, used := number :: c.used }

/-- What could come instead of the end, by the symbol on top of the stack. -/
def expectedAtEnd (r : Recognizer) (top : Datum) : Except Failure (List Datum) := do
  if top == endMarker then .ok [top]
  else if ← r.grammar.isToken top then addSymbol [] top
  else Table.expected r.table top

/-- The verdict when nothing more can vanish. -/
def finish (r : Recognizer) (c : Configuration) : Except Failure (List Datum) := do
  if Datum.sameItems c.stack [endMarker] && c.token.1 == endMarker then .ok c.used.reverse
  else
    match c.stack with
    | [] => .error .outOfRange
    | top :: _ =>
        let expected ← r.expectedAtEnd top
        .error (rejection .unexpectedEnd c.token expected c.stack.reverse)

/-- Whether a symbol above the bottom can be expanded at the end of the input. -/
def vanishes (r : Recognizer) (top : Datum) (c : Configuration) : Except Failure Bool := do
  if ← r.grammar.isToken top then .ok false
  else
    let found ← Table.cell? r.table top c.token.1
    .ok found.isSome

/-- The move to the outcome of a step, or its failure. -/
def moveTo (c : Configuration) : Except Failure Configuration → Move
  | .ok next => .next next
  | .error failure => .stop (.error failure) c

/-- The move of a symbol that is off the stack, while the input is not over. -/
def advance (r : Recognizer) (text : Array Char) (top : Datum) (c : Configuration) :
    Except Failure Configuration := do
  if top == endMarker then
    .error (rejection .unexpectedToken c.token [endMarker] [endMarker])
  else if ← r.grammar.isToken top then
    if top == c.token.1 then
      let (token, place) ← r.lexer.next text c.place
      .ok { c with token := token, place := place }
    else
      let expected ← addSymbol [] top
      .error (rejection .unexpectedToken c.token expected (c.stack.reverse ++ [top]))
  else r.expand top c

/-- One move. -/
def step (r : Recognizer) (text : Array Char) (c : Configuration) : Move :=
  if Predictive.Lexer.isDone text c.place then
    match c.stack with
    | top :: second :: below =>
        match r.vanishes top c with
        | .error failure => .stop (.error failure) c
        | .ok true =>
            let popped := { c with stack := second :: below }
            moveTo popped (r.expand top popped)
        | .ok false => .stop (r.finish c) c
    | _ => .stop (r.finish c) c
  else
    match c.stack with
    | [] => .stop (.error .outOfRange) c
    | top :: below =>
        let popped := { c with stack := below }
        moveTo popped (r.advance text top popped)

/-- Moves until one of them stops; `fuel` bounds their number. -/
def run (r : Recognizer) (text : Array Char) :
    Nat → Configuration → Except Failure (List Datum) × Configuration
  | 0, c => (.error .endless, c)
  | fuel + 1, c =>
      match r.step text c with
      | .next c => run r text fuel c
      | .stop outcome c => (outcome, c)

/-- The length of the longest right-hand side. -/
def widest (g : Grammar) : Nat :=
  match g.productionList with
  | .ok productions => (productions.map fun p => (Analysis.symbolsOf p).length).foldl max 0
  | .error _ => 0

/-- The number of rows of a table. -/
def rowCount (table : Datum) : Nat :=
  match entries table with
  | .ok es => es.length
  | .error _ => 0

/-- A bound for the number of moves of a run that ends. -/
def moveBound (r : Recognizer) (text : Array Char) (c : Configuration) : Nat :=
  let rows := rowCount r.table
  let width := widest r.grammar
  (c.stack.length + (text.size + 2) * (rows * width + 1)) * Nat.pow (width + 2) (rows + 1) + 1

/-- The stack at the start of a recognition, the next symbol first. -/
def startStack (r : Recognizer) : List Datum := [r.grammar.start, endMarker]

/-- Runs from a place of a text, with a stack. -/
def recognizeFrom (r : Recognizer) (text : Array Char) (place : LineCounter) (stack : List Datum) :
    Except Failure (List Datum) × Configuration :=
  match r.lexer.next text place with
  | .error failure => (.error failure, ⟨(endMarker, .ofKind "" ""), place, stack, []⟩)
  | .ok (token, after) =>
      let c : Configuration := ⟨token, after, stack, []⟩
      r.run text (r.moveBound text c) c

/-- The outcome of a recognition under tracing, with what is logged: the state in which a text was
rejected. -/
def traced (result : Except Failure (List Datum) × Configuration) :
    Except Failure (List Datum) × Log :=
  let dump (failure : Failure) : Except Failure (List Datum) × Log :=
    match joined " " result.2.stack.reverse with
    | .error e => (.error e, [])
    | .ok stack => (.error failure,
        Log.debug ("Stack dump: " ++ stack) ++
          Log.debug ("Productions so far: " ++
            Datum.joinWith ", " (result.2.used.reverse.map Datum.display)))
  match result.1 with
  | .error (.rejected r) => dump (.rejected r)
  | .error (.oddlyRejected r kind stack) => dump (.oddlyRejected r kind stack)
  | .error .untold => dump .untold
  | outcome => (outcome, [])

end Recognizer

end Predictive.Unchecked
