import Predictive.LineCounter
import Predictive.Lexer.Basic
import Predictive.Text.Blank
import Predictive.Token

/-!
# Scanning

A scan goes through a text token by token. Blanks before a token are skipped. A token comes from the
first rule with a match; a character that no rule matches is a token of its own. The token of the end
marker comes when nothing but blanks remains, and again and again if more tokens are asked for.

The marker stands right after the text, at a place of its own, and the scan is done when it has gone
beyond that place.
-/

set_option autoImplicit false

namespace Predictive.Lexer

/-- The characters of a text from one place up to another. -/
def piece (text : Array Char) (first stop : Nat) : List Char :=
  (text.extract first stop).toList

/-- The end of the run of blanks at a place; `fuel` bounds its length. -/
def blankEnd (text : Array Char) : Nat → Nat → Nat
  | 0, place => place
  | fuel + 1, place =>
      match text[place]? with
      | some c => if Text.isBlank c then blankEnd text fuel (place + 1) else place
      | none => place

/-- The place after the blanks that come next. -/
def skipBlanks (text : Array Char) (place : LineCounter) : LineCounter :=
  place.feed (piece text place.position (blankEnd text text.size place.position)) true

/-- The token of a kind at a place. -/
def tokenAt (kind : Symbol) (value : String) (place : LineCounter) : Token :=
  ⟨kind, value, some place.position, some place.line, some place.column⟩

/-- The value of a token of a rule: the matched piece, or the terminal that it is. -/
def valueOf (name : Symbol) (cs : List Char) : String :=
  if Symbol.isTerminal name then Symbol.terminal (String.ofList cs) else String.ofList cs

/-- The token that begins at a place where no blank stands, and the place after it. -/
def tokenFrom (lexer : Lexer) (text : Array Char) (place : LineCounter) : Token × LineCounter :=
  match text[place.position]? with
  | none =>
      (tokenAt Symbol.endMarker Symbol.endMarker place,
        place.feed (if place.position = text.size then ['$'] else []) false)
  | some c =>
      match firstMatch text place.position lexer with
      | some (name, stop) =>
          let cs := piece text place.position stop
          (tokenAt name (valueOf name cs) place, place.feed cs true)
      | none =>
          let kind := String.singleton c
          (tokenAt kind kind place, place.feed [c] true)

/-- The next token, and the place after it. -/
def next (lexer : Lexer) (text : Array Char) (place : LineCounter) : Token × LineCounter :=
  tokenFrom lexer text (skipBlanks text place)

/-- Whether a scan is beyond the end marker. -/
def isDone (text : Array Char) (place : LineCounter) : Bool :=
  text.size < place.position

/-- The tokens from a place on, each with the place after it; `fuel` bounds their number. -/
def scanFrom (lexer : Lexer) (text : Array Char) : Nat → LineCounter → List (Token × LineCounter)
  | 0, _ => []
  | fuel + 1, place =>
      if isDone text place then []
      else
        let (token, after) := next lexer text place
        (token, after) :: scanFrom lexer text fuel after

/-- The tokens of a text up to the end marker, each with the place after it. -/
def scan (lexer : Lexer) (text : Array Char) : List (Token × LineCounter) :=
  scanFrom lexer text (text.size + 1) .start

/-- The tokens of a text, the last of which is the end marker. -/
def tokens (lexer : Lexer) (text : String) : List Token :=
  (scan lexer text.toList.toArray).map (·.1)

/-- The next so many tokens, some of them perhaps beyond the end, each with the place after it. -/
def take (lexer : Lexer) (text : Array Char) : Nat → LineCounter → List (Token × LineCounter)
  | 0, _ => []
  | count + 1, place =>
      let (token, after) := next lexer text place
      (token, after) :: take lexer text count after

/-- The place that a scan reaches after a number of tokens, some of them perhaps beyond the end. -/
def skip (lexer : Lexer) (text : Array Char) : Nat → LineCounter → LineCounter
  | 0, place => place
  | count + 1, place => skip lexer text count (next lexer text place).2

end Predictive.Lexer
