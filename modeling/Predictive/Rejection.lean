import Predictive.SymbolSet
import Predictive.Text.Slice
import Predictive.Text.TabStop
import Predictive.Token

/-!
# Rejections

What the recognizer says about a text that it does not take: at which token it stopped, what it
expected there and what stood on its stack. `context` shows the place in the text: the part of the
line around the position, and below it a caret at the column of the position with tabs expanded.
-/

set_option autoImplicit false

namespace Predictive

/-- The two ways in which a text can fail. -/
inductive RejectionCause where
  /-- No entry of the table takes the token. -/
  | unexpectedToken
  /-- The input ends while the stack holds symbols that cannot vanish. -/
  | unexpectedEnd
deriving Repr, DecidableEq

/-- Why and where a text is rejected. -/
structure Rejection where
  cause : RejectionCause
  offender : Offender
  /-- The tokens that could have stood there. -/
  expected : SymbolSet
  /-- The stack from its bottom to its top, if it is known. -/
  stack : Option (List Symbol)
deriving Repr, DecidableEq

namespace Rejection

/-- The rejection with these details. At the end of the input the stack has to be known, and before it
the expected tokens. -/
def ofDetails? (cause : RejectionCause) (offender : Offender) (expected : Option SymbolSet)
    (stack : Option (List Symbol)) : Option Rejection :=
  match cause, expected, stack with
  | .unexpectedToken, some expected, stack => some ⟨cause, offender, expected, stack⟩
  | .unexpectedEnd, expected, some stack => some ⟨cause, offender, expected.getD ∅, some stack⟩
  | _, _, _ => none

/-- The expected tokens, one to a line. -/
def expectedText (expected : SymbolSet) : String :=
  "Expected one of: \n\t* " ++ Datum.joinWith "\n\t* " expected.toList ++ "\n"

/-- The message of a rejection. -/
def message (r : Rejection) : String :=
  match r.cause with
  | .unexpectedToken =>
      "Parse error, unexpected token " ++ r.offender.value ++ " at line " ++
        r.offender.line.display ++ ", column " ++ r.offender.column.display ++ ".\n" ++
        expectedText r.expected
  | .unexpectedEnd =>
      "Parse error, stack is not empty at end of input: " ++
        Datum.joinWith " " (r.stack.getD []) ++ " (last token: " ++ r.offender.value ++ ")\n" ++
        (if r.expected.toList = [] then "" else expectedText r.expected)

/-- The characters after the last line feed. -/
def afterLastFeed (cs : List Char) : List Char :=
  (cs.reverse.takeWhile (· ≠ '\n')).reverse

/-- The characters before the first line feed. -/
def beforeFirstFeed (cs : List Char) : List Char :=
  cs.takeWhile (· ≠ '\n')

/-- The place `position` of a text, with at most `span` characters on each side of it. -/
def contextAt (text : List Char) (position span : Int) : List Char :=
  let pos := min position text.length
  let before := afterLastFeed (Text.slice text (max (pos - span) 0) pos)
  let after := beforeFirstFeed (Text.slice text pos (pos + span))
  before ++ after ++ '\n' :: List.replicate (Text.expandedLength before 0) ' ' ++ ['^', '\n']

/-- The span that is shown when none is asked for. -/
def defaultSpan : Int := 40

/-- The place of the rejection in its text; `none` if it has no position. -/
def context (r : Rejection) (text : String) (span : Int) : Option String :=
  r.offender.position.map fun position => String.ofList (contextAt text.toList position span)

end Rejection

end Predictive
