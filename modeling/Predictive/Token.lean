import Predictive.Datum
import Predictive.Symbol

/-!
# Tokens

A token is a piece of a text with the name that the lexical rules give it. Its position, line and
column are absent for a token that stands in no text.
-/

set_option autoImplicit false

namespace Predictive

/-- A named piece of a text. The value of a terminal is the terminal itself, quotes included. -/
structure Token where
  kind : Symbol
  value : String
  position : Option Int
  line : Option Int
  column : Option Int
deriving Repr, DecidableEq

namespace Token

/-- A token that stands in no text. -/
def ofKind (kind : Symbol) (value : String) : Token :=
  ⟨kind, value, none, none, none⟩

/-- Whether two tokens have equal kinds and values; positions do not count. -/
def agrees (s t : Token) : Bool :=
  s.kind == t.kind && s.value == t.value

/-- The token with its kind and its quoted value. -/
def describe (t : Token) : String :=
  "Token(" ++ t.kind ++ ", " ++ Text.quote t.value ++ ")"

end Token

/-- A token, or a text in the place of one. -/
inductive Offender where
  | token (t : Token)
  | text (s : String)
deriving Repr, DecidableEq

namespace Offender

/-- The text of a token or the text itself. -/
def value : Offender → String
  | .token t => t.value
  | .text s => s

/-- Whether two of them agree: tokens in kind and value, a text and anything in their texts. -/
def agrees : Offender → Offender → Bool
  | .token s, .token t => s.agrees t
  | x, y => x.value == y.value

/-- The position in the text, if there is one. -/
def position : Offender → Option Int
  | .token t => t.position
  | .text _ => none

/-- The written form. -/
def describe : Offender → String
  | .token t => t.describe
  | .text s => Text.quote s

/-- A coordinate of a token as a value; a text has a question mark for it. -/
def coordinate (pick : Token → Option Int) : Offender → Datum
  | .token t => match pick t with
      | some n => .int n
      | none => .null
  | .text _ => .text "?"

/-- The line, as it is shown. -/
def line : Offender → Datum := coordinate (·.line)

/-- The column, as it is shown. -/
def column : Offender → Datum := coordinate (·.column)

end Offender

end Predictive
