import Predictive.Template

/-!
# Choices

A value is checked against the values that are allowed in its place: a list or a set of them, the
keys of a dictionary, or a text, of which every piece is allowed.
-/

set_option autoImplicit false

namespace Predictive.Choice

/-- Whether a piece of text stands somewhere in another one. -/
def occursIn (piece : List Char) : List Char → Bool
  | [] => piece.isEmpty
  | c :: cs => piece.isPrefixOf (c :: cs) || occursIn piece cs

/-- Whether a value can be looked for in a set: it can be a key, or it is a set. -/
def canBeMember : Datum → Bool
  | .set _ _ => true
  | value => value.isKey

/-- Whether a value is among the allowed ones. -/
def allows (allowed value : Datum) : Except Failure Bool :=
  match allowed with
  | .list items | .tuple items => .ok (items.any (· == value))
  | .set _ members =>
      if canBeMember value then .ok (members.any (· == value)) else .error .wrongType
  | .dict entries =>
      if value.isKey then .ok (entries.any fun e => e.1 == value) else .error .wrongType
  | .text s =>
      match value.text? with
      | some piece => .ok (occursIn piece.toList s.toList)
      | none => .error .wrongType
  | _ => .error .wrongType

/-- The message about a value that is not allowed, unless another one is asked for. -/
def defaultTemplate : String := "Got %r, expected one of %s"

/-- Checks that a value is allowed. The message of the failure tells the value and the allowed
ones. -/
def check (template : String) (allowed value : Datum) : Except Failure Unit := do
  if ← allows allowed value then .ok ()
  else
    let message ← Template.fill template.toList [value, allowed]
    .error (.option (.notAllowed message))

end Predictive.Choice
