import Predictive.Text.Blank
import Predictive.Unicode.Digit

/-!
# Written integers

The lenient notation of integers: blanks at both ends, a sign, and decimal digits of any script with
single underscores between them.
-/

set_option autoImplicit false

namespace Predictive.Text

/-- The number that digits continue, when `value` is read already and `pending` tells whether a digit
has to come next. -/
def digitsFrom (value : Nat) (pending : Bool) : List Char → Option Nat
  | [] => if pending then none else some value
  | c :: cs =>
      match Unicode.digitValue? c with
      | some d => digitsFrom (10 * value + d) false cs
      | none => if c = '_' ∧ pending = false then digitsFrom value true cs else none

/-- The integer that a text writes. -/
def wholeNumber? (cs : List Char) : Option Int :=
  match strip cs with
  | '-' :: ds => (digitsFrom 0 true ds).map fun n => -(n : Int)
  | '+' :: ds => (digitsFrom 0 true ds).map fun n => (n : Int)
  | ds => (digitsFrom 0 true ds).map fun n => (n : Int)

end Predictive.Text
