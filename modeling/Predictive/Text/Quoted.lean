import Predictive.Unicode.Printable

/-!
# Quoted texts

The form in which messages show a text that may hold anything. It stands in single quotes, or in
double quotes when the text holds a single quote and no double one. The quote in use and the
backslash take a backslash, line feeds, carriage returns and tabs their letter, and every other
character that is not printable its code point with two, four or eight hexadecimal digits.
-/

set_option autoImplicit false

namespace Predictive.Text

/-- The digit of a number below sixteen. -/
def hexDigit (n : Nat) : Char :=
  if n < 10 then Char.ofNat (48 + n) else Char.ofNat (87 + n)

/-- The last `width` hexadecimal digits of `n`. -/
def hexDigits : Nat → Nat → List Char
  | 0, _ => []
  | width + 1, n => hexDigits width (n / 16) ++ [hexDigit (n % 16)]

/-- The quote that a text stands in. -/
def quoteFor (cs : List Char) : Char :=
  if '\'' ∈ cs ∧ '"' ∉ cs then '"' else '\''

/-- A character by its code point. -/
def escapeCode (c : Char) : List Char :=
  if c.toNat < 0x100 then '\\' :: 'x' :: hexDigits 2 c.toNat
  else if c.toNat < 0x10000 then '\\' :: 'u' :: hexDigits 4 c.toNat
  else '\\' :: 'U' :: hexDigits 8 c.toNat

/-- One character inside quotes of the kind `quote`. -/
def quoteChar (quote c : Char) : List Char :=
  if c = quote ∨ c = '\\' then ['\\', c]
  else if c = '\n' then ['\\', 'n']
  else if c = '\r' then ['\\', 'r']
  else if c = '\t' then ['\\', 't']
  else if Unicode.isPrintable c then [c]
  else escapeCode c

/-- The quoted form of a text. -/
def quote (s : String) : String :=
  let cs := s.toList
  let mark := quoteFor cs
  String.ofList (mark :: cs.flatMap (quoteChar mark) ++ [mark])

end Predictive.Text
