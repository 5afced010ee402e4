import Predictive.Failure

/-!
# Message templates

A template is a text with places for values. A percent sign begins a place, and a letter ends it:
`%s` shows a value and `%r` writes it so that it can be told from others, `%a` with all characters
beyond 127 escaped; `%d`, `%o` and `%x` write whole numbers, `%e`, `%f` and `%g` numbers with places,
`%c` a single character. Between the sign and the letter there may be flags, a width and a
precision; a percent sign directly after another one stands for the sign itself. Values and places
are matched one to one, from left to right.
-/

set_option autoImplicit false

namespace Predictive.Template

/-- How a value is to be put at its place. -/
structure Layout where
  /-- The value stands at the left end of its field. -/
  left : Bool
  /-- Numbers show a plus sign. -/
  signed : Bool
  /-- Numbers show a blank instead of a plus sign. -/
  spaced : Bool
  /-- Numbers are written out in full: with the mark of their base, or with their point. -/
  full : Bool
  /-- Fields of numbers are filled with zeros. -/
  zeros : Bool
  /-- The least number of characters. -/
  width : Nat
  precision : Option Nat
deriving Repr, DecidableEq

/-- The layout without flags. -/
def Layout.plain : Layout := ⟨false, false, false, false, false, 0, none⟩

/-! ## Reading places -/

/-- The largest width. -/
def largestWidth : Int := 9223372036854775807

/-- The largest precision. -/
def largestPrecision : Int := 2147483647

/-- The flags at the beginning of a place, and what follows them. -/
def readFlags : List Char → Layout → Layout × List Char
  | '-' :: cs, l => readFlags cs { l with left := true }
  | '+' :: cs, l => readFlags cs { l with signed := true }
  | ' ' :: cs, l => readFlags cs { l with spaced := true }
  | '#' :: cs, l => readFlags cs { l with full := true }
  | '0' :: cs, l => readFlags cs { l with zeros := true }
  | cs, l => (l, cs)

/-- The number that decimal digits write. -/
def numeral (ds : List Char) : Nat := ds.foldl (fun n c => 10 * n + (c.toNat - 48)) 0

/-- A number in a place, if there is one: it is written out, or a star takes it from the values. -/
def readNumber (largest : Int) (cs : List Char) (values : List Datum) :
    Except Failure (Option Int × List Char × List Datum) :=
  match cs with
  | '*' :: cs =>
      match values with
      | [] => .error .wrongType
      | d :: values =>
          match d.int? with
          | none => .error .wrongType
          | some n =>
              if n.natAbs ≤ largest then .ok (some n, cs, values) else .error .tooLarge
  | cs =>
      match cs.takeWhile Char.isDigit with
      | [] => .ok (none, cs, values)
      | ds =>
          if numeral ds ≤ largest then .ok (some (numeral ds), cs.dropWhile Char.isDigit, values)
          else .error .badValue

/-- The layout with a width; a negative one puts the value at the left end. -/
def Layout.withWidth (l : Layout) : Option Int → Layout
  | none => l
  | some n => { l with left := l.left || decide (n < 0), width := n.natAbs }

/-- The characters after a letter for the size of numbers, which tells nothing. -/
def skipSize : List Char → List Char
  | c :: cs => if c = 'h' ∨ c = 'l' ∨ c = 'L' then cs else c :: cs
  | [] => []

/-- A place after its percent sign: the layout, the letter, what follows it, and the values that are
left. A name in parentheses would need values with names. -/
def readPlace (cs : List Char) (values : List Datum) :
    Except Failure (Layout × Char × List Char × List Datum) := do
  if cs.head? = some '(' then .error .wrongType
  let (l, cs) := readFlags cs .plain
  let (width, cs, values) ← readNumber largestWidth cs values
  let l := l.withWidth width
  let (precision, cs, values) ← match cs with
    | '.' :: cs => do
        let (n, cs, values) ← readNumber largestPrecision cs values
        pure (some (n.getD 0).toNat, cs, values)
    | cs => pure (none, cs, values)
  match skipSize cs with
  | [] => .error .badValue
  | kind :: cs => .ok ({ l with precision := precision }, kind, cs, values)

/-! ## Writing values -/

/-- The text of a field: what is written of the value, after its sign and the mark of its base. -/
def field (l : Layout) (numeric : Bool) (sign mark body : List Char) : List Char :=
  let count := l.width - (sign.length + mark.length + body.length)
  if l.left then sign ++ mark ++ body ++ List.replicate count ' '
  else if numeric && l.zeros then sign ++ mark ++ List.replicate count '0' ++ body
  else List.replicate count ' ' ++ sign ++ mark ++ body

/-- The sign that is shown before a number. -/
def signOf (l : Layout) (negative : Bool) : List Char :=
  if negative then ['-'] else if l.signed then ['+'] else if l.spaced then [' '] else []

/-- A text in its field, cut to the precision. -/
def textField (l : Layout) (s : String) : List Char :=
  let cs := match l.precision with
    | some n => s.toList.take n
    | none => s.toList
  field l false [] [] cs

/-- The integer that a value is written as: numbers with places lose them. -/
def wholeOf : Datum → Except Failure Int
  | .real x =>
      match x.truncate? with
      | some n => .ok n
      | none => .error .tooLarge
  | d =>
      match d.int? with
      | some n => .ok n
      | none => .error .wrongType

/-- The integer that a value is. -/
def integerOf (d : Datum) : Except Failure Int :=
  match d.int? with
  | some n => .ok n
  | none => .error .wrongType

/-- The number that a value stands for. -/
def realOf : Datum → Except Failure Binary64
  | .real x => .ok x
  | d =>
      match d.int? with
      | none => .error .wrongType
      | some n =>
          match Binary64.ofInt n with
          | .infinite _ => .error .tooLarge
          | x => .ok x

/-- An integer in its field, with at least as many digits as the precision says. -/
def integerField (l : Layout) (base : Nat) (mark : List Char) (capital : Bool) (n : Int) :
    Except Failure (List Char) :=
  let count := l.precision.getD 0
  if largestPrecision - 3 < count then .error .tooLarge
  else
    let ds := Nat.toDigits base n.natAbs
    let ds := List.replicate (count - ds.length) '0' ++ ds
    let mark := if l.full then mark else []
    .ok (field l true (signOf l (decide (n < 0))) mark (if capital then ds.map Char.toUpper else ds))

/-- A way to write a value with places. -/
abbrev Notation64 := Decimal.Style → Nat → Fraction → List Char

/-- A number with places in its field. -/
def realField (l : Layout) (write : Notation64) (capital : Bool) (x : Binary64) : List Char :=
  let body := match x.magnitude? with
    | some v => write ⟨capital, l.full⟩ (l.precision.getD 6) v
    | none => (if capital then "INF" else "inf").toList
  field l true (signOf l x.isNegative) [] body

/-- The character that a value is, or whose code point it is. -/
def characterOf : Datum → Except Failure Char
  | .text s =>
      match s.toList with
      | [c] => .ok c
      | _ => .error .wrongType
  | d =>
      match d.int? with
      | none => .error .wrongType
      | some n => if 0 ≤ n ∧ n < 0x110000 then .ok (Char.ofNat n.toNat) else .error .tooLarge

/-- A written form with all characters beyond 127 escaped. -/
def escaped (s : String) : String :=
  String.ofList (s.toList.flatMap fun c => if c.toNat < 128 then [c] else Text.escapeCode c)

/-- The text of a value at a place. -/
def placed (l : Layout) (kind : Char) (d : Datum) : Except Failure (List Char) :=
  let real (write : Notation64) (capital : Bool) : Except Failure (List Char) := do
    let x ← realOf d
    .ok (realField l write capital x)
  match kind with
  | 's' => .ok (textField l d.display)
  | 'r' => .ok (textField l d.render)
  | 'a' => .ok (textField l (escaped d.render))
  | 'd' | 'i' | 'u' => do
      let n ← wholeOf d
      integerField l 10 [] false n
  | 'o' => do
      let n ← integerOf d
      integerField l 8 ['0', 'o'] false n
  | 'x' => do
      let n ← integerOf d
      integerField l 16 ['0', 'x'] false n
  | 'X' => do
      let n ← integerOf d
      integerField l 16 ['0', 'X'] true n
  | 'e' => real Decimal.exponential false
  | 'E' => real Decimal.exponential true
  | 'f' => real Decimal.fixed false
  | 'F' => real Decimal.fixed true
  | 'g' => real Decimal.general false
  | 'G' => real Decimal.general true
  | 'c' => do
      let c ← characterOf d
      .ok (field l false [] [] [c])
  | _ => .error .badValue

/-! ## Filling -/

/-- The template with values at its places; `fuel` bounds the number of steps. -/
def fillFrom : Nat → List Char → List Datum → Except Failure (List Char)
  | 0, _, _ => .ok []
  | _ + 1, [], [] => .ok []
  | _ + 1, [], _ :: _ => .error .wrongType
  | fuel + 1, '%' :: '%' :: cs, values => do
      let rest ← fillFrom fuel cs values
      .ok ('%' :: rest)
  | fuel + 1, c :: cs, values =>
      if c = '%' then do
        let (l, kind, cs, values) ← readPlace cs values
        match values with
        | [] => .error .wrongType
        | d :: values => do
            let shown ← placed l kind d
            let rest ← fillFrom fuel cs values
            .ok (shown ++ rest)
      else do
        let rest ← fillFrom fuel cs values
        .ok (c :: rest)

/-- The template with values at its places. -/
def fill (template : List Char) (values : List Datum) : Except Failure String := do
  let cs ← fillFrom (template.length + 1) template values
  .ok (String.ofList cs)

end Predictive.Template
