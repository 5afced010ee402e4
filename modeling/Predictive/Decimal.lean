import Predictive.Fraction

/-!
# Decimal notation

A number without its sign is written with digits in two ways: with a point at its place, or with the
point after the first digit and the power of ten behind it. `fixed`, `exponential` and `general`
write an exact value with a given precision, rounded to the nearest value that the notation can tell.
-/

set_option autoImplicit false

namespace Predictive

/-- The number `digits * 10 ^ place`. -/
structure Decimal where
  digits : Nat
  place : Int
deriving Repr, DecidableEq

namespace Decimal

/-- The value of a decimal number. -/
def toFraction (d : Decimal) : Fraction := .scale 10 ⟨d.digits, 1⟩ d.place

/-- How a number is written. -/
structure Style where
  /-- Capital letters. -/
  capital : Bool
  /-- The point and the zeros after it stay even when nothing else follows. -/
  full : Bool
deriving Repr, DecidableEq

/-- The plain style. -/
def Style.plain : Style := ⟨false, false⟩

/-- Zeros. -/
def zeros (count : Nat) : List Char := List.replicate count '0'

/-- The digits of a natural number, with zeros in front if there are too few. -/
def padded (count n : Nat) : List Char :=
  let ds := Nat.toDigits 10 n
  zeros (count - ds.length) ++ ds

/-- Digits without the zeros at their end. -/
def stripZeros (ds : List Char) : List Char := (ds.reverse.dropWhile (· = '0')).reverse

/-- The places after the point, with the point unless there are none. -/
def fraction (style : Style) (places : List Char) : List Char :=
  if places.isEmpty && !style.full then [] else '.' :: places

/-- The number `n / 10 ^ places` with its point. -/
def pointed (style : Style) (n places : Nat) : List Char :=
  let ds := padded (places + 1) n
  let whole := ds.length - places
  ds.take whole ++ fraction style (ds.drop whole)

/-- The power of ten behind a number. -/
def power (style : Style) (exponent : Int) : List Char :=
  (if style.capital then 'E' else 'e') :: (if exponent < 0 then '-' else '+') ::
    padded 2 exponent.natAbs

/-- Digits with the point after the first of them and the power of ten behind. -/
def scientific (style : Style) (ds : List Char) (exponent : Int) : List Char :=
  ds.take 1 ++ fraction style (ds.drop 1) ++ power style exponent

/-- The digits of a value rounded to a number of them, and the power of ten of the first one. -/
def rounded (x : Fraction) (count : Nat) : List Char × Int :=
  if x.num = 0 then (zeros count, 0)
  else
    let k := x.magnitude
    let n := (x.scale 10 (count - 1 - k)).nearest
    if n = Nat.pow 10 count then (Nat.toDigits 10 (n / 10), k + 1) else (Nat.toDigits 10 n, k)

/-- A value with a number of places after the point. -/
def fixed (style : Style) (places : Nat) (x : Fraction) : List Char :=
  pointed style (x.scale 10 places).nearest places

/-- A value with a number of places after the first digit. -/
def exponential (style : Style) (places : Nat) (x : Fraction) : List Char :=
  let (ds, k) := rounded x (places + 1)
  scientific style ds k

/-- A value with a number of digits, in the way that is shorter; zeros at the end are left out
unless the style is full. -/
def general (style : Style) (count : Nat) (x : Fraction) : List Char :=
  let count := max count 1
  let (ds, k) := rounded x count
  let shown := if style.full then ds else stripZeros ds
  if k < -4 ∨ count ≤ k then
    scientific style (if shown.isEmpty then ['0'] else shown) k
  else if k < 0 then
    '0' :: fraction style (zeros (-k - 1).toNat ++ shown)
  else
    ds.take (k.toNat + 1) ++ fraction style (shown.drop (k.toNat + 1))

/-- The same number without zeros at the end of its digits. -/
def stripped (d : Decimal) : Decimal :=
  let count := Fraction.digitCount d.digits - (stripZeros (Nat.toDigits 10 d.digits)).length
  ⟨d.digits / Nat.pow 10 count, d.place + count⟩

/-- A number with all its digits: with the point at its place, and at least one place after it, when
the first digit stands at a power of ten from -4 to 15; else with the power behind it. -/
def written (d : Decimal) : List Char :=
  if d.digits = 0 then ['0', '.', '0']
  else
    let d := d.stripped
    let ds := Nat.toDigits 10 d.digits
    let k := d.place + ds.length - 1
    if k < -4 ∨ 16 ≤ k then scientific .plain ds k
    else if d.place < 0 then pointed .plain d.digits (-d.place).toNat
    else pointed .plain (d.digits * Nat.pow 10 (d.place.toNat + 1)) 1

end Decimal

end Predictive
