import Predictive.Decimal

/-!
# Numbers in double precision

A finite number is a significand below `2 ^ 53` times a power of two whose exponent is at least
-1074, with a sign that zero has too. The significand is at least `2 ^ 52` unless the exponent is the
least one, so every number has one form. `ofFraction` takes the number that is nearest to a value, an
even significand winning a tie, and `shortest` finds the fewest decimal digits that are read back to
the same number.
-/

set_option autoImplicit false

namespace Predictive

/-- A number in double precision. -/
inductive Binary64 where
  /-- The number `significand * 2 ^ exponent` with its sign. -/
  | finite (negative : Bool) (significand : Nat) (exponent : Int)
  | infinite (negative : Bool)
deriving Repr, DecidableEq, Inhabited

namespace Binary64

/-- The first significand that is too large. -/
def significandBound : Nat := Nat.pow 2 53

/-- The least significand of a number whose exponent is not the least one. -/
def significandBase : Nat := Nat.pow 2 52

/-- The least exponent. -/
def leastExponent : Int := -1074

/-- The greatest exponent. -/
def greatestExponent : Int := 971

/-- The number zero. -/
def zero (negative : Bool) : Binary64 := .finite negative 0 leastExponent

/-! ## From exact values -/

/-- The exponent of the numbers near a value other than zero. -/
def exponentNear (x : Fraction) : Int :=
  let b : Int := (Nat.log2 x.num : Int) - Nat.log2 x.den
  let b := if Fraction.atMost (.scale 2 ⟨1, 1⟩ b) x then b else b - 1
  max leastExponent (b - 52)

/-- The number nearest to a value. -/
def ofFraction (negative : Bool) (x : Fraction) : Binary64 :=
  if x.num = 0 then zero negative
  else
    let q := exponentNear x
    let m := (x.scale 2 (-q)).nearest
    let (m, q) := if m = significandBound then (significandBase, q + 1) else (m, q)
    if greatestExponent < q then .infinite negative else .finite negative m q

/-- The number nearest to a decimal number. Values far beyond all numbers are not worked out. -/
def ofDecimal (negative : Bool) (d : Decimal) : Binary64 :=
  let k := d.place + Fraction.digitCount d.digits
  if d.digits = 0 ∨ k < -330 then zero negative
  else if 310 < k then .infinite negative
  else ofFraction negative d.toFraction

/-- The number nearest to an integer. -/
def ofInt (n : Int) : Binary64 := ofFraction (n < 0) ⟨n.natAbs, 1⟩

/-! ## Exact values -/

/-- Whether a number has the minus sign. -/
def isNegative : Binary64 → Bool
  | .finite negative _ _ => negative
  | .infinite negative => negative

/-- Whether a number is zero. -/
def isZero : Binary64 → Bool
  | .finite _ m _ => m = 0
  | .infinite _ => false

/-- The value of a finite number without its sign. -/
def magnitude? : Binary64 → Option Fraction
  | .finite _ m q => some (.scale 2 ⟨m, 1⟩ q)
  | .infinite _ => none

/-- The integer part of a finite number. -/
def truncate? (x : Binary64) : Option Int :=
  x.magnitude?.map fun v =>
    let n : Int := (v.num / v.den : Nat)
    if x.isNegative then -n else n

/-- The integer that a number is equal to, if there is one. -/
def toInt? (x : Binary64) : Option Int :=
  match x.magnitude? with
  | some v => if v.num % v.den = 0 then x.truncate? else none
  | none => none

/-- The place of a number among all numbers: the infinite ones lie outside of the finite ones, each of
which is so many times the least of them. -/
def rank : Binary64 → Int × Int
  | .finite negative m q =>
      let n := m * Int.pow 2 (q - leastExponent).toNat
      (0, if negative then -n else n)
  | .infinite negative => (if negative then -1 else 1, 0)

/-- Whether one place lies before another one. -/
def ranksBefore (x y : Int × Int) : Bool := x.1 < y.1 || (x.1 == y.1 && x.2 < y.2)

/-- Whether two numbers are equal; the two zeros are. -/
def same (x y : Binary64) : Bool := x = y || (x.isZero && y.isZero)

/-! ## Decimal digits -/

/-- Whether a decimal number is read as the number with significand `m` and exponent `q`: it lies
between the midpoints to the two neighbours, which belong to the even significand. -/
def readsBack (m : Nat) (q : Int) (d : Decimal) : Bool :=
  let narrow := m = significandBase ∧ leastExponent < q
  let low : Fraction := .scale 2 ⟨if narrow then 4 * m - 1 else 4 * m - 2, 1⟩ (q - 2)
  let high : Fraction := .scale 2 ⟨4 * m + 2, 1⟩ (q - 2)
  let x := d.toFraction
  if m % 2 = 0 then low.atMost x && x.atMost high else low.less x && x.less high

/-- The decimal number with its last digit at a place that is read back and nearest. -/
def onGrid? (m : Nat) (q place : Int) : Option Decimal :=
  let x := (Fraction.scale 2 ⟨m, 1⟩ q).scale 10 (-place)
  let below : Decimal := ⟨x.num / x.den, place⟩
  let above : Decimal := ⟨x.num / x.den + 1, place⟩
  match readsBack m q below, readsBack m q above with
  | true, true => some ⟨x.nearest, place⟩
  | true, false => some below
  | false, true => some above
  | false, false => none

/-- The fewest digits that are read back to the number with significand `m` and exponent `q`, and
of these the nearest. Seventeen digits always are enough; else the exact value would be the answer. -/
def shortest (m : Nat) (q : Int) : Decimal :=
  if m = 0 then ⟨0, 0⟩
  else
    let k := (Fraction.scale 2 ⟨m, 1⟩ q).magnitude
    ((List.range 17).findSome? fun (n : Nat) => onGrid? m q (k - n)).getD
      (if 0 ≤ q then ⟨m * Nat.pow 2 q.toNat, 0⟩ else ⟨m * Nat.pow 5 (-q).toNat, q⟩)

/-- The decimal number that stands for a finite number. -/
def decimal? : Binary64 → Option Decimal
  | .finite _ m q => some (shortest m q)
  | .infinite _ => none

/-- A number with the fewest digits that tell it from every other one. -/
def render (x : Binary64) : String :=
  let sign := if x.isNegative then ['-'] else []
  String.ofList (sign ++ match x.decimal? with
    | some d => d.written
    | none => "inf".toList)

end Binary64

end Predictive
