/-!
# Fractions

A fraction of natural numbers with a positive denominator stands for the exact value of a number
whose sign is kept elsewhere. `nearest` rounds a fraction to a whole number, and `magnitude` tells
where its first decimal digit stands.
-/

set_option autoImplicit false

namespace Predictive

/-- The number `num / den`. -/
structure Fraction where
  num : Nat
  den : Nat
deriving Repr, DecidableEq

namespace Fraction

/-- Whether one fraction is less than another one. -/
def less (x y : Fraction) : Bool := x.num * y.den < y.num * x.den

/-- Whether one fraction is at most another one. -/
def atMost (x y : Fraction) : Bool := x.num * y.den ≤ y.num * x.den

/-- A fraction times a power of a base, with a negative exponent perhaps. -/
def scale (base : Nat) (x : Fraction) (exponent : Int) : Fraction :=
  if 0 ≤ exponent then ⟨x.num * Nat.pow base exponent.toNat, x.den⟩
  else ⟨x.num, x.den * Nat.pow base (-exponent).toNat⟩

/-- The whole number nearest to a fraction; of two that are equally near, the even one. -/
def nearest (x : Fraction) : Nat :=
  let q := x.num / x.den
  let rest := 2 * (x.num % x.den)
  if rest < x.den then q
  else if x.den < rest then q + 1
  else q + q % 2

/-- The number of decimal digits of a natural number. -/
def digitCount (n : Nat) : Nat := (Nat.toDigits 10 n).length

/-- The power of ten at which the first digit of a fraction other than zero stands. -/
def magnitude (x : Fraction) : Int :=
  let k : Int := (digitCount x.num : Int) - digitCount x.den
  if atMost (scale 10 ⟨1, 1⟩ k) x then k else k - 1

end Fraction

end Predictive
