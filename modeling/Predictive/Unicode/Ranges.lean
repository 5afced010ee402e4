/-!
# Sets of code points given by their bounds

A set of code points is written as the ascending list of the points at which membership changes,
beginning outside the set: `[a, b, c]` holds the points from `a` up to but without `b`, and those
from `c` on.
-/

set_option autoImplicit false

namespace Predictive.Unicode

/-- Whether `n` lies in the set, when `state` tells membership before the first bound. -/
def insideFrom (state : Bool) : List Nat → Nat → Bool
  | [], _ => state
  | b :: bs, n => if n < b then state else insideFrom (!state) bs n

/-- Whether the character lies in the set with these bounds. -/
def inside (bounds : List Nat) (c : Char) : Bool :=
  insideFrom false bounds c.toNat

end Predictive.Unicode
