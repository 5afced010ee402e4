/-!
# Slices with signed bounds

A bound below zero counts from the end of the list; a bound outside the list is moved to its nearer
end. A slice is empty when its bounds cross.
-/

set_option autoImplicit false

namespace Predictive.Text

/-- The index that a signed bound stands for in a list of length `n`. -/
def slicePoint (n : Nat) (i : Int) : Nat :=
  if i < 0 then (i + n).toNat else min i.toNat n

/-- The elements from the bound `i` up to the bound `j`. -/
def slice {α : Type} (xs : List α) (i j : Int) : List α :=
  (xs.take (slicePoint xs.length j)).drop (slicePoint xs.length i)

/-- With natural bounds a slice is what `take` leaves of `drop`. -/
theorem slice_ofNat {α : Type} (xs : List α) (i j : Nat) :
    slice xs i j = (xs.take j).drop i := by
  unfold slice slicePoint
  have hi : ¬ ((i : Int) < 0) := by omega
  have hj : ¬ ((j : Int) < 0) := by omega
  simp only [hi, hj, if_false, Int.toNat_natCast]
  apply List.ext_getElem?
  intro k
  simp only [List.getElem?_drop, List.getElem?_take]
  by_cases h : xs.length ≤ min i xs.length + k
  · have h' : xs.length ≤ i + k := by omega
    rw [List.getElem?_eq_none h, List.getElem?_eq_none h']
    simp
  · have : min i xs.length = i := by omega
    rw [this]
    have : (i + k < min j xs.length) = (i + k < j) := by
      apply propext; omega
    simp only [this]

end Predictive.Text
