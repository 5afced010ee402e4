import Predictive.OrderedMap

/-!
# Distinct elements and groups

`distinct` keeps the first occurrence of every element, and `groupBy` gathers the elements of a list
under their keys. Keys stand in the order in which they first occur, and the members of a group in
the order of the list.
-/

set_option autoImplicit false

namespace Predictive

universe u v w

/-- The elements that occur neither in `seen` nor earlier in the list. -/
def distinctFrom {α : Type u} [BEq α] (seen : List α) : List α → List α
  | [] => []
  | x :: xs =>
      if seen.contains x then distinctFrom seen xs else x :: distinctFrom (x :: seen) xs

/-- The list without the repetitions of its elements. -/
def distinct {α : Type u} [BEq α] (xs : List α) : List α :=
  distinctFrom [] xs

/-- Puts a value at the end of the group with the key, which is a new one if need be. -/
def OrderedMap.append {κ : Type u} {β : Type v} [BEq κ] (groups : OrderedMap κ (List β)) (k : κ)
    (v : β) : OrderedMap κ (List β) :=
  groups.insert k ((groups.get? k).getD [] ++ [v])

/-- The elements of a list, as `value` gives them, gathered under their keys. -/
def groupBy {α : Type u} {κ : Type v} {β : Type w} [BEq κ] (key : α → κ) (value : α → β)
    (xs : List α) : OrderedMap κ (List β) :=
  xs.foldl (fun groups x => groups.append (key x) (value x)) OrderedMap.empty

end Predictive
