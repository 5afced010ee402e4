import Predictive.Unchecked.Value

/-!
# Paths

A path leads from a value to one inside it, by the keys of dictionaries and the places of lists. A
change at the end of a path puts a value there or takes the place out; it fails when the path leads
nowhere.
-/

set_option autoImplicit false

namespace Predictive.Unchecked

/-- What to do with the place at the end of a path. -/
inductive Change where
  /-- Puts a value there, as a new entry if the key is new. -/
  | put (value : Datum)
  /-- Takes the place out. -/
  | remove

namespace Change

/-- The place of an index in a list. -/
def placeIn (items : List Datum) (index : Datum) : Except Failure Nat :=
  match index.int? with
  | none => .error .wrongType
  | some n =>
      match place? items.length n with
      | some place => .ok place
      | none => .error .outOfRange

/-- The value after a change at one of its keys or places. -/
def applyAt (change : Change) (d key : Datum) : Except Failure Datum :=
  match d, change with
  | .dict entries, .put value =>
      if key.isKey then .ok (.dict (OrderedMap.insertEntry key value entries))
      else .error .wrongType
  | .dict entries, .remove => do
      let _ ← item d key
      .ok (.dict (entries.filter fun e => !(e.1 == key)))
  | .list items, .put value => do
      let place ← placeIn items key
      .ok (.list (items.set place value))
  | .list items, .remove => do
      let place ← placeIn items key
      .ok (.list (items.eraseIdx place))
  | _, _ => .error .wrongType

/-- The value after a change at the end of a path. -/
def apply (change : Change) : List Datum → Datum → Except Failure Datum
  | [], _ => .error .outOfRange
  | [key], d => applyAt change d key
  | key :: path, d => do
      let inner ← item d key
      let inner ← apply change path inner
      applyAt (.put inner) d key

end Change

end Predictive.Unchecked
