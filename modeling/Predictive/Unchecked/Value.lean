import Predictive.Failure

/-!
# Using values without knowing their kind

What an archive holds may be of any kind. The functions here use a value as if it were of the kind
that is wanted, and fail when it lacks what is asked of it: a length, an item, the parts of a
production. Symbols are values too; every symbol that is put into a set or under a key has to be one
that can be a key.
-/

set_option autoImplicit false

namespace Predictive.Unchecked

/-! ## Items -/

/-- The number of items of a value. -/
def length : Datum → Except Failure Nat
  | .text s => .ok s.length
  | .list items => .ok items.length
  | .tuple items => .ok items.length
  | .set _ members => .ok members.length
  | .dict entries => .ok entries.length
  | .grammar lines _ => .ok lines.length
  | _ => .error .wrongType

/-- The place that an index means; a negative one counts from the end. -/
def place? (size : Nat) (n : Int) : Option Nat :=
  let m := if n < 0 then n + size else n
  if 0 ≤ m ∧ m < size then some m.toNat else none

/-- The item at an index. -/
def itemAt (items : List Datum) (index : Datum) : Except Failure Datum :=
  match index.int? with
  | none => .error .wrongType
  | some n =>
      match (place? items.length n).bind (items[·]?) with
      | some d => .ok d
      | none => .error .outOfRange

/-- The item of a value at a key or an index. -/
def item (d key : Datum) : Except Failure Datum :=
  match d with
  | .dict entries =>
      if key.isKey then
        match OrderedMap.lookupEntry key entries with
        | some v => .ok v
        | none => .error (.missingKey (.key key))
      else .error .wrongType
  | .list items => itemAt items key
  | .tuple items => itemAt items key
  | .text s => itemAt (s.toList.map fun c => .text (String.singleton c)) key
  | _ => .error .wrongType

/-- The value of a dictionary at a key, if there is one. -/
def find? (d key : Datum) : Except Failure (Option Datum) :=
  match d with
  | .dict entries =>
      if key.isKey then .ok (OrderedMap.lookupEntry key entries) else .error .wrongType
  | _ => .error .noAttribute

/-- The entries of a dictionary. -/
def entries : Datum → Except Failure (List (Datum × Datum))
  | .dict entries => .ok entries
  | _ => .error .noAttribute

/-- The values of a dictionary. -/
def values (d : Datum) : Except Failure (List Datum) := do
  let es ← entries d
  .ok (es.map (·.2))

/-- The entry that a pair makes, in whatever collection it comes. -/
def entryOf (d : Datum) : Except Failure (Datum × Datum) :=
  match d.items? with
  | none => .error .wrongType
  | some [key, value] => if key.isKey then .ok (key, value) else .error .wrongType
  | some _ => .error .badValue

/-- The entries of a value that is a dictionary or goes through pairs. -/
def entriesOf (d : Datum) : Except Failure (List (Datum × Datum)) :=
  match d with
  | .dict entries => .ok entries
  | d =>
      match d.items? with
      | none => .error .wrongType
      | some items => do
          let entries ← items.mapM entryOf
          .ok (OrderedMap.ofList entries).entries

/-! ## Parts of productions -/

/-- The number of a production. -/
def numberOf : Datum → Except Failure Datum
  | .production number _ _ => .ok number
  | _ => .error .noAttribute

/-- The left-hand side of a production. -/
def lhsOf : Datum → Except Failure Datum
  | .production _ lhs _ => .ok lhs
  | _ => .error .noAttribute

/-- The right-hand side of a production. -/
def rhsOf : Datum → Except Failure (List Datum)
  | .production _ _ rhs => .ok rhs
  | _ => .error .noAttribute

/-! ## Symbols -/

/-- The empty symbol as a value. -/
def empty : Datum := .text Symbol.empty

/-- The end marker as a value. -/
def endMarker : Datum := .text Symbol.endMarker

/-- The quotation mark as a value. -/
def quotation : Datum := .text "\""

/-- Whether a symbol is a terminal: at two places or more, it begins and ends with a quotation
mark. -/
def isTerminal (s : Datum) : Except Failure Bool := do
  if (← length s) < 2 then .ok false
  else if (← item s (.int 0)) == quotation then
    let last ← item s (.int (-1))
    .ok (last == quotation)
  else .ok false

/-- The symbols with one more, unless it is among them. -/
def addSymbol (found : List Datum) (s : Datum) : Except Failure (List Datum) :=
  if s.isKey then .ok (if found.contains s then found else found ++ [s]) else .error .wrongType

/-- The symbols with more of them. -/
def union (found more : List Datum) : List Datum :=
  more.foldl (fun found s => if found.contains s then found else found ++ [s]) found

/-- The symbols without the empty one. -/
def visible (found : List Datum) : List Datum := found.filter fun s => !(s == empty)

/-- Symbols with a separator between them; all of them have to be texts. -/
def joined (separator : String) (symbols : List Datum) : Except Failure String :=
  match Datum.texts? symbols with
  | some texts => .ok (Datum.joinWith separator texts)
  | none => .error .wrongType

/-! ## Order -/

/-- The place of a number among all numbers. -/
def rank? : Datum → Option (Int × Int)
  | .real x => some x.rank
  | d => d.int?.map fun n => (0, n * Int.pow 2 (-Binary64.leastExponent).toNat)

/-- Whether one number comes before another one. -/
def numberPrecedes? (x y : Datum) : Option Bool :=
  match x.int?, y.int? with
  | some m, some n => some (decide (m < n))
  | _, _ => do return Binary64.ranksBefore (← rank? x) (← rank? y)

mutual

/-- Whether one symbol comes before another one; symbols of different kinds have no order. A set comes
before those that hold its members and others. -/
def precedes? : Datum → Datum → Option Bool
  | .text s, d => match d with
      | .text t => some (decide (s < t))
      | _ => none
  | .tuple xs, d => match d with
      | .tuple ys => itemsPrecede? xs ys
      | _ => none
  | .set _ xs, d => match d with
      | .set _ ys => some (decide (xs.length < ys.length) && Datum.sameMembers xs ys)
      | _ => none
  | x, y => numberPrecedes? x y

/-- Whether one list of symbols comes before another one, by the first place where they differ. -/
def itemsPrecede? : List Datum → List Datum → Option Bool
  | [], ys => some (!ys.isEmpty)
  | x :: xs, ys => match ys with
      | [] => some false
      | y :: ys => if x == y then itemsPrecede? xs ys else precedes? x y

end

/-- The ordered symbols with one more. -/
def insertOrdered? (s : Datum) : List Datum → Option (List Datum)
  | [] => some [s]
  | t :: rest => do
      if ← precedes? s t then some (s :: t :: rest)
      else
        let rest ← insertOrdered? s rest
        some (t :: rest)

/-- The symbols in their order. -/
def ordered (symbols : List Datum) : Except Failure (List Datum) :=
  match symbols.foldrM (fun s found => insertOrdered? s found) [] with
  | some found => .ok found
  | none => .error .wrongType

/-- The symbols in their order, if all of them are texts. -/
def orderedTexts (symbols : List Datum) : Except Failure (List String) := do
  match Datum.texts? (← ordered symbols) with
  | some texts => .ok texts
  | none => .error .wrongType

end Predictive.Unchecked
