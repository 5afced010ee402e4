import Predictive.Binary64
import Predictive.OrderedMap
import Predictive.Text.Quoted

/-!
# Untyped values

Grammars, lexical rules and options reach the library as untyped values, and an archive is one such
value. A `Datum` is a value of that kind. `render` writes a value so that it can be told from every
other one, `display` writes texts as they are, and `BEq` is equality of values: truth values are the
numbers zero and one, and numbers are equal when their values are.
-/

set_option autoImplicit false

namespace Predictive

/-- An untyped value. -/
inductive Datum where
  /-- The absent value. -/
  | null
  | bool (b : Bool)
  | int (n : Int)
  /-- A number in double precision. -/
  | real (x : Binary64)
  | text (s : String)
  | list (items : List Datum)
  | tuple (items : List Datum)
  /-- Members in the order in which they are gone through, no two of them equal; a frozen set can be
  a key. -/
  | set (frozen : Bool) (members : List Datum)
  /-- Entries in their order; no key occurs twice. -/
  | dict (entries : List (Datum × Datum))
  /-- A production, of which any part may be a value of another kind than it should be. -/
  | production (number lhs : Datum) (rhs : List Datum)
  /-- A finished grammar, with the lines of its productions, and its archive if it has one. -/
  | grammar (lines : List String) (archive : Option Datum)
  /-- An open file with the text that is still to be read. -/
  | file (text : String)
deriving Repr, Inhabited

namespace Datum

/-! ## Equality of values -/

/-- The integer that a truth value counts as. -/
def ofBool (b : Bool) : Int := if b then 1 else 0

/-- The integer that a value is equal to, if there is one. -/
def whole? : Datum → Option Int
  | .bool b => some (ofBool b)
  | .int n => some n
  | .real x => x.toInt?
  | _ => none

/-- Whether a value is equal to a number in double precision. -/
def isReal (x : Binary64) : Datum → Bool
  | .real y => x.same y
  | d =>
      match x.toInt?, d.whole? with
      | some n, some m => n == m
      | _, _ => false

mutual

/-- Whether two values are equal. A finished grammar or a file is equal to no other value. -/
def same : Datum → Datum → Bool
  | .null, d => match d with | .null => true | _ => false
  | .bool b, d => d.whole? == some (ofBool b)
  | .int n, d => d.whole? == some n
  | .real x, d => d.isReal x
  | .text s, d => match d with | .text t => s == t | _ => false
  | .list xs, d => match d with | .list ys => sameItems xs ys | _ => false
  | .tuple xs, d => match d with | .tuple ys => sameItems xs ys | _ => false
  | .set _ xs, d => match d with
      | .set _ ys => xs.length == ys.length && sameMembers xs ys
      | _ => false
  | .dict es, d => match d with
      | .dict fs => es.length == fs.length && sameEntries es fs
      | _ => false
  | .production n l r, d => match d with
      | .production m k q => same n m && same l k && sameItems r q
      | _ => false
  | .grammar _ _, _ => false
  | .file _, _ => false

/-- Whether two lists have equal items at every place. -/
def sameItems : List Datum → List Datum → Bool
  | [], ys => ys.isEmpty
  | x :: xs, ys => match ys with
      | [] => false
      | y :: ys => same x y && sameItems xs ys

/-- Whether every member has an equal one in the other list. -/
def sameMembers : List Datum → List Datum → Bool
  | [], _ => true
  | x :: xs, ys => ys.any (same x) && sameMembers xs ys

/-- Whether every entry has an equal one in the other list. -/
def sameEntries : List (Datum × Datum) → List (Datum × Datum) → Bool
  | [], _ => true
  | e :: es, fs => fs.any (sameEntry e) && sameEntries es fs

/-- Whether two entries have equal keys and values. -/
def sameEntry : Datum × Datum → Datum × Datum → Bool
  | (k, v), f => same k f.1 && same v f.2

end

instance : BEq Datum := ⟨same⟩

/-! ## Written forms -/

/-- The digits of a natural number. -/
def natText (n : Nat) : String := String.ofList (Nat.toDigits 10 n)

/-- The digits of an integer, with its sign if it is negative. -/
def intText (n : Int) : String :=
  if n < 0 then "-" ++ natText n.natAbs else natText n.natAbs

/-- Texts with a separator between them. -/
def joinWith (separator : String) (parts : List String) : String :=
  separator.intercalate parts

/-- The written form of a tuple with these items. -/
def tupleText : List String → String
  | [item] => "(" ++ item ++ ",)"
  | items => "(" ++ joinWith ", " items ++ ")"

/-- The written form of a set with these members. -/
def setText (frozen : Bool) (members : List String) : String :=
  if members.isEmpty then (if frozen then "frozenset()" else "set()")
  else
    let braced := "\x7b" ++ joinWith ", " members ++ "\x7d"
    if frozen then "frozenset(" ++ braced ++ ")" else braced

mutual

/-- The written form of a value; texts are quoted. -/
def render : Datum → String
  | .null => "None"
  | .bool b => if b then "True" else "False"
  | .int n => intText n
  | .real x => x.render
  | .text s => Text.quote s
  | .list items => "[" ++ joinWith ", " (renderItems items) ++ "]"
  | .tuple items => tupleText (renderItems items)
  | .set frozen members => setText frozen (renderItems members)
  | .dict entries => "\x7b" ++ joinWith ", " (renderEntries entries) ++ "\x7d"
  | .production n l r =>
      "Production(" ++ render n ++ ", " ++ render l ++ ", " ++ tupleText (renderItems r) ++ ")"
  | .grammar lines _ => "Grammar([" ++ joinWith ", " (lines.map Text.quote) ++ "])"
  | .file _ => "<file>"

/-- The written forms of the items of a list. -/
def renderItems : List Datum → List String
  | [] => []
  | x :: xs => render x :: renderItems xs

/-- The written forms of the entries of a dictionary. -/
def renderEntries : List (Datum × Datum) → List String
  | [] => []
  | e :: es => renderEntry e :: renderEntries es

/-- The written form of one entry. -/
def renderEntry : Datum × Datum → String
  | (k, v) => render k ++ ": " ++ render v

end

/-- The text of a value: texts as they are, other values in their written form. -/
def display : Datum → String
  | .text s => s
  | d => d.render

/-! ## Kinds of values -/

/-- The name of the type of a value. -/
def typeName : Datum → String
  | .null => "NoneType"
  | .bool _ => "bool"
  | .int _ => "int"
  | .real _ => "float"
  | .text _ => "str"
  | .list _ => "list"
  | .tuple _ => "tuple"
  | .set frozen _ => if frozen then "frozenset" else "set"
  | .dict _ => "dict"
  | .production _ _ _ => "Production"
  | .grammar _ _ => "Grammar"
  | .file _ => "StringIO"

/-- Whether a value counts as true: numbers other than zero, and texts and collections that are not
empty. -/
def truthy : Datum → Bool
  | .null => false
  | .bool b => b
  | .int n => n ≠ 0
  | .real x => !x.isZero
  | .text s => s ≠ ""
  | .list items => !items.isEmpty
  | .tuple items => !items.isEmpty
  | .set _ members => !members.isEmpty
  | .dict entries => !entries.isEmpty
  | .production _ _ _ => true
  | .grammar lines _ => !lines.isEmpty
  | .file _ => true

/-- The text of a value that is one. -/
def text? : Datum → Option String
  | .text s => some s
  | _ => none

/-- The texts of values that all are texts. -/
def texts? : List Datum → Option (List String)
  | [] => some []
  | d :: ds => do
      let s ← d.text?
      let rest ← texts? ds
      some (s :: rest)

/-- The integer that a value stands for; truth values are zero and one. -/
def int? : Datum → Option Int
  | .int n => some n
  | .bool b => some (ofBool b)
  | _ => none

/-- The lines of a text with their line feeds. -/
def fullLines : List Char → List Char → List (List Char)
  | [], [] => []
  | [], line => [line.reverse]
  | c :: cs, line =>
      if c = '\n' then (c :: line).reverse :: fullLines cs [] else fullLines cs (c :: line)

/-- The items of a value that can be gone through one by one: those of a collection, the keys of a
dictionary, the characters of a text, the lines of a file. -/
def items? : Datum → Option (List Datum)
  | .list items => some items
  | .tuple items => some items
  | .set _ members => some members
  | .dict entries => some (entries.map (·.1))
  | .text s => some (s.toList.map fun c => .text (String.singleton c))
  | .file s => some ((fullLines s.toList []).map fun line => .text (String.ofList line))
  | _ => none

mutual

/-- Whether a value can be a key: it holds no list, no dictionary and no set that is not frozen. -/
def isKey : Datum → Bool
  | .list _ => false
  | .dict _ => false
  | .tuple items => areKeys items
  | .set frozen _ => frozen
  | _ => true

/-- Whether every value of a list can be a key. -/
def areKeys : List Datum → Bool
  | [] => true
  | x :: xs => isKey x && areKeys xs

end

/-! ## Dictionaries -/

/-- The dictionary with text keys. -/
def ofFields (fields : List (String × Datum)) : Datum :=
  .dict (fields.map fun f => (.text f.1, f.2))

/-- The value of a dictionary at a text key. -/
def field? (d : Datum) (name : String) : Option Datum :=
  match d with
  | .dict entries => OrderedMap.lookupEntry (.text name) entries
  | _ => none

end Datum

end Predictive
