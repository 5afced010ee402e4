import Predictive.Unchecked.Table

/-!
# Archives

An archive is an untyped value from which a production, a grammar or a table can be had again. There
is none of a grammar that holds a set whose members have no order. A record is a dictionary that holds
the name of its kind under `recordKey`, next to its fields. Every dictionary with that key is taken for
a record wherever it stands in an archive, and its name must be one of those that are known there; a
missing key is reported with the records around it.

`revive` reads what stands in an archive. What it gives for a grammar or a table may be of any kind;
`toTable` takes only values of the right kinds.
-/

set_option autoImplicit false

namespace Predictive.Archive

/-- The key under which a record holds the name of its kind. -/
def recordKey : String := "__type__"

/-- The name of the kind of a record. -/
def kindName : RecordKind → String
  | .grammar => "Grammar"
  | .production => "Production"
  | .table => "ParseTable"

/-! ## Writing -/

/-- The record of a kind with its fields. -/
def record (kind : String) (fields : List (String × Datum)) : Datum :=
  .ofFields (fields ++ [(recordKey, .text kind)])

/-- The members of a set in their order; those without an order stay as they come. -/
def listed (members : List Datum) : List Datum :=
  match Unchecked.ordered members with
  | .ok sorted => sorted
  | .error _ => members

mutual

/-- The value as it stands in an archive: every tuple and every set as a list, every production as a
record. The members of a set are put in their order; they stay as they are. -/
def plain : Datum → Datum
  | .list items => .list (plainItems items)
  | .tuple items => .list (plainItems items)
  | .set _ members => .list (listed members)
  | .dict entries => .dict (plainEntries entries)
  | .production number lhs rhs =>
      record (kindName .production)
        [("number", plain number), ("lhs", plain lhs), ("rhs", .list (plainItems rhs))]
  | .null => .null
  | .bool b => .bool b
  | .int n => .int n
  | .real x => .real x
  | .text s => .text s
  | .grammar lines archive => archive.getD (.grammar lines none)
  | .file s => .file s

/-- The items as they stand in an archive. -/
def plainItems : List Datum → List Datum
  | [] => []
  | x :: xs => plain x :: plainItems xs

/-- The entries as they stand in an archive; keys stay as they are. -/
def plainEntries : List (Datum × Datum) → List (Datum × Datum)
  | [] => []
  | e :: es => plainEntry e :: plainEntries es

/-- One entry as it stands in an archive. -/
def plainEntry : Datum × Datum → Datum × Datum
  | (k, v) => (k, plain v)

end

mutual

/-- Whether a value can be archived: the members of each set in it have an order, and each grammar in
it has an archive. -/
def isArchivable : Datum → Bool
  | .list items => areArchivable items
  | .tuple items => areArchivable items
  | .set _ members => (Unchecked.ordered members).isOk
  | .dict entries => entriesArchivable entries
  | .production number lhs rhs => isArchivable number && isArchivable lhs && areArchivable rhs
  | .grammar _ archive => archive.isSome
  | _ => true

/-- Whether all items can be archived. -/
def areArchivable : List Datum → Bool
  | [] => true
  | x :: xs => isArchivable x && areArchivable xs

/-- Whether the values of all entries can be archived. -/
def entriesArchivable : List (Datum × Datum) → Bool
  | [] => true
  | e :: es => entryArchivable e && entriesArchivable es

/-- Whether the value of one entry can be archived. -/
def entryArchivable : Datum × Datum → Bool
  | (_, v) => isArchivable v

end

/-- The archive of a production. -/
def ofProduction (p : Production) : Datum := plain (Unchecked.Grammar.productionDatum p)

/-- The record of an unchecked grammar. -/
def grammarRecord (g : Unchecked.Grammar) : Datum :=
  record (kindName .grammar)
    [("productions", plain g.productions),
     ("start_symbol", plain g.start),
     ("user_lex_rules", plain g.lexicon),
     ("original_bnf", plain g.source.rules),
     ("original_lex", plain g.source.lexicon)]

/-- The archive of an unchecked grammar, all values of which have to be such that can be archived. -/
def ofUnchecked (g : Unchecked.Grammar) : Except Failure Datum :=
  if areArchivable [g.productions, g.start, g.lexicon, g.source.rules, g.source.lexicon] then
    .ok (grammarRecord g)
  else .error .wrongType

/-- The archive of a grammar. -/
def ofGrammar (g : Grammar) : Except Failure Datum := ofUnchecked (.ofChecked g)

/-- The record of the rows of a table. -/
def tableRecord (rows : Datum) : Datum := record (kindName .table) [("table", plain rows)]

/-- The archive of the rows of a table. -/
def ofRows (rows : Datum) : Except Failure Datum :=
  if isArchivable rows then .ok (tableRecord rows) else .error .wrongType

/-- The archive of a table. -/
def ofTable (t : ParseTable) : Datum := tableRecord t.toDatum

/-! ## Reading -/

/-- The result of reading with the record around it added to a missing key. -/
def within {α : Type} (kind : RecordKind) : Except Failure α → Except Failure α
  | .error (.missingKey key) => .error (.missingKey (.inside kind key))
  | r => r

/-- The field of a value that should be a record. -/
def fieldOf (d : Datum) (name : String) : Except Failure Datum :=
  match d with
  | .dict _ =>
      match d.field? name with
      | some v => .ok v
      | none => .error (.missingKey (.key (.text name)))
  | _ => .error .wrongType

/-- The field of a production, among the results of reading its entries. -/
def partOf (parts : List (Datum × Except Failure Datum)) (name : String) : Except Failure Datum :=
  within .production <|
    match OrderedMap.lookupEntry (.text name) parts with
    | some r => r
    | none => .error (.missingKey (.key (.text name)))

/-- The production of the results of reading the entries of its record. All its parts have to be
ones that can be keys. -/
def production (parts : List (Datum × Except Failure Datum)) : Except Failure Datum := do
  let number ← partOf parts "number"
  let lhs ← partOf parts "lhs"
  let rhs ← partOf parts "rhs"
  match rhs.items? with
  | none => .error .wrongType
  | some rhs =>
      if number.isKey && lhs.isKey && Datum.areKeys rhs then .ok (.production number lhs rhs)
      else .error .wrongType

/-- The entries of which all values could be read. -/
def collected : List (Datum × Except Failure Datum) → Except Failure (List (Datum × Datum))
  | [] => .ok []
  | e :: es => do
      let v ← e.2
      let rest ← collected es
      .ok ((e.1, v) :: rest)

mutual

/-- The value that stands in an archive, with its records. `known` tells whether a production may
stand there; no other record may. -/
def revive (known : Bool) : Datum → Except Failure Datum
  | .dict entries =>
      match OrderedMap.lookupEntry (.text recordKey) entries with
      | none => do
          let entries ← collected (reviveEntries known entries)
          .ok (.dict entries)
      | some kind =>
          if known && kind == .text (kindName .production) then
            production (reviveEntries false entries)
          else if kind.isKey then .error (.missingKey (.key kind))
          else .error .wrongType
  | .list items => do
      let items ← reviveItems known items
      .ok (.list items)
  | d => .ok d

/-- The values of the items of a list. -/
def reviveItems (known : Bool) : List Datum → Except Failure (List Datum)
  | [] => .ok []
  | x :: xs => do
      let y ← revive known x
      let ys ← reviveItems known xs
      .ok (y :: ys)

/-- The results of reading the values of entries. -/
def reviveEntries (known : Bool) : List (Datum × Datum) → List (Datum × Except Failure Datum)
  | [] => []
  | e :: es => reviveEntry known e :: reviveEntries known es

/-- The result of reading the value of one entry. -/
def reviveEntry (known : Bool) : Datum × Datum → Datum × Except Failure Datum
  | (k, v) => (k, revive known v)

end

/-- A field of a record of a kind, with the records inside it. -/
def readField (kind : RecordKind) (known : Bool) (d : Datum) (name : String) :
    Except Failure Datum :=
  within kind do
    let v ← fieldOf d name
    revive known v

/-- A value that has to be of the right kind. -/
def required {α : Type} : Option α → Except Failure α
  | some a => .ok a
  | none => .error .wrongType

/-- The production of an archive. -/
def toProduction (d : Datum) : Except Failure Production :=
  match d with
  | .dict entries => do
      let p ← production (reviveEntries false entries)
      required (Unchecked.Grammar.production? p)
  | _ => .error .wrongType

/-- The unchecked grammar of an archive. -/
def toUnchecked (d : Datum) : Except Failure Unchecked.Grammar := do
  let productions ← readField .grammar true d "productions"
  let start ← readField .grammar true d "start_symbol"
  let lexicon ← readField .grammar true d "user_lex_rules"
  let rules ← readField .grammar true d "original_bnf"
  let lexicalSource ← readField .grammar true d "original_lex"
  .ok ⟨productions, start, lexicon, ⟨rules, lexicalSource⟩⟩

/-- The rows of the table of an archive. -/
def toRows (d : Datum) : Except Failure Datum := readField .table false d "table"

/-- The table of an archive. -/
def toTable (d : Datum) : Except Failure ParseTable := do
  let rows ← toRows d
  required (Unchecked.Table.checked? rows)

end Predictive.Archive
