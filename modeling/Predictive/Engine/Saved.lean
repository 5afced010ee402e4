import Predictive.Archive
import Predictive.Engine.Basic

/-!
# Saved engines

The archive of an engine holds its grammar, its table and its options; there is none if the grammar
has none. Loading makes an engine of an archive again; options that change neither the grammar nor the
table may be given anew. The memo of a loaded engine is empty, and nothing is logged.

`savedParts` takes whatever an archive holds; `load` needs a grammar and a table of the right kinds.
-/

set_option autoImplicit false

namespace Predictive.Engine

/-- The record of an engine whose grammar and table are archived. -/
def record (grammar table : Datum) (o : Options) : Datum :=
  Archive.record "LL1" [("grammar", grammar), ("parse_table", table), ("options", o.toDatum)]

/-- The archive of an engine. -/
def toArchive (e : Engine) : Except Failure Datum := do
  let grammar ← Archive.ofGrammar e.grammar
  .ok (record grammar (Archive.ofTable e.table) e.options)

/-- The names of given options that must not be given on loading, each once. -/
def refusedNames (given : Options.Given) : List String :=
  distinct ((given.map (·.1)).filter fun name =>
    !((OptionName.ofText? name).any OptionName.isLoadable))

/-- The entries with given options put in. -/
def override (given : Options.Given) (entries : List (Datum × Datum)) : List (Datum × Datum) :=
  given.foldl (fun es e => OrderedMap.insertEntry (.text e.1) e.2 es) entries

/-- The field of an archived engine. -/
def savedField (d : Datum) (name : String) : Except Failure Datum :=
  Archive.fieldOf d name

/-- The parts of an archived engine, of which the grammar and the table may be of any kind. -/
structure SavedParts where
  options : Options
  grammar : Unchecked.Grammar
  rows : Datum

/-- The parts that an archive holds, with some options given anew. -/
def savedParts (d : Datum) (given : Options.Given) : Except Failure SavedParts := do
  match refusedNames given with
  | [] => pure ()
  | names => .error (.option (.notLoadable names))
  let saved ← savedField d "options"
  let entries ← Unchecked.entriesOf saved
  let options ← Options.ofEntries (override given entries)
  let grammar ← savedField d "grammar"
  let grammar ← Archive.toUnchecked grammar
  let table ← savedField d "parse_table"
  let rows ← Archive.toRows table
  .ok ⟨options, grammar, rows⟩

/-- The engine of an archive, with some options given anew. -/
def load (p : Platform) (d : Datum) (given : Options.Given) : Except Failure Engine := do
  let parts ← savedParts d given
  let grammar ← Archive.required parts.grammar.checked?
  let table ← Archive.required (Unchecked.Table.checked? parts.rows)
  assemble p grammar table parts.options .empty

end Predictive.Engine
