import Predictive.Any.Analyzer
import Predictive.Engine.Cached
import Predictive.Unchecked.Engine

/-!
# Engines of any grammars

An engine of either kind: a checked one if its grammar and its table are of the right kinds, and an
unchecked one otherwise. It is made, kept and loaded like a checked one, and its answers are values.
-/

set_option autoImplicit false

namespace Predictive

/-- An engine of either kind. -/
inductive AnyEngine where
  | checked (e : Engine)
  | unchecked (e : Unchecked.Engine)

namespace AnyEngine

/-! ## Making engines -/

/-- The engine of what a grammar can be given as, with the log of its making. -/
def build (p : Platform) (input : AnyInput) (o : Options) : Except Failure (AnyEngine × Log) := do
  let (g, warnings) ← AnyGrammar.obtain input
  match g with
  | .checked g =>
      let (e, log) ← Engine.ofGrammar p g o
      .ok (.checked e, warnings ++ log)
  | .unchecked g =>
      let (e, log) ← Unchecked.Engine.ofGrammar p g o
      .ok (.unchecked e, warnings ++ log)

/-- The engine of an archive, with some options given anew. -/
def load (p : Platform) (d : Datum) (given : Options.Given) : Except Failure AnyEngine := do
  let parts ← Engine.savedParts d given
  match parts.grammar.checked?, Unchecked.Table.checked? parts.rows with
  | some g, some t =>
      let e ← Engine.assemble p g t parts.options .empty
      .ok (.checked e)
  | _, _ =>
      let e ← Unchecked.Engine.assemble p parts.grammar parts.rows parts.options .empty
      .ok (.unchecked e)

/-- The archive of an engine. -/
def toArchive : AnyEngine → Except Failure Datum
  | .checked e => e.toArchive
  | .unchecked e => e.toArchive

/-- The engine that is loaded from the archive of an engine, with some options given anew. -/
def reload (p : Platform) (a : AnyEngine) (anew : Options.Given) : Except Failure AnyEngine := do
  let d ← a.toArchive
  load p d anew

/-- How the engine of an input is made. -/
def maker (p : Platform) (input : AnyInput) : Engine.Maker AnyEngine :=
  { build := build p input
    source := match input with
      | .given input => Engine.cacheSource input
      | .unchecked _ => .error (.option .cacheWithoutText)
    load := load p
    toArchive := toArchive }

/-- The engine of what a grammar can be given as under given options, with the log of its making; and
the file store after it. -/
def make (p : Platform) (scheme : Engine.CacheScheme) (input : AnyInput) (given : Options.Given)
    (s : FileStore) : Except Failure (AnyEngine × Log) × FileStore :=
  (maker p input).run scheme given s

/-- The engine of the grammar in a file. -/
def openFile (p : Platform) (scheme : Engine.CacheScheme) (path : String) (given : Options.Given)
    (s : FileStore) : Except Failure (AnyEngine × Log) × FileStore :=
  match s.readText? path with
  | some text => make p scheme (.given (.file text)) given s
  | none => (.error (s.fault false path), s)

/-! ## Using engines -/

/-- Parses a text: the result, and what is logged. -/
def run (text : String) : AnyEngine → Except Failure (List Datum) × Log
  | .checked e =>
      let (result, log) := e.run text
      (result.map fun ns => ns.map .int, log)
  | .unchecked e => e.run text

/-- The tokens of a text. -/
def lex (text : String) : AnyEngine → Except Failure (List Unchecked.KindedToken)
  | .checked e => .ok ((e.lex text).map fun t => (.text t.kind, t))
  | .unchecked e => e.lex text

/-- The analysis of an engine, by which questions about the sets are answered. -/
def analyzer : AnyEngine → Analyzer
  | .checked e => .checked e.grammar ⟨e.memo, none⟩
  | .unchecked e => .unchecked e.grammar e.memo none

/-- The engine with the memo of an analysis. -/
def withAnalyzer : AnyEngine → Analyzer → AnyEngine
  | .checked e, .checked _ a => .checked { e with memo := a.memo }
  | .unchecked e, .unchecked _ m _ => .unchecked { e with memo := m }
  | e, _ => e

/-- Answers a question about the sets of the grammar, and gives the engine for the next one. -/
def ask (q : Query) (e : AnyEngine) : Except Failure Datum × AnyEngine :=
  let (answer, a) := e.analyzer.ask q
  (answer, e.withAnalyzer a)

/-- The rows of the table, each as the pair of its nonterminal and its entries. -/
def table : AnyEngine → Except Failure Datum
  | .checked e => Unchecked.Table.pairs e.table.toDatum
  | .unchecked e => Unchecked.Table.pairs e.table

/-- One row of the table for every nonterminal, with a cell for every column. -/
def grid (columns : List Symbol) (blank : Datum) : AnyEngine → Except Failure (List (List Datum))
  | .checked e => .ok (e.table.grid columns blank)
  | .unchecked e => Unchecked.Table.grid e.table (columns.map .text) blank

/-- The columns of the table when it is shown. -/
def columns : AnyEngine → Except Failure (List Datum)
  | .checked e => .ok ((Engine.columnsOf e.grammar).map .text)
  | .unchecked e => Unchecked.Engine.columnsOf e.grammar

/-- The options of an engine. -/
def options : AnyEngine → Options
  | .checked e => e.options
  | .unchecked e => e.options

/-- The engine with a new value for a named option. -/
def setOption (name : String) (value : Datum) : AnyEngine → Except Failure AnyEngine
  | .checked e => (e.setOption name value).map .checked
  | .unchecked e => do
      let options ← e.options.assign name value
      .ok (.unchecked { e with options := options })

/-- The engine by its grammar. -/
def describe : AnyEngine → Except Failure String
  | .checked e => .ok e.describe
  | .unchecked e => e.describe

/-! ## Reports -/

/-- The report of the grammar. -/
def grammarReport : AnyEngine → Except Failure String
  | .checked e => .ok (Report.grammar e.grammar)
  | .unchecked e => Unchecked.Engine.grammarReport e.grammar

/-- The report of the sets that a question asks for, and the engine for the next one. -/
def setsReport (q : Query) (labelHeader setHeader : String) :
    AnyEngine → Except Failure String × AnyEngine
  | .checked e =>
      let (answer, e) := e.ask q
      (match answer with
        | .ok (.sets entries) => Report.sets entries labelHeader setHeader
        | .ok (.set _) => .error .noAttribute
        | .error fault => .error (.grammar fault), .checked e)
  | .unchecked e =>
      let (answer, e) := e.ask q
      (match answer with
        | .ok (.sets entries) => Unchecked.Engine.setsReport entries labelHeader setHeader
        | .ok (.set _) => .error .noAttribute
        | .error failure => .error failure, .unchecked e)

/-- The report of the table. -/
def tableReport : AnyEngine → Except Failure String
  | .checked e => Report.table e
  | .unchecked e => e.tableReport

/-- The verdict on a text, with what is logged on the way. -/
def verdict (text : String) : AnyEngine → Except Failure Report.Verdict × Log
  | .checked e => Report.verdict e text
  | .unchecked e => e.verdict text

end AnyEngine

end Predictive
