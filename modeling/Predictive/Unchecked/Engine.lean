import Predictive.Engine.Saved
import Predictive.Report
import Predictive.Template
import Predictive.Unchecked.Recognizer

/-!
# Engines of unchecked grammars

An engine whose grammar or table holds values of other kinds than it should. It does what an engine
does, as far as its values allow, and tells the same about itself.
-/

set_option autoImplicit false

namespace Predictive.Unchecked

/-- An unchecked grammar made ready for use. -/
structure Engine where
  recognizer : Recognizer
  options : Options
  /-- Whether rejections are logged, which is settled when the engine is made. -/
  tracing : Bool
  memo : Memo

namespace Engine

/-- The grammar of an engine. -/
def grammar (e : Engine) : Grammar := e.recognizer.grammar

/-- The rows of the table of an engine. -/
def table (e : Engine) : Datum := e.recognizer.table

/-- The lexer of a grammar under options. -/
def lexerOf (p : Platform) (g : Grammar) (o : Options) : Except Failure Lexer := do
  let compiler ← p.compiler o
  Lexer.ofGrammar g compiler o.flags

/-- The engine of a grammar and a table. -/
def assemble (p : Platform) (g : Grammar) (rows : Datum) (o : Options) (m : Memo) :
    Except Failure Engine := do
  let lexer ← lexerOf p g o
  .ok ⟨⟨g, rows, lexer⟩, o, o.debug.truthy, m⟩

/-- The engine of a grammar, with the log of its making. -/
def ofGrammar (p : Platform) (g : Grammar) (o : Options) : Except Failure (Engine × Log) := do
  let ((result, log), memo) := (Table.build g o.strict.truthy o.debug.truthy).run .empty
  let rows ← result
  let e ← assemble p g rows o memo
  .ok (e, log)

/-- Parses a text: the result, and what is logged. -/
def run (e : Engine) (text : String) : Except Failure (List Datum) × Log :=
  let result := e.recognizer.recognizeFrom text.toList.toArray .start e.recognizer.startStack
  if e.tracing then Recognizer.traced result else (result.1, [])

/-- The tokens of a text. -/
def lex (e : Engine) (text : String) : Except Failure (List KindedToken) :=
  e.recognizer.lexer.tokens text

/-- Answers a question about the sets of the grammar, and gives the engine for the next one. -/
def ask (e : Engine) (q : Query) : Except Failure Answer × Engine :=
  let (answer, m) := (answer e.grammar q).run.run e.memo
  (answer, { e with memo := m })

/-- The columns of the table when it is shown: terminals, lexical variables, the end marker. -/
def columnsOf (g : Grammar) : Except Failure (List Datum) := do
  let terminals ← g.terminals
  let names ← g.lexicalVariables
  .ok (terminals ++ names ++ [endMarker])

/-- The engine by its grammar. -/
def describe (e : Engine) : Except Failure String := do
  let grammar ← e.grammar.describe
  .ok ("LL1(" ++ grammar ++ ", ...)")

/-- The archive of an engine. -/
def toArchive (e : Engine) : Except Failure Datum := do
  let grammar ← Archive.ofUnchecked e.grammar
  let table ← Archive.ofRows e.table
  .ok (Predictive.Engine.record grammar table e.options)

/-! ## Reports -/

/-- The numbered line of a production. -/
def productionLine (p : Datum) : Except Failure String := do
  let number ← Template.wholeOf (← numberOf p)
  let line ← Grammar.lineOf p
  .ok ("  " ++ Datum.intText number ++ ". " ++ line ++ "\n")

/-- The report of a grammar. -/
def grammarReport (g : Grammar) : Except Failure String := do
  let lines ← (← g.productionList).mapM productionLine
  .ok ("\nGrammar:\n\n" ++ String.join lines ++ "\n")

/-- The report of sets under two headers. -/
def setsReport (sets : List (Datum × List Datum)) (labelHeader setHeader : String) :
    Except Failure String := do
  let shown ← sets.mapM fun e => do
    let members ← orderedTexts e.2
    pure (e.1.display, members)
  Report.members shown labelHeader setHeader

/-- The report of the table of an engine. -/
def tableReport (e : Engine) : Except Failure String := do
  let columns ← columnsOf e.grammar
  let grid ← Table.grid e.table columns ParseTable.blankCell
  Report.rows (columns.map Datum.display) grid

/-- The verdict on a text, with what is logged on the way. -/
def verdict (e : Engine) (text : String) : Except Failure Report.Verdict × Log :=
  let (result, log) := e.run text
  (Report.judged text (result.map fun numbers => numbers.map Datum.display), log)

end Engine

end Predictive.Unchecked
