import Predictive.Grammar.Reading
import Predictive.Lexer.Basic
import Predictive.Platform
import Predictive.Recognizer.Basic
import Predictive.Table.Build

/-!
# Engines

An engine is a grammar made ready for use: its table, its lexer, the options that it was made with,
and the memo of its analysis. `Engine.build` makes one from a grammar on a platform, `Engine.parse`
and `Engine.lex` apply it to a text, and `Engine.ask` answers questions about its sets.
-/

set_option autoImplicit false

namespace Predictive

/-- A grammar made ready for use. -/
structure Engine where
  recognizer : Recognizer
  options : Options
  /-- Whether rejections are logged, which is settled when the engine is made. -/
  tracing : Bool
  memo : Memo

namespace Engine

/-- The grammar of an engine. -/
def grammar (e : Engine) : Grammar := e.recognizer.grammar

/-- The table of an engine. -/
def table (e : Engine) : ParseTable := e.recognizer.table

/-- The lexer of an engine. -/
def lexer (e : Engine) : Lexer := e.recognizer.lexer

/-- The lexer of a grammar under options. The compiler is looked for even if there are no rules. -/
def lexerOf (p : Platform) (g : Grammar) (o : Options) : Except Failure Lexer := do
  let compiler ← p.compiler o
  Lexer.ofGrammar g compiler o.flags

/-- The engine of a grammar and a table. -/
def assemble (p : Platform) (g : Grammar) (t : ParseTable) (o : Options) (m : Memo) :
    Except Failure Engine := do
  let lexer ← lexerOf p g o
  .ok ⟨⟨g, t, lexer⟩, o, o.debug.truthy, m⟩

/-- The engine of a grammar, with the log of its making. -/
def ofGrammar (p : Platform) (g : Grammar) (o : Options) : Except Failure (Engine × Log) := do
  let b := ParseTable.build g o.strict.truthy .empty
  match b.result g with
  | .error fault => .error (.grammar fault)
  | .ok t =>
      let e ← assemble p g t o b.memo
      .ok (e, b.log g o.debug.truthy)

/-- The engine of what a grammar can be given as, with the log of its making. -/
def build (p : Platform) (input : GrammarInput) (o : Options) : Except Failure (Engine × Log) := do
  let (g, warnings) ← Grammar.obtain input
  let (e, log) ← ofGrammar p g o
  .ok (e, warnings ++ log)

/-- Parses a text: the result, and what is logged. -/
def run (e : Engine) (text : String) : Except Failure (List Int) × Log :=
  let result := e.recognizer.recognizeText text
  (result.1, if e.tracing then Recognizer.rejectionLog result else [])

/-- The numbers of the productions in the leftmost derivation of a text. -/
def parse (e : Engine) (text : String) : Except Failure (List Int) :=
  (e.run text).1

/-- The tokens of a text. -/
def lex (e : Engine) (text : String) : List Token :=
  e.lexer.tokens text

/-- Answers a question about the sets of the grammar, and gives the engine for the next one. -/
def ask (e : Engine) (q : Query) : Except GrammarFault Answer × Engine :=
  let (answer, m) := q.run e.grammar e.memo
  (answer, { e with memo := m })

/-- The columns of the table when it is shown: terminals, lexical variables, the end marker. -/
def columnsOf (g : Grammar) : List Symbol :=
  g.terminals ++ g.lexicalVariables ++ [Symbol.endMarker]

/-- The engine with a new value for a named option. -/
def setOption (e : Engine) (name : String) (value : Datum) : Except Failure Engine := do
  let options ← e.options.assign name value
  .ok { e with options := options }

/-- The engine by its grammar. -/
def describe (e : Engine) : String :=
  "LL1(" ++ e.grammar.describe ++ ", ...)"

end Engine

end Predictive
