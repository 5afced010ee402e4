import Predictive.Any.Analyzer
import Predictive.Unchecked.Recognizer

/-!
# Recognizers of any grammars

A recognizer whose grammar and table are of either kind. A run gives its result, the state in which
it ended and the place that the lexer had reached, all in values.
-/

set_option autoImplicit false

namespace Predictive

/-- A recognizer of either kind. -/
inductive AnyRecognizer where
  | checked (r : Recognizer)
  | unchecked (r : Unchecked.Recognizer)

/-- What a recognition leaves. -/
structure Recognition where
  result : Except Failure (List Datum)
  /-- The stack from its bottom to its top. -/
  stack : List Datum
  /-- The numbers of the productions used. -/
  numbers : List Datum
  place : LineCounter

namespace AnyRecognizer

/-- The recognizer of a grammar, with a table or with the one that is built for it. -/
def ofGrammar (compiler : PatternCompiler) (g : AnyGrammar) (table : Option ParseTable) :
    Except Failure AnyRecognizer :=
  match g with
  | .checked g => do
      let table ← match table with
        | some t => pure t
        | none => match (ParseTable.build g false .empty).result g with
          | .ok t => pure t
          | .error fault => .error (.grammar fault)
      let lexer ← Lexer.ofGrammar g compiler (.int 0)
      .ok (.checked ⟨g, table, lexer⟩)
  | .unchecked g => do
      let rows ← match table with
        | some t => pure t.toDatum
        | none => ((Unchecked.Table.build g false false).run .empty).1.1
      let lexer ← Unchecked.Lexer.ofGrammar g compiler (.int 0)
      .ok (.unchecked ⟨g, rows, lexer⟩)

/-- Runs on a text after some of its tokens, with a stack from bottom to top if one is given. -/
def recognize (text : String) (skipped : Nat) (stack : Option (List Symbol)) :
    AnyRecognizer → Recognition
  | .checked r =>
      let text := text.toList.toArray
      let start := r.lexer.skip text skipped .start
      let first := r.stateAt text start ((stack.map List.reverse).getD r.startStack)
      let (result, last) := r.recognize first
      ⟨result.map fun ns => ns.map .int, last.shownStack.map .text, last.numbers.map .int,
        r.placeIn text start first last⟩
  | .unchecked r =>
      let text := text.toList.toArray
      let stack := (stack.map fun s => s.reverse.map Datum.text).getD r.startStack
      match r.lexer.skip text skipped .start with
      | .error failure => ⟨.error failure, stack.reverse, [], .start⟩
      | .ok start =>
          let (result, last) := r.recognizeFrom text start stack
          ⟨result, last.stack.reverse, last.used.reverse, last.place⟩

/-- Parses a text: the result, and what is logged under tracing. -/
def parse (text : String) (tracing : Bool) :
    AnyRecognizer → Except Failure (List Datum) × Log
  | .checked r =>
      let result := r.recognizeText text
      (result.1.map fun ns => ns.map .int,
        if tracing then Recognizer.rejectionLog result else [])
  | .unchecked r =>
      let result := r.recognizeFrom text.toList.toArray .start r.startStack
      if tracing then Unchecked.Recognizer.traced result else (result.1, [])

/-- Expands a symbol before a token of a kind, above a stack from bottom to top: the stack and the
numbers after it. -/
def expand (nonterminal kind : Symbol) (stack : List Symbol) :
    AnyRecognizer → Except Failure (List Datum × List Datum)
  | .checked r => do
      let c ← r.expand nonterminal ⟨.ofKind kind kind, [], stack.reverse, []⟩
      .ok (c.shownStack.map .text, c.numbers.map .int)
  | .unchecked r => do
      let c ← r.expand (.text nonterminal)
        ⟨(.text kind, .ofKind kind kind), .start, stack.reverse.map .text, []⟩
      .ok (c.stack.reverse, c.used.reverse)

end AnyRecognizer

end Predictive
