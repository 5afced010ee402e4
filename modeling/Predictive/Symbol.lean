/-!
# Grammar symbols

A symbol is a text. Terminals are the symbols in double quotes; the empty symbol `ε` stands for the
empty sequence, and the end marker `$` for the end of the input and the bottom of the stack. Every
other symbol is a lexical variable or a nonterminal, which only a grammar can tell.
-/

set_option autoImplicit false

namespace Predictive

/-- A grammar symbol. -/
abbrev Symbol := String

namespace Symbol

/-- The empty sequence, as a symbol. -/
def empty : Symbol := "ε"

/-- The end of the input, and the bottom of the stack. -/
def endMarker : Symbol := "$"

/-- Whether the characters begin and end with a double quote, at two places. -/
def quotedChars : List Char → Bool
  | '"' :: cs => cs.getLast? == some '"'
  | _ => false

/-- Whether the symbol is a terminal: a text in double quotes. -/
def isTerminal (s : Symbol) : Bool :=
  quotedChars s.toList

/-- The terminal that stands for a text. -/
def terminal (text : String) : Symbol :=
  String.ofList ('"' :: text.toList ++ ['"'])

theorem isTerminal_terminal (text : String) : isTerminal (terminal text) = true := by
  simp [isTerminal, terminal, quotedChars]

end Symbol

/-- What a symbol is in a grammar. -/
inductive SymbolKind where
  | terminal
  | lexicalVariable
  | nonterminal
  | empty
  | endMarker
deriving Repr, DecidableEq

end Predictive
