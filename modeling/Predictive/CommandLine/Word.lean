import Predictive.Unicode.Digit

/-!
# Words of a command line

A word of a command line is an option or a value. A long option may be shortened as long as only one
option begins that way, and may carry a value after an equals sign; a short one may carry its value,
or more short options, in the same word, with or without an equals sign before them. Words that look
like negative numbers or hold a blank are values unless they are options, and after a lone double
dash every word is one.
-/

set_option autoImplicit false

namespace Predictive.CommandLine

/-- The options of the command line. -/
inductive Switch where
  | help
  /-- The file that the report goes to. -/
  | output
  /-- A file with lexical rules. -/
  | lexicon
  | debug
  | strict
  | package
  /-- A text to be parsed. -/
  | text
  /-- The sets are left out. -/
  | noSets
deriving Repr, DecidableEq

namespace Switch

/-- All options. -/
def all : List Switch := [.help, .output, .lexicon, .debug, .strict, .package, .text, .noSets]

/-- The short name of an option, if it has one. -/
def short? : Switch → Option Char
  | .help => some 'h'
  | .output => some 'o'
  | .lexicon => some 'x'
  | .debug => some 'd'
  | .text => some 'p'
  | .strict | .package | .noSets => none

/-- The long name of an option. -/
def long : Switch → List Char
  | .help => "help".toList
  | .output => "out".toList
  | .lexicon => "lex".toList
  | .debug => "debug".toList
  | .strict => "strict".toList
  | .package => "regex".toList
  | .text => "parse".toList
  | .noSets => "no-sets".toList

/-- Whether an option takes a value. -/
def takesValue : Switch → Bool
  | .output | .lexicon | .text => true
  | .help | .debug | .strict | .package | .noSets => false

/-- The option with a short name. -/
def ofShort? (c : Char) : Option Switch := all.find? fun s => s.short? == some c

/-- The option with a long name. -/
def ofLong? (name : List Char) : Option Switch := all.find? fun s => s.long == name

/-- The options whose long names begin like this. -/
def abbreviated (start : List Char) : List Switch := all.filter fun s => start.isPrefixOf s.long

end Switch

/-- What a word is. The characters attached to an option are those after its equals sign, or after
its short name. -/
inductive Word where
  | plain (s : String)
  /-- The double dash after which every word is plain. -/
  | separator
  | short (s : Switch) (attached : Option (List Char))
  | long (s : Switch) (attached : Option (List Char))
  /-- An option that there is not. -/
  | unknown
  /-- The beginning of several options. -/
  | ambiguous
deriving Repr, DecidableEq

namespace Word

/-- The part before the first equals sign, and the part after it if there is one. -/
def splitSign : List Char → List Char × Option (List Char)
  | [] => ([], none)
  | c :: cs =>
      if c = '=' then ([], some cs)
      else
        let (name, value) := splitSign cs
        (c :: name, value)

/-- Whether the characters after a dash make a negative number. -/
def isNumber (cs : List Char) : Bool :=
  let cs := if cs.getLast? = some '\n' then cs.dropLast else cs
  let rest := cs.dropWhile Unicode.isDigit
  match rest with
  | [] => !cs.isEmpty
  | c :: places => c = '.' && !places.isEmpty && places.all Unicode.isDigit

/-- The word after a dash that no option explains. -/
def unexplained (s : String) (cs : List Char) : Word :=
  if isNumber cs || s.toList.contains ' ' then .plain s else .unknown

/-- The word with a long option after two dashes. -/
def ofLong (s : String) (cs : List Char) : Word :=
  let (name, value) := splitSign cs
  match Switch.ofLong? name with
  | some switch => .long switch value
  | none =>
      match Switch.abbreviated name with
      | [] => unexplained s ('-' :: cs)
      | [switch] => .long switch value
      | _ :: _ :: _ => .ambiguous

/-- The word with a short option after a dash. -/
def ofShort (s : String) (c : Char) (cs : List Char) : Word :=
  match Switch.ofShort? c with
  | none => unexplained s (c :: cs)
  | some switch =>
      match cs with
      | [] => .short switch none
      | '=' :: value => .short switch (some value)
      | more => .short switch (some more)

/-- What a word before the double dash is. -/
def read (s : String) : Word :=
  match s.toList with
  | '-' :: '-' :: [] => .separator
  | '-' :: '-' :: cs => ofLong s cs
  | '-' :: c :: cs => ofShort s c cs
  | _ => .plain s

/-- The words of a command line. -/
def readAll : List String → List Word
  | [] => []
  | s :: rest =>
      match read s with
      | .separator => .separator :: rest.map .plain
      | word => word :: readAll rest

end Word

end Predictive.CommandLine
