import Predictive.CommandLine.Word

/-!
# Requests

The words of a command line ask for actions, one after the other, and may be at fault. Faults do not
undo the actions before them, so a reading of the words gives both.
-/

set_option autoImplicit false

namespace Predictive.CommandLine

/-- What a command line asks for. -/
inductive Action where
  | help
  | output (path : String)
  | lexicon (path : String)
  | grammar (path : String)
  | debug
  | strict
  | package
  | text (s : String)
  | noSets
  /-- An option with a double dash for its value, which counts as no value. -/
  | bare (s : Switch)
deriving Repr, DecidableEq

/-- The actions of a command line in their order, and whether its words are right. -/
structure Request where
  actions : List Action
  valid : Bool
deriving Repr, DecidableEq

namespace Request

/-- The action of an option without a value. -/
def flagAction : Switch → Action
  | .help => .help
  | .debug => .debug
  | .strict => .strict
  | .package => .package
  | .noSets => .noSets
  | .output => .bare .output
  | .lexicon => .bare .lexicon
  | .text => .bare .text

/-- The action of an option with a value; a double dash counts as none. -/
def valueAction (value : String) (s : Switch) : Action :=
  if value = "--" then flagAction s
  else
    match s with
    | .output => .output value
    | .lexicon => .lexicon value
    | .text => .text value
    | s => flagAction s

/-- What a word with options asks for. -/
structure Cluster where
  actions : List Action
  /-- The option at the end that takes its value from the next word. -/
  waiting : Option Switch

/-- Puts an action in front. -/
def Cluster.after (a : Action) (c : Cluster) : Cluster := { c with actions := a :: c.actions }

/-- What a short option with the characters attached to it asks for: they are its value if it takes
one, and more short options if not. There is no answer when they are neither. -/
def cluster (s : Switch) (attached : List Char) : Option Cluster :=
  if s.takesValue then some ⟨[valueAction (String.ofList attached) s], none⟩
  else
    match attached with
    | [] => none
    | c :: rest =>
        match Switch.ofShort? c, rest with
        | none, _ => none
        | some next, [] =>
            if next.takesValue then some ⟨[flagAction s], some next⟩
            else some ⟨[flagAction s, flagAction next], none⟩
        | some next, rest => (cluster next rest).map (Cluster.after (flagAction s))
termination_by attached.length

/-- What an option with nothing attached asks for. -/
def alone (s : Switch) : Cluster :=
  if s.takesValue then ⟨[], some s⟩ else ⟨[flagAction s], none⟩

/-- What a long option with a value asks for; there is no answer when it takes none. -/
def withValue (s : Switch) (value : List Char) : Option Cluster :=
  if s.takesValue then some ⟨[valueAction (String.ofList value) s], none⟩ else none

/-- Puts actions in front. -/
def after (actions : List Action) (r : Request) : Request :=
  { r with actions := actions ++ r.actions }

/-- The request with a fault. -/
def faulty (r : Request) : Request := { r with valid := false }

/-- The request of nothing, with a fault. -/
def refused : Request := ⟨[], false⟩

/-- Where a reading of the words stands. -/
inductive Stage where
  /-- The path of the grammar is still to come. -/
  | needsGrammar
  /-- The word before was the path of the grammar. -/
  | tookGrammar
  | hasGrammar
  /-- The next word is the value of an option; the actions of the word before wait for it. -/
  | needsValue (s : Switch) (pending : List Action) (grammarIsKnown : Bool)
deriving Repr, DecidableEq

/-- Whether the path of the grammar is known. -/
def Stage.knowsGrammar : Stage → Bool
  | .needsGrammar => false
  | .tookGrammar => true
  | .hasGrammar => true
  | .needsValue _ _ known => known

/-- The stage between values. -/
def Stage.between (known : Bool) : Stage := if known then .hasGrammar else .needsGrammar

/-- What the words ask for from a stage on. The path of the grammar is the first word that is no
option and no value of one; a second such word is a fault, but a double dash that stands directly
before or after the path is not. -/
def ofWords : Stage → List Word → Request
  | stage, [] =>
      match stage with
      | .needsValue _ _ _ => refused
      | stage => ⟨[], stage.knowsGrammar⟩
  | stage, word :: words =>
      match stage, word with
      | .needsValue s pending known, .plain value =>
          after (pending ++ [valueAction value s]) (ofWords (.between known) words)
      | .needsValue _ _ _, _ => refused
      | .needsGrammar, .plain path => after [.grammar path] (ofWords .tookGrammar words)
      | _, .plain _ => faulty (ofWords .hasGrammar words)
      | .needsGrammar, .separator => ofWords .needsGrammar words
      | .tookGrammar, .separator => ofWords .hasGrammar words
      | _, .separator => faulty (ofWords .hasGrammar words)
      | stage, .unknown => faulty (ofWords (.between stage.knowsGrammar) words)
      | _, .ambiguous => refused
      | stage, .short s none => ofCluster stage (alone s) words
      | stage, .short s (some attached) =>
          match cluster s attached with
          | none => refused
          | some c => ofCluster stage c words
      | stage, .long s none => ofCluster stage (alone s) words
      | stage, .long s (some value) =>
          match withValue s value with
          | none => refused
          | some c => ofCluster stage c words
where
  /-- What the words ask for after a word with options. -/
  ofCluster (stage : Stage) (c : Cluster) (words : List Word) : Request :=
    match c.waiting with
    | some s => ofWords (.needsValue s c.actions stage.knowsGrammar) words
    | none => after c.actions (ofWords (.between stage.knowsGrammar) words)

/-- What a command line asks for. A word that could be several options refuses all of it. -/
def read (args : List String) : Request :=
  let words := Word.readAll args
  if words.contains .ambiguous then refused else ofWords .needsGrammar words

end Request

end Predictive.CommandLine
