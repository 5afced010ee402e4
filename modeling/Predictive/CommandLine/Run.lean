import Predictive.CommandLine.Request
import Predictive.Engine.Cached
import Predictive.Report

/-!
# Running a command line

A command line is run on a file store. Files are opened in the order in which the words name them: a
file for the report is emptied at that moment, and a file that cannot be opened ends the run. Then
the grammar is read and the report written: the grammar, its sets unless they are left out, the
table, and the verdicts on the texts. The exit code tells whether all texts were accepted.
-/

set_option autoImplicit false

namespace Predictive.CommandLine

/-- What a run leaves behind. -/
structure Outcome where
  exitCode : Nat
  /-- What is written to standard output. -/
  output : String
  store : FileStore

/-- The exit code of a run in which every text was accepted. -/
def successCode : Nat := 0

/-- The exit code when some text was rejected, and of a command line without words. -/
def rejectionCode : Nat := 1

/-- The exit code of a command line that is at fault. -/
def faultCode : Nat := 2

/-- What an option with a value has been given. -/
inductive Setting where
  | absent
  /-- The option without a value. -/
  | bare
  | value (s : String)
deriving Repr, DecidableEq

/-- What the actions of a command line have settled. -/
structure Job where
  output : Setting
  lexicon : Setting
  grammar : Option String
  debug : Bool
  strict : Bool
  package : Bool
  /-- The texts to be parsed, the last one first; an option without a text leaves none. -/
  texts : List (Option String)
  showSets : Bool

/-- The job before every action. -/
def Job.start : Job := ⟨.absent, .absent, none, false, false, false, [], true⟩

/-- The path that stands for the standard streams. -/
def streamPath : String := "-"

/-- The text of a file, or of standard input. -/
def readInput (input : String) (s : FileStore) (path : String) : Option String :=
  if path = streamPath then some input else s.readText? path

/-- The store after the file for the report is opened. -/
def openOutput (s : FileStore) (path : String) : Option FileStore :=
  if path = streamPath then some s
  else if (s.locate path).any s.hasDirectory then none
  else s.write? path (.text "")

/-- The job after an option came without its value. -/
def Job.setBare (j : Job) : Switch → Job
  | .output => { j with output := .bare }
  | .lexicon => { j with lexicon := .bare }
  | .text => { j with texts := none :: j.texts }
  | _ => j

/-- The job and the store after an action; or the exit code with which it ends the run. -/
def perform (input : String) (action : Action) (j : Job) (s : FileStore) :
    Except Nat (Job × FileStore) :=
  match action with
  | .help => .error successCode
  | .output path =>
      match openOutput s path with
      | some s => .ok ({ j with output := .value path }, s)
      | none => .error faultCode
  | .lexicon path =>
      match readInput input s path with
      | some _ => .ok ({ j with lexicon := .value path }, s)
      | none => .error faultCode
  | .grammar path =>
      match readInput input s path with
      | some _ => .ok ({ j with grammar := some path }, s)
      | none => .error faultCode
  | .debug => .ok ({ j with debug := true }, s)
  | .strict => .ok ({ j with strict := true }, s)
  | .package => .ok ({ j with package := true }, s)
  | .text t => .ok ({ j with texts := some t :: j.texts }, s)
  | .noSets => .ok ({ j with showSets := false }, s)
  | .bare switch => .ok (j.setBare switch, s)

/-- The job and the store after actions; or the exit code that ends the run, with the store then. -/
def performAll (input : String) :
    List Action → Job → FileStore → Except (Nat × FileStore) (Job × FileStore)
  | [], j, s => .ok (j, s)
  | action :: actions, j, s =>
      match perform input action j s with
      | .ok (j, s) => performAll input actions j s
      | .error code => .error (code, s)

namespace Job

/-- The options of the engine that a job asks for. -/
def options (j : Job) : Options.Given :=
  [(OptionName.debug.text, .bool j.debug), (OptionName.strict.text, .bool j.strict),
    (OptionName.package.text, .bool j.package)]

/-- The value that the grammar of a job is read from; there is none when the option for the
lexical rules came without a path. -/
def grammarDatum (input : String) (s : FileStore) (j : Job) : Except Failure Datum :=
  let textAt (path : Option String) : Datum :=
    .text ((path.bind (readInput input s)).getD "")
  match j.lexicon with
  | .absent => .ok (textAt j.grammar)
  | .bare => .error .noAttribute
  | .value path => .ok (.ofFields [("bnf", textAt j.grammar), ("lex", textAt (some path))])

end Job

/-- The engine with the sets of a kind, under their labels. -/
def askSets (e : Engine) (q : Query) : List (String × SymbolSet) × Engine :=
  match e.ask q with
  | (.ok (.sets entries), e) => (entries, e)
  | (_, e) => ([], e)

/-- The reports of all sets. -/
def setReports (e : Engine) : Except Failure String := do
  let (first, e) := askSets e .firstSets
  let (follow, e) := askSets e .followSets
  let (predict, _) := askSets e .predictSets
  let first ← Report.sets first "Symbol" "First set"
  let follow ← Report.sets follow "Symbol" "Follow set"
  let predict ← Report.sets predict "Production" "Predict set"
  .ok (first ++ follow ++ predict)

/-- The verdicts on texts, which all have to be there. -/
def verdicts (e : Engine) : List (Option String) → Except Failure (List Report.Verdict)
  | [] => .ok []
  | none :: _ => .error .wrongType
  | some t :: ts => do
      let v ← (Report.verdict e t).1
      let vs ← verdicts e ts
      .ok (v :: vs)

/-- The report of a job, and whether all its texts are accepted. -/
def report (e : Engine) (j : Job) : Except Failure Report.Verdict := do
  let sets ← if j.showSets then setReports e else pure ""
  let table ← Report.table e
  let vs ← verdicts e j.texts.reverse
  .ok ⟨Report.grammar e.grammar ++ sets ++ table ++ String.join (vs.map (·.report)),
    vs.all (·.accepted)⟩

/-- What the report of a job leaves behind. -/
def deliver (j : Job) (s : FileStore) (v : Report.Verdict) : Outcome :=
  let code := if v.accepted then successCode else rejectionCode
  match j.output with
  | .value path =>
      if path = streamPath then ⟨code, v.report, s⟩
      else ⟨code, "", (s.write? path (.text v.report)).getD s⟩
  | _ => ⟨code, v.report, s⟩

/-- The outcome of a job that is settled. A report for which an option without a path was given
cannot be written. -/
def finish (p : Platform) (scheme : Engine.CacheScheme) (input : String) (j : Job)
    (s : FileStore) : Except Failure Outcome := do
  let grammar ← j.grammarDatum input s
  let (made, s) := Engine.make p scheme (.value grammar) j.options s
  let (e, _) ← made
  if j.output = .bare then .error .noAttribute
  else
    let v ← report e j
    .ok (deliver j s v)

/-- Runs a command line with a standard input on a file store. -/
def run (p : Platform) (scheme : Engine.CacheScheme) (args : List String) (input : String)
    (s : FileStore) : Except Failure Outcome :=
  if args.isEmpty then .ok ⟨rejectionCode, "", s⟩
  else
    let request := Request.read args
    match performAll input request.actions .start s with
    | .error (code, s) => .ok ⟨code, "", s⟩
    | .ok (j, s) =>
        if request.valid then finish p scheme input j s else .ok ⟨faultCode, "", s⟩

end Predictive.CommandLine
