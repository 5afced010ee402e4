import Predictive.CommandLine.Run

/-!
# The program

Runs the command line on the real files that it names: they are read into a file store, and the file
for the report is written from the store.
-/

set_option autoImplicit false

namespace Predictive.CommandLine

/-- The text of a file, if it can be read. -/
def readFile? (path : String) : IO (Option String) := do
  try
    let text ← IO.FS.readFile path
    pure (some text)
  catch _ => pure none

/-- Whether a file can be opened for writing, which empties it. -/
def canWrite (path : String) : IO Bool := do
  try
    IO.FS.writeFile path ""
    pure true
  catch _ => pure false

/-- The store of the files that actions name, up to the first file that cannot be opened. -/
def gather (s : FileStore) : List Action → IO FileStore
  | [] => pure s
  | .lexicon path :: actions | .grammar path :: actions => do
      if path = streamPath then gather s actions
      else
        match ← readFile? path with
        | some text => gather (s.put path (.text text)) actions
        | none => pure s
  | .output path :: actions => do
      if path = streamPath then gather s actions
      else if ← canWrite path then gather (s.put path (.text "")) actions
      else pure s
  | .help :: _ => pure s
  | _ :: actions => gather s actions

/-- The paths of the reports that actions ask for. -/
def outputPaths : List Action → List String
  | [] => []
  | .output path :: actions => path :: outputPaths actions
  | _ :: actions => outputPaths actions

/-- Whether actions read standard input. -/
def readsInput (actions : List Action) : Bool :=
  actions.contains (.grammar streamPath) || actions.contains (.lexicon streamPath)

/-- The lines of a stream up to its end, after those read before. -/
partial def readLines (stream : IO.FS.Stream) (before : String) : IO String := do
  let line ← stream.getLine
  if line.isEmpty then pure before else readLines stream (before ++ line)

/-- Writes the texts that a store holds at some paths. -/
def writeBack (s : FileStore) : List String → IO Unit
  | [] => pure ()
  | path :: paths => do
      match s.read? path with
      | some (.text text) => IO.FS.writeFile path text
      | _ => pure ()
      writeBack s paths

/-- What a failure says; the records of an archive go by their kinds. -/
def failureText (failure : Failure) : String :=
  failure.message Archive.kindName

/-- Runs the command line, and gives its exit code. -/
def execute (args : List String) : IO UInt32 := do
  let actions := (Request.read args).actions
  let store ← gather (.empty []) actions
  let stream ← IO.getStdin
  let input ← if readsInput actions then readLines stream "" else pure ""
  match CommandLine.run .bare (.standard "." false) args input store with
  | .error failure =>
      IO.eprintln (failureText failure)
      pure 1
  | .ok outcome =>
      writeBack outcome.store (outputPaths actions)
      IO.print outcome.output
      pure (UInt32.ofNat outcome.exitCode)

end Predictive.CommandLine

/-- Runs the command line. -/
def main (args : List String) : IO UInt32 :=
  Predictive.CommandLine.execute args
