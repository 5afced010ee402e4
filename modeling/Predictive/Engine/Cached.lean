import Predictive.Digest
import Predictive.Engine.Saved
import Predictive.FileStore

/-!
# Cached engines

An engine that is built under the cache option is kept in a file, and the next time it is loaded
from there. The option gives the path of the file, or leaves it to the digest of everything that the
engine is made of: the grammar as it is given, the given options in the order of their names, and
the version of the library. Whatever goes wrong with a file that is there is reported as one failure.

A file is opened before the archive of the engine is made. An engine without an archive leaves an
empty file behind, which cannot be loaded, unless files take their places as a whole.
-/

set_option autoImplicit false

namespace Predictive.Engine

/-- How kept engines are found again. -/
structure CacheScheme where
  /-- The digest of a text. -/
  digest : String → String
  /-- The directory of the files that are named by digests. -/
  directory : String
  /-- The version of the library, which is part of every digest. -/
  version : String
  /-- Whether a file takes its place only when all of it is written. -/
  atomic : Bool

/-- The version of this library. -/
def libraryVersion : String := "0.3.0"

/-- The scheme with MD5 digests and files in a directory. -/
def CacheScheme.standard (directory : String) (atomic : Bool) : CacheScheme :=
  ⟨Digest.md5, directory, libraryVersion, atomic⟩

/-- The given options in the order of their names, each name directly followed by its value. -/
def optionText (given : Options.Given) : String :=
  let sorted := (OrderedMap.ofList given).entries.mergeSort fun x y => decide (x.1 ≤ y.1)
  String.join (sorted.map fun e => e.1 ++ e.2.display)

/-- What identifies an engine that is made of a value. -/
def cacheKey (scheme : CacheScheme) (d : Datum) (given : Options.Given) : String :=
  d.render ++ optionText given ++ scheme.version

/-- The path of the file named by a digest. -/
def digestPath (scheme : CacheScheme) (d : Datum) (given : Options.Given) : String :=
  FileStore.join scheme.directory (".ll1_cache_" ++ scheme.digest (cacheKey scheme d given) ++ ".tmp")

/-- The file for the engine of a value under a cache option that is set. -/
def cachePath (scheme : CacheScheme) (d : Datum) (given : Options.Given) (o : Options) : String :=
  match o.cache with
  | .text path => path
  | _ => digestPath scheme d given

/-- The given options that may be given on loading. -/
def loadable (given : Options.Given) : Options.Given :=
  given.filter fun e => (OptionName.ofText? e.1).any OptionName.isLoadable

/-- How an engine of some kind is made, kept and loaded. -/
structure Maker (α : Type) where
  build : Options → Except Failure (α × Log)
  /-- The value that the engine is made of, which a finished grammar does not have. -/
  source : Except Failure Datum
  load : Datum → Options.Given → Except Failure α
  toArchive : α → Except Failure Datum

namespace Maker

variable {α : Type} (m : Maker α)

/-- The engine that a file holds. -/
def ofFile (path : String) (content : FileContent) (given : Options.Given) : Except Failure α :=
  match content with
  | .text _ => .error (.staleCache path)
  | .archive d =>
      match m.load d (loadable given) with
      | .ok e => .ok e
      | .error _ => .error (.staleCache path)

/-- Keeps an engine at a path. The file is opened before the archive is made. -/
def keep (scheme : CacheScheme) (path : String) (made : α × Log) (s : FileStore) :
    Except Failure (α × Log) × FileStore :=
  match m.toArchive made.1 with
  | .error failure =>
      match s.write? path (.text "") with
      | some emptied => (.error failure, if scheme.atomic then s else emptied)
      | none => (.error (s.fault true path), s)
  | .ok d =>
      match s.write? path (.archive d) with
      | some s => (.ok (made.1, made.2 ++ Log.debug ("Saving grammar to cache: " ++ path)), s)
      | none => (.error (s.fault true path), s)

/-- The engine that is kept at a path, or a new one that is kept there from now on. -/
def ofCache (scheme : CacheScheme) (path : String) (given : Options.Given) (o : Options)
    (s : FileStore) : Except Failure (α × Log) × FileStore :=
  match s.read? path with
  | some content =>
      match m.ofFile path content given with
      | .ok e => (.ok (e, Log.debug ("Loading grammar from cache: " ++ path)), s)
      | .error failure => (.error failure, s)
  | none =>
      if s.leadsToDirectory path then (.error .isDirectory, s)
      else
        match m.build o with
        | .ok made => m.keep scheme path made s
        | .error failure => (.error failure, s)

/-- The engine under given options, with the log of its making; and the file store after it. -/
def run (scheme : CacheScheme) (given : Options.Given) (s : FileStore) :
    Except Failure (α × Log) × FileStore :=
  match Options.ofGiven given with
  | .error failure => (.error failure, s)
  | .ok o =>
      if o.cache.truthy then
        match m.source with
        | .ok d => m.ofCache scheme (cachePath scheme d given o) given o s
        | .error failure => (.error failure, s)
      else (m.build o, s)

end Maker

/-- The value that a cached engine is made of; there is none in a finished grammar. -/
def cacheSource : GrammarInput → Except Failure Datum
  | .value d => .ok d
  | .file text => .ok (.text text)
  | .grammar _ => .error (.option .cacheWithoutText)

/-- How the engine of an input is made. -/
def maker (p : Platform) (input : GrammarInput) : Maker Engine :=
  ⟨build p input, cacheSource input, load p, toArchive⟩

/-- The engine of what a grammar can be given as under given options, with the log of its making; and
the file store after it. -/
def make (p : Platform) (scheme : CacheScheme) (input : GrammarInput) (given : Options.Given)
    (s : FileStore) : Except Failure (Engine × Log) × FileStore :=
  (maker p input).run scheme given s

end Predictive.Engine
