import Predictive.Failure

/-!
# File stores

A store holds files by their paths. A path names its directories from the one of the store on, with
slashes between, or from the root of all directories on if it begins with a slash; two dots lead to
the directory above and one dot nowhere. Every directory on the way has to be there, and what stands
before the last slash of a path that ends in one has to be a directory too.
-/

set_option autoImplicit false

namespace Predictive

/-- What a file holds. -/
inductive FileContent where
  | text (s : String)
  /-- An archive in a form that only this library reads. -/
  | archive (d : Datum)
deriving Repr, Inhabited

/-- The steps of a path: the names of its directories and of its end. The root of all directories
is a step of its own. -/
abbrev Steps := List String

/-- Files by their places, with the directories that there are besides the one of the store and the
root of all. -/
structure FileStore where
  files : OrderedMap Steps FileContent
  directories : List Steps

namespace FileStore

/-- The store of nothing but some directories. -/
def empty (directories : List Steps) : FileStore := ⟨OrderedMap.empty, directories⟩

instance : Inhabited FileStore := ⟨empty []⟩

/-- The pieces between the slashes of a path. -/
def pieces : List Char → List Char → List (List Char)
  | [], piece => [piece.reverse]
  | c :: cs, piece => if c = '/' then piece.reverse :: pieces cs [] else pieces cs (c :: piece)

/-- The names on a path. A slash at its end leads nowhere, like a dot. -/
def names (path : String) : List String :=
  let ns := ((pieces path.toList []).map String.ofList).filter (· != "")
  if path.toList.getLast? = some '/' then ns ++ ["."] else ns

/-- The root of all directories. -/
def root : Steps := ["/"]

/-- The directory in which a path begins. -/
def origin (path : String) : Steps := if path.toList.head? = some '/' then root else []

/-- The path with some steps. -/
def pathOf : Steps → String
  | "/" :: steps => "/" ++ Datum.joinWith "/" steps
  | steps => Datum.joinWith "/" steps

/-- Whether a directory is there. -/
def hasDirectory (s : FileStore) (steps : Steps) : Bool :=
  steps.isEmpty || steps == root || s.directories.contains steps

/-- The directory above one; the root is above itself, and nothing is above the one of the store. -/
def parent? (steps : Steps) : Option Steps :=
  if steps = root then some root
  else if steps.isEmpty then none
  else some steps.dropLast

/-- Where names lead from a directory, if every directory on the way is there. -/
def walk (s : FileStore) : Steps → List String → Option Steps
  | here, [] => some here
  | here, name :: rest =>
      if s.hasDirectory here then
        if name = "." then walk s here rest
        else if name = ".." then
          match parent? here with
          | some above => walk s above rest
          | none => none
        else walk s (here ++ [name]) rest
      else none

/-- Whether a path could be one at all: it does not hold the null character. -/
def isPath (path : String) : Bool := !path.toList.contains '\x00'

/-- The place that a path leads to. The path without a name leads nowhere. -/
def locate (s : FileStore) (path : String) : Option Steps :=
  match names path with
  | [] => none
  | ns => if isPath path then s.walk (origin path) ns else none

/-- What the file at a path holds. -/
def read? (s : FileStore) (path : String) : Option FileContent :=
  (s.locate path).bind s.files.get?

/-- The store with a file written at a path; none if it leads nowhere, or to a directory. -/
def write? (s : FileStore) (path : String) (content : FileContent) : Option FileStore :=
  ((s.locate path).filter fun steps => !s.hasDirectory steps).map fun steps =>
    { s with files := s.files.insert steps content }

/-- Whether a path leads to a directory. -/
def leadsToDirectory (s : FileStore) (path : String) : Bool :=
  (s.locate path).any s.hasDirectory

/-- Where names lead depends on the directories alone. -/
theorem walk_congr {s t : FileStore} (h : s.directories = t.directories) (here : Steps)
    (ns : List String) : s.walk here ns = t.walk here ns := by
  induction ns generalizing here with
  | nil => rfl
  | cons name rest ih =>
      unfold walk hasDirectory
      rw [h]
      split
      · split
        · exact ih _
        · split
          · split
            · exact ih _
            · rfl
          · exact ih _
      · rfl

theorem locate_congr {s t : FileStore} (h : s.directories = t.directories) (path : String) :
    s.locate path = t.locate path := by
  unfold locate
  split
  · rfl
  · rw [walk_congr h]

/-- A file that was written is read back. -/
theorem read?_of_write? {s t : FileStore} {path : String} {content : FileContent}
    (h : s.write? path content = some t) : t.read? path = some content := by
  obtain ⟨steps, hsteps, rfl⟩ := Option.map_eq_some_iff.1 h
  replace hsteps := (Option.filter_eq_some_iff.1 hsteps).1
  have kept : (FileStore.mk (s.files.insert steps content) s.directories).directories =
      s.directories := rfl
  unfold read?
  rw [locate_congr kept path, hsteps]
  exact OrderedMap.get?_insert_self _ _ _

/-- The directories above a place, outermost first. -/
def above : Steps → List Steps
  | [] => []
  | [_] => []
  | name :: next :: rest => [name] :: (above (next :: rest)).map (name :: ·)

/-- The store with the directories on the way to a path. -/
def withDirectoriesOf (s : FileStore) (path : String) : FileStore :=
  { s with directories := s.directories ++
      (above (origin path ++ (names path).filter (· != "."))).filter fun d =>
        !s.hasDirectory d }

/-- The store with a file put at a path, whose directories are made if need be. -/
def put (s : FileStore) (path : String) (content : FileContent) : FileStore :=
  ((s.withDirectoriesOf path).write? path content).getD s

/-- The store without the file at a path. -/
def delete (s : FileStore) (path : String) : FileStore :=
  match s.locate path with
  | some steps => { s with files := s.files.erase steps }
  | none => s

/-- The store with the file of one path at another one. -/
def rename (s : FileStore) (source target : String) : FileStore :=
  match s.read? source with
  | some content => (s.delete source).put target content
  | none => s

/-- Whether some directory on the way of names is a file instead. -/
def meetsFile (s : FileStore) : Steps → List String → Bool
  | _, [] => false
  | here, name :: rest =>
      if s.hasDirectory here then
        if name = "." then meetsFile s here rest
        else if name = ".." then
          match parent? here with
          | some above => meetsFile s above rest
          | none => false
        else meetsFile s (here ++ [name]) rest
      else s.files.contains here

/-- Why no file can be opened at a path. A new file cannot be made of a path that ends in a slash. -/
def fault (s : FileStore) (writing : Bool) (path : String) : Failure :=
  if !isPath path then .badValue
  else if s.leadsToDirectory path then .isDirectory
  else if s.meetsFile (origin path) (names path) then .notDirectory
  else if writing && (names path).length ≠ 1 && path.toList.getLast? = some '/' &&
      (s.walk (origin path) (names path).dropLast).isSome then .isDirectory
  else .noFile

/-- The paths of all files. -/
def paths (s : FileStore) : List String := s.files.keys.map pathOf

/-! ## Texts of files -/

/-- The characters of a text with every line end as one line feed. -/
def unifiedFeeds : List Char → List Char
  | [] => []
  | '\r' :: '\n' :: cs => '\n' :: unifiedFeeds cs
  | '\r' :: cs => '\n' :: unifiedFeeds cs
  | c :: cs => c :: unifiedFeeds cs

/-- The text of the file at a path. -/
def readText? (s : FileStore) (path : String) : Option String :=
  match s.read? path with
  | some (.text t) => some (String.ofList (unifiedFeeds t.toList))
  | _ => none

/-! ## Paths beside each other -/

/-- The directory part of a path: what stands before the last slash, without slashes at its end
unless there is nothing else. -/
def directoryOf (path : String) : String :=
  let head := (path.toList.reverse.dropWhile (· ≠ '/')).reverse
  let trimmed := (head.reverse.dropWhile (· = '/')).reverse
  String.ofList (if trimmed.isEmpty then head else trimmed)

/-- A path seen from a directory. -/
def join (directory path : String) : String :=
  if path.toList.head? = some '/' ∨ directory = "" then path
  else if directory.toList.getLast? = some '/' then directory ++ path
  else directory ++ "/" ++ path

/-- A path seen from the directory of a file; the path itself when the file has no name. -/
def beside (file path : String) : String :=
  if file = "" then path else join (directoryOf file) path

end FileStore

end Predictive
