import Predictive.Grammar.Fault
import Predictive.Rejection

/-!
# Failures

All the ways in which an operation of the library can fail, each with its message.
-/

set_option autoImplicit false

namespace Predictive

/-- What is wrong with an option. -/
inductive OptionFault where
  /-- A value is not among the allowed ones. -/
  | notAllowed (message : String)
  /-- The cache option is neither a truth value nor a path. -/
  | badCache
  | unknown (names : List String)
  /-- An option that is to be set is not among the known ones. -/
  | noSuchOption (name : String) (known : List String)
  /-- Options that would change a loaded table. -/
  | notLoadable (names : List String)
  /-- The grammar of a cached engine is not given as a text. -/
  | cacheWithoutText
deriving Repr, Inhabited

namespace OptionFault

/-- The message for a fault. -/
def message : OptionFault → String
  | .notAllowed text => text
  | .badCache => "cache argument must be bool or str"
  | .unknown names => "Unknown options: " ++ Datum.joinWith ", " names
  | .noSuchOption name known =>
      Text.quote name ++ " isn't a valid option. Expected one of: dict_keys(" ++
        (Datum.list (known.map .text)).render ++ ")"
  | .notLoadable names =>
      "Some options are not allowed when loading a Parser: \x7b" ++
        Datum.joinWith ", " (names.map Text.quote) ++ "\x7d"
  | .cacheWithoutText => "cache only works when the grammar is given as text"

end OptionFault

/-- The records of an archive. -/
inductive RecordKind where
  | grammar
  | production
  | table
deriving Repr, DecidableEq

/-- A key that an archive lacks, with the records around it. -/
inductive MissingKey where
  | key (value : Datum)
  | inside (record : RecordKind) (inner : MissingKey)
deriving Repr, Inhabited

namespace MissingKey

/-- The key with the records around it, outermost first; `name` gives the names of records. -/
def parts (name : RecordKind → String) : MissingKey → String
  | .key value => value.render
  | .inside record inner =>
      "'Cannot find key for class', " ++ name record ++ ", KeyError(" ++ parts name inner ++ ")"

/-- The message for a missing key. -/
def message (name : RecordKind → String) : MissingKey → String
  | .key value => value.render
  | .inside record inner => "(" ++ parts name (.inside record inner) ++ ")"

end MissingKey

/-- Why an operation failed. -/
inductive Failure where
  | grammar (fault : GrammarFault)
  | option (fault : OptionFault)
  | rejected (rejection : Rejection)
  /-- A rejection whose token has a kind that is no text, or whose stack holds such symbols; in
  `rejection` they stand as they are shown. -/
  | oddlyRejected (rejection : Rejection) (kind : Datum) (stack : List Datum)
  /-- A rejection that cannot be told in words: some symbol to be named is no text. -/
  | untold
  /-- The file at this path does not hold a cached engine. -/
  | staleCache (path : String)
  | missingKey (key : MissingKey)
  /-- A value has the wrong type for what is done with it. -/
  | wrongType
  /-- A value lacks an operation or a field. -/
  | noAttribute
  /-- The context of a rejection without a position. -/
  | noPosition
  /-- A place outside a list, or a symbol from an empty stack. -/
  | outOfRange
  /-- A value is of the right type and yet not usable. -/
  | badValue
  /-- A number is beyond all bounds. -/
  | tooLarge
  /-- A path without a file, or in no directory. -/
  | noFile
  /-- A path that should lead to a file leads to a directory. -/
  | isDirectory
  /-- A path goes on beyond a file. -/
  | notDirectory
  /-- The package for patterns is asked for and is not there. -/
  | noPackage
  /-- The recognizer would go on for ever. -/
  | endless
deriving Repr, Inhabited

namespace Failure

/-- The message of a failure; `name` gives the names of the records of an archive. -/
def message (name : RecordKind → String) : Failure → String
  | .grammar fault => fault.message
  | .option fault => fault.message
  | .rejected rejection => rejection.message
  | .oddlyRejected rejection _ _ => rejection.message
  | .untold => "untold rejection"
  | .staleCache path =>
      "Failed to load LL1 from cache: " ++ Text.quote path ++
        ". Try to delete the file and run again."
  | .missingKey key => key.message name
  | .wrongType => "wrong type"
  | .noAttribute => "no such attribute"
  | .noPosition => "no position"
  | .outOfRange => "out of range"
  | .badValue => "unusable value"
  | .tooLarge => "number too large"
  | .noFile => "no such file"
  | .isDirectory => "is a directory"
  | .notDirectory => "not a directory"
  | .noPackage => "`regex` module must be installed if calling `LL1(regex=True)`."
  | .endless => "endless recognition"

end Failure

end Predictive
