import Predictive.Failure

/-!
# Options

The options of an engine. Three of them are switches, which are turned into truth values when the
options are given as a whole; the cache option is a truth value or a path; the pattern flags are
kept as they are. A single option can be set to anything later.
-/

set_option autoImplicit false

namespace Predictive

/-- The options that there are. -/
inductive OptionName where
  /-- Collisions and rejections are logged. -/
  | debug
  /-- A collision fails the build. -/
  | strict
  /-- Where a built engine is kept, if at all. -/
  | cache
  /-- The patterns are compiled by a package of its own. -/
  | package
  /-- The flags of all patterns. -/
  | flags
deriving Repr, DecidableEq

namespace OptionName

/-- All options in their order. -/
def all : List OptionName := [.debug, .strict, .cache, .package, .flags]

/-- The name of an option as it is written. -/
def text : OptionName → String
  | .debug => "debug"
  | .strict => "strict"
  | .cache => "cache"
  | .package => "regex"
  | .flags => "g_regex_flags"

/-- The option with a written name. -/
def ofText? (s : String) : Option OptionName :=
  all.find? fun o => o.text == s

/-- Whether an option is a switch. -/
def isSwitch : OptionName → Bool
  | .debug | .strict | .package => true
  | .cache | .flags => false

/-- Whether an option may be given when an engine is loaded: it changes neither the grammar nor the
table. -/
def isLoadable : OptionName → Bool
  | .debug | .package | .flags => true
  | .strict | .cache => false

end OptionName

/-- The values of all options. -/
structure Options where
  debug : Datum
  strict : Datum
  cache : Datum
  package : Datum
  flags : Datum
deriving Repr

namespace Options

/-- The values that options have unless they are given. -/
def default : Options := ⟨.bool false, .bool false, .bool false, .bool false, .int 0⟩

instance : Inhabited Options := ⟨default⟩

/-- The value of an option. -/
def get (o : Options) : OptionName → Datum
  | .debug => o.debug
  | .strict => o.strict
  | .cache => o.cache
  | .package => o.package
  | .flags => o.flags

/-- The options with a new value for one of them. -/
def set (o : Options) (name : OptionName) (value : Datum) : Options :=
  match name with
  | .debug => { o with debug := value }
  | .strict => { o with strict := value }
  | .cache => { o with cache := value }
  | .package => { o with package := value }
  | .flags => { o with flags := value }

@[simp] theorem get_set_self (o : Options) (name : OptionName) (value : Datum) :
    (o.set name value).get name = value := by
  cases name <;> rfl

theorem get_set_of_ne (o : Options) {name other : OptionName} (value : Datum) (h : name ≠ other) :
    (o.set name value).get other = o.get other := by
  cases name <;> cases other <;> simp_all [set, get]

/-- The options as a dictionary. -/
def toDatum (o : Options) : Datum :=
  .ofFields (OptionName.all.map fun name => (name.text, o.get name))

/-! ## Giving options -/

/-- The value of an option for a given one: a truth value for a switch. -/
def settled (name : OptionName) (given : Datum) : Datum :=
  if name.isSwitch then .bool given.truthy else given

/-- Whether a value can say where an engine is kept. -/
def isCachePlace : Datum → Bool
  | .bool _ => true
  | .text _ => true
  | _ => false

/-- The given keys that are no names of options. -/
def unknownKeys (entries : List (Datum × Datum)) : List Datum :=
  (entries.map (·.1)).filter fun key =>
    (key.text?.bind OptionName.ofText?).isNone

/-- The names of keys that should be texts. -/
def keyNames : List Datum → Except Failure (List String)
  | [] => .ok []
  | d :: ds =>
      match d.text? with
      | none => .error .wrongType
      | some s => do
          let rest ← keyNames ds
          .ok (s :: rest)

/-- The values of the given options and the default values of the others. -/
def filled (entries : List (Datum × Datum)) : Options :=
  OptionName.all.foldl
    (fun o name =>
      match OrderedMap.lookupEntry (.text name.text) entries with
      | some given => o.set name (settled name given)
      | none => o)
    default

/-- The options that are given as entries of a dictionary, which must all be known. -/
def ofEntries (entries : List (Datum × Datum)) : Except Failure Options :=
  let options := filled entries
  if isCachePlace options.cache then
    match unknownKeys entries with
    | [] => .ok options
    | keys => do
        let names ← keyNames keys
        .error (.option (.unknown names))
  else .error (.option .badCache)

/-- Options as they are given by name, in their order. -/
abbrev Given := List (String × Datum)

/-- Options given by name as entries, each name once. -/
def givenEntries (given : Given) : List (Datum × Datum) :=
  (OrderedMap.ofList (given.map fun e => (Datum.text e.1, e.2))).entries

/-- The options that are given by name. -/
def ofGiven (given : Given) : Except Failure Options :=
  ofEntries (givenEntries given)

/-! ## Single options by name -/

/-- What a name stands for: the value of an option, or all options. -/
def lookUp (o : Options) (name : String) : Except Failure Datum :=
  match OptionName.ofText? name with
  | some n => .ok (o.get n)
  | none => if name = "options" then .ok o.toDatum else .error .noAttribute

/-- The options with a new value for a named one. -/
def assign (o : Options) (name : String) (value : Datum) : Except Failure Options :=
  match OptionName.ofText? name with
  | some n => .ok (o.set n value)
  | none => .error (.option (.noSuchOption name (OptionName.all.map OptionName.text)))

end Options

end Predictive
