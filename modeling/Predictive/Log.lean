/-!
# Log entries

What the library tells about its work on the side: details for tracing, and warnings.
-/

set_option autoImplicit false

namespace Predictive

/-- How much an entry matters. -/
inductive LogLevel where
  | debug
  | warning
deriving Repr, DecidableEq

/-- One message about the work. -/
structure LogEntry where
  level : LogLevel
  message : String
deriving Repr, DecidableEq

/-- Messages in the order in which they arise. -/
abbrev Log := List LogEntry

/-- A log of one detail. -/
def Log.debug (message : String) : Log := [⟨.debug, message⟩]

/-- A log of one warning. -/
def Log.warning (message : String) : Log := [⟨.warning, message⟩]

end Predictive
