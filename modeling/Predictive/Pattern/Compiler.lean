import Predictive.Failure
import Predictive.Pattern.Matching
import Predictive.Pattern.Reader

/-!
# Compilers of patterns

A compiler makes of a notation and of flags what tells where the match at a place of a text ends.
Lexical rules do not depend on which compiler it is: besides the standard one of this library there
may be others, with notations and flags of their own. A flaw in a notation is told apart from all
else that can go wrong.

The standard compiler reads the whole notation before it looks at the size of the flags.
-/

set_option autoImplicit false

namespace Predictive

/-- Why a notation is not compiled. -/
inductive CompileFault where
  /-- There is a flaw in it, of which the message tells. -/
  | pattern (message : String)
  /-- Something else is wrong. -/
  | failure (reason : Failure)

/-- The end of the match of a pattern at a place of a text, if there is one. -/
abbrev EndFinder := Array Char → Nat → Option Nat

/-- What compiles the notation of a pattern under flags. -/
abbrev PatternCompiler := List Char → Datum → Except CompileFault EndFinder

namespace Pattern

/-- No character goes by a name. -/
def nameless : CharacterNames := fun _ => none

/-- A fault of a notation, as compilers report it. -/
def compileFault (written : List Char) : PatternFault → CompileFault
  | .flaw reason position => .pattern (PatternFault.describe written reason position)
  | .badFlags => .failure .badValue
  | .hugeRepeat => .failure .tooLarge

/-- What is compiled of a notation that is read under the flags of an integer. -/
def compiled (written : List Char) (flags : Int) : Except PatternFault Pattern →
    Except CompileFault EndFinder
  | .ok p => if PatternFlags.fits flags then .ok p.matchAt else .error (.failure .tooLarge)
  | .error fault => .error (compileFault written fault)

/-- The standard compiler; the flags have to be an integer. -/
def compiler (names : CharacterNames) : PatternCompiler := fun written flags =>
  match flags.int? with
  | some n => compiled written n (read names (PatternFlags.ofInt n) written)
  | none => .error (.failure .wrongType)

end Pattern

end Predictive
