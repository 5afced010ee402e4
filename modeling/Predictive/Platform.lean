import Predictive.Options
import Predictive.Pattern.Compiler

/-!
# Platforms

What the library finds where it runs, and has no part in: the names of characters, and perhaps a
package with a notation of patterns of its own, which an option asks for.
-/

set_option autoImplicit false

namespace Predictive

/-- What the library finds where it runs. -/
structure Platform where
  /-- The characters that go by names. -/
  names : CharacterNames
  /-- The compiler of the package for patterns, if the package is there. -/
  package : Option PatternCompiler

namespace Platform

/-- The platform without names and without the package. -/
def bare : Platform := ⟨Pattern.nameless, none⟩

/-- The compiler that options ask for. -/
def compiler (p : Platform) (o : Options) : Except Failure PatternCompiler :=
  if o.package.truthy then
    match p.package with
    | some c => .ok c
    | none => .error .noPackage
  else .ok (Pattern.compiler p.names)

end Platform

end Predictive
