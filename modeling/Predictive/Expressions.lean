import Predictive.Engine.Basic

/-!
# Arithmetic expressions

An example: an engine for arithmetic expressions tells of every text whether it is one, with the
productions of its leftmost derivation, or where it stops being one.
-/

set_option autoImplicit false

namespace Predictive.Expressions

/-- The rules of expressions. -/
def rules : String :=
  "E  -> T E'
E' -> \"+\" T E'
    | \"-\" T E'
    | ε
T  -> F T'
T' -> \"*\" F T'
    | \"/\" F T'
    | ε
F  -> \"(\" E \")\"
    | \"-\" F
    | NUMBER
    | NAME
"

/-- The lexical rules of expressions. -/
def lexicon : String :=
  "\"(\"                   : \"(\"
\")\"                   : \")\"
\"+\"                   : \"+\"
\"-\"                   : \"-\"
\"*\"                   : \"*\"
\"/\"                   : \"/\"
[0-9]+(\".\"[0-9]+)?\\b  : NUMBER
[a-zA-Z_]\\w*          : NAME
"

/-- The engine for expressions. -/
def engine (p : Platform) : Except Failure Engine := do
  let source := Datum.ofFields [("bnf", .text rules), ("lex", .text lexicon)]
  let (e, _) ← Engine.build p (.value source) .default
  .ok e

/-- The texts that are looked at when none are given. -/
def samples : List String := ["2 * (x + 1)", "-y / 3 - 4", "(1 + 2", "1 2"]

/-- The line of a production. -/
def productionLine (g : Grammar) (n : Int) : Except Failure String :=
  match g.getProduction n with
  | .ok p => .ok ("  " ++ p.render ++ "\n")
  | .error fault => .error (.grammar fault)

/-- The lines of productions. -/
def productionLines (g : Grammar) : List Int → Except Failure String
  | [] => .ok ""
  | n :: ns => do
      let line ← productionLine g n
      let lines ← productionLines g ns
      .ok (line ++ lines)

/-- What is said about a text, and whether it is an expression. -/
def check (e : Engine) (text : String) : Except Failure (String × Bool) :=
  match e.parse text with
  | .ok numbers => do
      let lines ← productionLines e.grammar numbers
      .ok ("Accepted: " ++ text ++ "\n" ++ lines ++ "\n", true)
  | .error (.rejected r) =>
      .ok (r.message ++ "\n" ++ (r.context text Rejection.defaultSpan).getD "" ++ "\n", false)
  | .error failure => .error failure

/-- What is said about texts, and whether all are expressions. -/
def checkAll (e : Engine) : List String → Except Failure (String × Bool)
  | [] => .ok ("", true)
  | t :: ts => do
      let (said, accepted) ← check e t
      let (rest, all) ← checkAll e ts
      .ok (said ++ rest, accepted && all)

/-- The answer to texts, or to the samples if there are none, with the exit code: zero when all are
expressions. -/
def run (p : Platform) (texts : List String) : Except Failure (String × Nat) := do
  let e ← engine p
  let (said, all) ← checkAll e (if texts.isEmpty then samples else texts)
  .ok (said, if all then 0 else 1)

end Predictive.Expressions
