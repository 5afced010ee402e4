import Predictive.Table.Build

/-!
# Runs of the analysis

The rules by which the analysis works, told without a bound for the depth of its searches. `Runs`
relates a job and a memo to the searches that are opened while the job runs, to its outcome and to the
memo that it leaves. A search is opened for a symbol that has no entry in the memo; where there is an
entry, it is the answer. A derivation by the rules is a run that ends, so a job that went on for ever
would have none.
-/

set_option autoImplicit false

namespace Predictive

/-- A search for the First or the Follow set of a symbol. -/
inductive Search where
  | first (s : Symbol)
  | follow (s : Symbol)
deriving Repr, DecidableEq

namespace Search

/-- The symbol of a search for a First set. -/
def first? : Search → Option Symbol
  | first s => some s
  | follow _ => none

/-- The symbol of a search for a Follow set. -/
def follow? : Search → Option Symbol
  | first _ => none
  | follow s => some s

end Search

/-- A part of the work of the analysis. -/
inductive Job where
  | firstOf (s : Symbol)
  | firstOfRhs (rhs : List Symbol)
  /-- The First set of the rest of a sequence, to be added to what was found before. -/
  | firstOfSequence (rest : List Symbol) (found : SymbolSet)
  /-- The right-hand sides that are to go into the First entry of a symbol. -/
  | gatherFirst (s : Symbol) (ps : List Production)
  | followOf (s : Symbol)
  /-- What comes after one use of a symbol. -/
  | gatherRest (s : Symbol) (rest : List Symbol)
  /-- The uses of a symbol in one right-hand side. -/
  | gatherUses (s lhs : Symbol) (rests : List (List Symbol))
  /-- The productions whose uses of a symbol are to go into its Follow entry. -/
  | gatherFollow (s : Symbol) (ps : List Production)
  | predict (p : Production)
  /-- Searches one after the other. -/
  | each (searches : List Search)
  | predictSets (place : Nat) (ps : List Production)
  /-- The productions that are to go into a table, its rows so far and the collisions so far. -/
  | table (strict : Bool) (ps : List Production) (rows : OrderedMap Symbol TableRow)
      (collisions : List Collision)

/-- The job of a search. -/
def Search.job : Search → Job
  | first s => .firstOf s
  | follow s => .followOf s

/-- What a job gives, besides the memo. -/
inductive Outcome where
  | done
  | set (found : SymbolSet)
  /-- Whether all that comes after a use of a symbol can vanish. -/
  | vanishes (all : Bool)
  | sets (entries : List (String × SymbolSet))
  | table (rows : OrderedMap Symbol TableRow) (collisions : List Collision)
      (stopped : Option Collision)

/-- The runs of jobs that end. -/
inductive Runs (g : Grammar) : Job → Memo → List Search → Outcome → Memo → Prop
  | firstKnown {s : Symbol} {m : Memo} {found : SymbolSet}
      (entry : m.first.get? s = some found) : Runs g (.firstOf s) m [] (.set found) m
  | firstToken {s : Symbol} {m : Memo} (absent : m.first.get? s = none)
      (token : g.isToken s = true) :
      Runs g (.firstOf s) m [.first s] (.set ((m.addFirst s (.singleton s)).firstAt s))
        (m.addFirst s (.singleton s))
  -- the entry is made before the right-hand sides are looked at
  | firstGathered {s : Symbol} {m m' : Memo} {opened : List Search}
      (absent : m.first.get? s = none) (expandable : g.isToken s = false)
      (gather : Runs g (.gatherFirst s (g.productionsFor s)) (m.addFirst s ∅) opened .done m') :
      Runs g (.firstOf s) m (.first s :: opened) (.set (m'.firstAt s)) m'
  | gatherFirstEnd {s : Symbol} {m : Memo} : Runs g (.gatherFirst s []) m [] .done m
  | gatherFirstNext {s : Symbol} {p : Production} {ps : List Production} {first : SymbolSet}
      {m m₁ m' : Memo} {opened opened' : List Search}
      (rhs : Runs g (.firstOfRhs p.rhs) m opened (.set first) m₁)
      (more : Runs g (.gatherFirst s ps) (m₁.addFirst s first) opened' .done m') :
      Runs g (.gatherFirst s (p :: ps)) m (opened ++ opened') .done m'
  | rhsEmpty {m : Memo} : Runs g (.firstOfRhs []) m [] (.set ∅) m
  | rhsFilled {rhs : List Symbol} {found : SymbolSet} {m m' : Memo} {opened : List Search}
      (filled : rhs ≠ []) (run : Runs g (.firstOfSequence rhs ∅) m opened (.set found) m') :
      Runs g (.firstOfRhs rhs) m opened (.set found) m'
  | sequenceEnd {found : SymbolSet} {m : Memo} :
      Runs g (.firstOfSequence [] found) m [] (.set (found.insert Symbol.empty)) m
  | sequenceEmpty {s : Symbol} {rest : List Symbol} {found : SymbolSet} {m : Memo}
      (empty : s = Symbol.empty) :
      Runs g (.firstOfSequence (s :: rest) found) m [] (.set (found.insert Symbol.empty)) m
  | sequenceLast {s : Symbol} {rest : List Symbol} {found first : SymbolSet} {m m' : Memo}
      {opened : List Search} (proper : s ≠ Symbol.empty)
      (head : Runs g (.firstOf s) m opened (.set first) m') (hides : Symbol.empty ∉ first) :
      Runs g (.firstOfSequence (s :: rest) found) m opened
        (.set (found ∪ first.erase Symbol.empty)) m'
  | sequenceNext {s : Symbol} {rest : List Symbol} {found first result : SymbolSet}
      {m m₁ m' : Memo} {opened opened' : List Search} (proper : s ≠ Symbol.empty)
      (head : Runs g (.firstOf s) m opened (.set first) m₁) (vanishes : Symbol.empty ∈ first)
      (tail : Runs g (.firstOfSequence rest (found ∪ first.erase Symbol.empty)) m₁ opened'
        (.set result) m') :
      Runs g (.firstOfSequence (s :: rest) found) m (opened ++ opened') (.set result) m'
  | followKnown {s : Symbol} {m : Memo} {found : SymbolSet}
      (entry : m.follow.get? s = some found) : Runs g (.followOf s) m [] (.set found) m
  | followGathered {s : Symbol} {m m' : Memo} {opened : List Search}
      (absent : m.follow.get? s = none)
      (gather : Runs g (.gatherFollow s (g.productionsWith s))
        (m.addFollow s (Analysis.initialFollow g s)) opened .done m') :
      Runs g (.followOf s) m (.follow s :: opened) (.set (m'.followAt s)) m'
  | gatherFollowEnd {s : Symbol} {m : Memo} : Runs g (.gatherFollow s []) m [] .done m
  | gatherFollowNext {s : Symbol} {p : Production} {ps : List Production} {m m₁ m' : Memo}
      {opened opened' : List Search}
      (uses : Runs g (.gatherUses s p.lhs (Analysis.restsAfter s p.rhs)) m opened .done m₁)
      (more : Runs g (.gatherFollow s ps) m₁ opened' .done m') :
      Runs g (.gatherFollow s (p :: ps)) m (opened ++ opened') .done m'
  | usesEnd {s lhs : Symbol} {m : Memo} : Runs g (.gatherUses s lhs []) m [] .done m
  | usesSkip {s lhs : Symbol} {rest : List Symbol} {rests : List (List Symbol)} {all : Bool}
      {m m₁ m' : Memo} {opened opened' : List Search}
      (use : Runs g (.gatherRest s rest) m opened (.vanishes all) m₁)
      (ends : all = false ∨ lhs = s)
      (more : Runs g (.gatherUses s lhs rests) m₁ opened' .done m') :
      Runs g (.gatherUses s lhs (rest :: rests)) m (opened ++ opened') .done m'
  | usesFlow {s lhs : Symbol} {rest : List Symbol} {rests : List (List Symbol)}
      {follow : SymbolSet} {m m₁ m₂ m' : Memo} {opened opened₁ opened' : List Search}
      (use : Runs g (.gatherRest s rest) m opened (.vanishes true) m₁) (other : lhs ≠ s)
      (flow : Runs g (.followOf lhs) m₁ opened₁ (.set follow) m₂)
      (more : Runs g (.gatherUses s lhs rests) (m₂.addFollow s follow) opened' .done m') :
      Runs g (.gatherUses s lhs (rest :: rests)) m (opened ++ (opened₁ ++ opened')) .done m'
  | restEnd {s : Symbol} {m : Memo} : Runs g (.gatherRest s []) m [] (.vanishes true) m
  | restEmpty {s x : Symbol} {rest : List Symbol} {all : Bool} {m m' : Memo}
      {opened : List Search} (empty : x = Symbol.empty)
      (more : Runs g (.gatherRest s rest) m opened (.vanishes all) m') :
      Runs g (.gatherRest s (x :: rest)) m opened (.vanishes all) m'
  | restLast {s x : Symbol} {rest : List Symbol} {first : SymbolSet} {m m₁ : Memo}
      {opened : List Search} (proper : x ≠ Symbol.empty)
      (head : Runs g (.firstOf x) m opened (.set first) m₁) (hides : Symbol.empty ∉ first) :
      Runs g (.gatherRest s (x :: rest)) m opened (.vanishes false)
        (m₁.addFollow s (first.erase Symbol.empty))
  | restNext {s x : Symbol} {rest : List Symbol} {first : SymbolSet} {all : Bool}
      {m m₁ m' : Memo} {opened opened' : List Search} (proper : x ≠ Symbol.empty)
      (head : Runs g (.firstOf x) m opened (.set first) m₁) (vanishes : Symbol.empty ∈ first)
      (more : Runs g (.gatherRest s rest) (m₁.addFollow s (first.erase Symbol.empty)) opened'
        (.vanishes all) m') :
      Runs g (.gatherRest s (x :: rest)) m (opened ++ opened') (.vanishes all) m'
  | predictEmpty {p : Production} {found : SymbolSet} {m m' : Memo} {opened : List Search}
      (empty : p.isEmpty = true) (follow : Runs g (.followOf p.lhs) m opened (.set found) m') :
      Runs g (.predict p) m opened (.set found) m'
  | predictFirst {p : Production} {first : SymbolSet} {m m' : Memo} {opened : List Search}
      (filled : p.isEmpty = false) (rhs : Runs g (.firstOfRhs p.rhs) m opened (.set first) m')
      (hides : Symbol.empty ∉ first) : Runs g (.predict p) m opened (.set first) m'
  | predictBoth {p : Production} {first found : SymbolSet} {m m₁ m' : Memo}
      {opened opened' : List Search} (filled : p.isEmpty = false)
      (rhs : Runs g (.firstOfRhs p.rhs) m opened (.set first) m₁)
      (vanishes : Symbol.empty ∈ first)
      (follow : Runs g (.followOf p.lhs) m₁ opened' (.set found) m') :
      Runs g (.predict p) m (opened ++ opened') (.set (first ∪ found)) m'
  | eachEnd {m : Memo} : Runs g (.each []) m [] .done m
  | eachNext {search : Search} {searches : List Search} {result : Outcome} {m m₁ m' : Memo}
      {opened opened' : List Search} (head : Runs g search.job m opened result m₁)
      (more : Runs g (.each searches) m₁ opened' .done m') :
      Runs g (.each (search :: searches)) m (opened ++ opened') .done m'
  | predictSetsEnd {place : Nat} {m : Memo} : Runs g (.predictSets place []) m [] (.sets []) m
  | predictSetsSkip {place : Nat} {p : Production} {ps : List Production}
      {entries : List (String × SymbolSet)} {m m' : Memo} {opened : List Search}
      (empty : p.isEmpty = true)
      (more : Runs g (.predictSets place ps) m opened (.sets entries) m') :
      Runs g (.predictSets place (p :: ps)) m opened (.sets entries) m'
  | predictSetsNext {place : Nat} {p : Production} {ps : List Production} {found : SymbolSet}
      {entries : List (String × SymbolSet)} {m m₁ m' : Memo} {opened opened' : List Search}
      (filled : p.isEmpty = false) (head : Runs g (.predict p) m opened (.set found) m₁)
      (more : Runs g (.predictSets (place + 1) ps) m₁ opened' (.sets entries) m') :
      Runs g (.predictSets place (p :: ps)) m (opened ++ opened')
        (.sets ((Analysis.predictLabel place p, found) :: entries)) m'
  | tableEnd {strict : Bool} {rows : OrderedMap Symbol TableRow} {collisions : List Collision}
      {m : Memo} :
      Runs g (.table strict [] rows collisions) m [] (.table rows collisions none) m
  | tableNext {strict : Bool} {p : Production} {ps : List Production}
      {rows : OrderedMap Symbol TableRow} {row : TableRow} {collisions collisions' : List Collision}
      {predicted : SymbolSet} {result : Outcome} {m m₁ m' : Memo} {opened opened' : List Search}
      (head : Runs g (.predict p) m opened (.set predicted) m₁)
      (claimed : ParseTable.claimCells strict p (predicted.erase Symbol.empty).toList
        ((ParseTable.mk rows).row p.lhs) collisions = (row, collisions', none))
      (more : Runs g
        (.table strict ps ((rows.insert p.lhs ((ParseTable.mk rows).row p.lhs)).insert p.lhs row)
          collisions') m₁ opened' result m') :
      Runs g (.table strict (p :: ps) rows collisions) m (opened ++ opened') result m'
  | tableStop {strict : Bool} {p : Production} {ps : List Production}
      {rows : OrderedMap Symbol TableRow} {row : TableRow} {collisions collisions' : List Collision}
      {collision : Collision} {predicted : SymbolSet} {m m' : Memo} {opened : List Search}
      (head : Runs g (.predict p) m opened (.set predicted) m')
      (claimed : ParseTable.claimCells strict p (predicted.erase Symbol.empty).toList
        ((ParseTable.mk rows).row p.lhs) collisions = (row, collisions', some collision)) :
      Runs g (.table strict (p :: ps) rows collisions) m opened
        (.table ((rows.insert p.lhs ((ParseTable.mk rows).row p.lhs)).insert p.lhs row) collisions'
          (some collision)) m'

end Predictive
