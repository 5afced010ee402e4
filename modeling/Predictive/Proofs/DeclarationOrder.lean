import Predictive.Proofs.Declarations
import Predictive.Proofs.FirstRule
import Predictive.Proofs.LiteralPatterns

/-!
# The order of declarations

The declared rules reach the lexer through a map by their patterns. A pattern keeps the place at which
it is declared for the first time, so a token comes from the first declaration that finds something,
and a character is a token alone just where no declaration does (`Lexer.tokens_of_declares`). Its name
is the one that the pattern is declared with last. So it is the name of that first declaration where no
pattern is declared under two names, as in `letters`; where one is, as in `renamed`, it need not be.
-/

set_option autoImplicit false

namespace Predictive

open OrderedMap (IsLast)

/-! ## Rules with one pattern -/

namespace LexicalRule

variable {compiler : PatternCompiler} {flags : Datum} {text : Array Char} {place stop : Nat}

/-- Two rules with one pattern find the same. -/
theorem Finds.of_pattern {r r' : LexicalRule} (h : r.Finds compiler flags text place stop)
    (same : r.pattern = r'.pattern) : r'.Finds compiler flags text place stop := by
  obtain ⟨m, hm, hits⟩ := h
  rw [compile, written, same] at hm
  refine ⟨⟨r'.name, m.endAt⟩, ?_, hits⟩
  rw [compile, written]
  split at hm
  · rw [← Except.ok.inj hm]
  · exact absurd hm (by simp)

/-- Where none of the rules that a map holds finds anything, no rule with one of its keys does. -/
theorem not_finds_of_keys {es : List (String × Symbol)}
    (missed : ∀ r ∈ es.map fun e => LexicalRule.mk e.1 e.2, ∀ stop,
      ¬ r.Finds compiler flags text place stop)
    {r : LexicalRule} (h : r.pattern ∈ es.map (·.1)) (stop : Nat) :
    ¬ r.Finds compiler flags text place stop := by
  obtain ⟨e, he, hkey⟩ := List.mem_map.1 h
  intro finds
  exact missed ⟨e.1, e.2⟩ (List.mem_map_of_mem he) stop (finds.of_pattern hkey.symm)

/-- The first rule of the map stands for the first declaration, and has the last name of its
pattern. -/
theorem FindsFirst.declared {ds : List LexicalRule} {r : LexicalRule}
    (h : r.FindsFirst compiler flags text place stop
      ((OrderedMap.ofList (ds.map entry)).entries.map fun e => ⟨e.1, e.2⟩)) :
    (∃ d : LexicalRule, d.pattern = r.pattern ∧ d.FindsFirst compiler flags text place stop ds) ∧
      IsLast (ds.map entry) r.entry := by
  obtain ⟨front, back, hrules, finds, missed⟩ := h
  obtain ⟨front, others, hentries, rfl, hothers⟩ := List.map_eq_append_iff.1 hrules
  obtain ⟨e, back, rfl, rfl, -⟩ := List.map_eq_cons_iff.1 hothers
  refine ⟨?_, OrderedMap.isLast_of_mem_ofList (by rw [hentries]; simp [entry])⟩
  -- the key of the entry is the pattern of a first declaration
  obtain ⟨before, v, after, hds, hbefore⟩ := OrderedMap.exists_first_of_ofList hentries
  obtain ⟨dfront, rest, rfl, rfl, hrest⟩ := List.map_eq_append_iff.1 hds
  obtain ⟨d, dback, rfl, hd, -⟩ := List.map_eq_cons_iff.1 hrest
  have hpattern : d.pattern = e.1 := congrArg Prod.fst hd
  refine ⟨d, hpattern, dfront, dback, rfl, finds.of_pattern hpattern.symm, ?_⟩
  -- the patterns of earlier declarations stand before it in the map, and find nothing
  intro d' hd' stop'
  exact not_finds_of_keys missed (hbefore d'.entry (List.mem_map_of_mem hd')) stop'

end LexicalRule

/-! ## Tokens -/

namespace Lexer

theorem rulesOf_declarations {g : Grammar} {ds : List LexicalRule}
    (h : g.lexicon = Lexicon.ofDeclarations ds) :
    rulesOf g = (OrderedMap.ofList (ds.map LexicalRule.entry)).entries.map
      fun e => ⟨e.1, e.2⟩ := by
  rw [rulesOf, Grammar.lexicalRules, h]
  rfl

/-- Declared rules are put into a lexicon. In a text each token but the last one comes from the first
declaration that finds something at its place, under the name that its pattern is declared with last,
which is its own name if the pattern is always declared with that; or it is a character at which no
declaration finds anything. -/
theorem tokens_of_declares {d : Datum} {ds : List LexicalRule} (h : Lexicon.Declares d ds) :
    Lexicon.ofDatum d = .ok (Lexicon.ofDeclarations ds) ∧
    ∀ (g : Grammar) (compiler : PatternCompiler) (flags : Datum) (lexer : Lexer),
      g.lexicon = Lexicon.ofDeclarations ds → ofGrammar g compiler flags = .ok lexer →
      ∀ text, ∀ t ∈ (lexer.tokens text).dropLast, ∃ place : LineCounter,
        (∃ (r : LexicalRule) (stop : Nat) (name : Symbol),
          r.FindsFirst compiler flags text.toList.toArray place.position stop ds ∧
          t = tokenAt name (valueOf name (piece text.toList.toArray place.position stop)) place ∧
          IsLast (ds.map LexicalRule.entry) (r.pattern, name) ∧
          ((∀ r' ∈ ds, r'.pattern = r.pattern → r'.name = r.name) → name = r.name)) ∨
        ((∀ r ∈ ds, ∀ stop,
            ¬ r.Finds compiler flags text.toList.toArray place.position stop) ∧
          ∃ c, text.toList.toArray[place.position]? = some c ∧
            t = tokenAt (String.singleton c) (String.singleton c) place) := by
  refine ⟨Lexicon.ofDatum_of_declares h, ?_⟩
  intro g compiler flags lexer hlexicon built text t ht
  have hrules : ofRules compiler flags (rulesOf g) = .ok lexer := built
  rw [rulesOf_declarations hlexicon] at hrules
  obtain ⟨place, begins⟩ := beginsAt_of_mem_tokens ht
  refine ⟨place, ?_⟩
  rcases begins.rule hrules with ⟨r, stop, first, rfl⟩ | ⟨missed, htoken⟩
  · obtain ⟨⟨r', hpattern, first'⟩, last⟩ := first.declared
    refine .inl ⟨r', stop, r.name, first', rfl, ?_, ?_⟩
    · rw [hpattern]
      exact last
    · intro same
      -- the last declaration of the pattern is one of them
      obtain ⟨d', hd', hentry⟩ := List.mem_map.1 last.mem
      rw [← same d' hd' ((congrArg Prod.fst hentry).trans hpattern.symm)]
      exact (congrArg Prod.snd hentry).symm
  · refine .inr ⟨?_, htoken⟩
    intro r hr stop
    apply LexicalRule.not_finds_of_keys missed
    have hkeys := OrderedMap.keys_ofList (ds.map LexicalRule.entry)
    rw [OrderedMap.keys] at hkeys
    rw [hkeys, mem_distinct, List.map_map]
    exact List.mem_map_of_mem (f := Prod.fst ∘ LexicalRule.entry) hr

/-- A grammar of one letter with the rules that lines declare. -/
def lettered (ds : List LexicalRule) : Grammar :=
  .ofRules [⟨"S", ["A"]⟩] (Lexicon.ofDeclarations ds) ⟨.null, .null⟩

/-- Two declarations that find the same letter. -/
def letters : List LexicalRule := [⟨"a", "A"⟩, ⟨"a|b", "B"⟩]

/-- The first one is tried first. -/
theorem tokens_of_declares_letters :
    Lexicon.Declares (.text "a : A\na|b : B") letters ∧
      ∃ lexer,
        ofGrammar (lettered letters) (Pattern.compiler Pattern.nameless) (.int 0) = .ok lexer ∧
        (lexer.tokens "ab").map Token.kind = ["A", "B", Symbol.endMarker] ∧
        ∀ text, ∀ t ∈ (lexer.tokens text).dropLast, ∃ place : LineCounter,
          (∃ (r : LexicalRule) (stop : Nat),
            r.FindsFirst (Pattern.compiler Pattern.nameless) (.int 0) text.toList.toArray
              place.position stop letters ∧
            t = tokenAt r.name (valueOf r.name
              (piece text.toList.toArray place.position stop)) place) ∨
          ∀ r ∈ letters, ∀ stop,
            ¬ r.Finds (Pattern.compiler Pattern.nameless) (.int 0) text.toList.toArray
              place.position stop := by
  have declares : Lexicon.Declares (.text "a : A\na|b : B") letters :=
    .text (.cons rfl (.cons rfl .nil))
  have observed :
      (ofGrammar (lettered letters) (Pattern.compiler Pattern.nameless) (.int 0)).toOption.map (fun lexer =>
        (lexer.tokens "ab").map Token.kind) = some ["A", "B", Symbol.endMarker] := by
    decide +kernel
  obtain ⟨lexer, built, kinds⟩ := exists_of_map_toOption observed
  have once : ∀ r ∈ letters, ∀ r' ∈ letters, r'.pattern = r.pattern → r'.name = r.name := by
    decide
  refine ⟨declares, lexer, built, kinds, ?_⟩
  intro text t ht
  obtain ⟨place, ⟨r, stop, name, first, rfl, -, same⟩ | ⟨missed, -⟩⟩ :=
    (tokens_of_declares declares).2 (lettered letters) (Pattern.compiler Pattern.nameless) (.int 0)
      lexer rfl built text t ht
  · have hr : r ∈ letters := by
      obtain ⟨front, back, hds, -⟩ := first
      rw [hds]
      simp
    refine ⟨place, .inl ⟨r, stop, first, ?_⟩⟩
    rw [same (once r hr)]
  · exact ⟨place, .inr missed⟩

/-- Two declarations of one pattern. -/
def renamed : List LexicalRule := [⟨"a", "X"⟩, ⟨"a", "Y"⟩]

/-- The token comes from the first one, but has the name of the second one. -/
theorem not_tokens_of_declares_renamed :
    Lexicon.Declares (.text "a : X\na : Y") renamed ∧
      LexicalRule.FindsFirst (Pattern.compiler Pattern.nameless) (.int 0) "a".toList.toArray 0 1
        renamed ⟨"a", "X"⟩ ∧
      ∃ lexer,
        ofGrammar (lettered renamed) (Pattern.compiler Pattern.nameless) (.int 0) = .ok lexer ∧
        (lexer.tokens "a").dropLast = [tokenAt "Y" "a" .start] := by
  have takes := Pattern.compiler_takesLiterals Pattern.nameless
  have written : (LexicalRule.mk "a" "X").written = Pattern.escapeLiteral "a".toList := by decide
  obtain ⟨m, compiled, -, spells⟩ := LexicalRule.compile_of_written takes
    (show (Datum.int 0).int? = some 0 from rfl) written
  -- the first declaration finds the letter as well, but its name was overwritten
  have found : m.endAt "a".toList.toArray 0 = some 1 := (spells _ 0 1).2 (by decide)
  have observed :
      (ofGrammar (lettered renamed) (Pattern.compiler Pattern.nameless) (.int 0)).toOption.map
        (fun lexer => (lexer.tokens "a").dropLast) = some [tokenAt "Y" "a" .start] := by
    decide +kernel
  obtain ⟨lexer, built, tokens⟩ := exists_of_map_toOption observed
  refine ⟨.text (.cons rfl (.cons rfl .nil)), ?_, lexer, built, tokens⟩
  exact ⟨[], [⟨"a", "Y"⟩], rfl, ⟨m, compiled, found, by decide⟩, by simp⟩

end Lexer

end Predictive
