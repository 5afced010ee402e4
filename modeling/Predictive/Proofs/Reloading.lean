import Predictive.Proofs.CachedMaking
import Predictive.Proofs.Revival

/-!
# Loaded engines

An engine that is loaded from the archive of another one has its table, and its grammar up to the
values that the grammar was read from (`AnyEngine.of_reload`). Nothing that an engine does looks at
those values (`Engine.alike_of_source`). So a loaded engine does the same as one that is made of the
same grammar under the options of both (`AnyEngine.load_alike_make`), and its archive is the one that
it was loaded from, unless a value that the grammar was read from holds what looks like a record, or a
set of collections.
-/

set_option autoImplicit false

namespace Predictive

/-! ## Engines that do the same -/

/-- Two engines hold the same grammar, table and options and do the same with every text. -/
structure Engine.Alike (e e' : Engine) : Prop where
  productions : e.grammar.productions = e'.grammar.productions
  start : e.grammar.start = e'.grammar.start
  terminals : e.grammar.terminals = e'.grammar.terminals
  nonterminals : e.grammar.nonterminals = e'.grammar.nonterminals
  lexicalRules : e.grammar.lexicalRules = e'.grammar.lexicalRules
  table : e.table = e'.table
  options : e.options = e'.options
  lex : ∀ text, e.lex text = e'.lex text
  run : ∀ text, e.run text = e'.run text

/-- No move looks at the values that the grammar was read from. -/
theorem Recognizer.run_source (g : Grammar) (source : Source) (t : ParseTable) (lexer : Lexer)
    (fuel : Nat) (c : Configuration) :
    run ⟨{ g with source := source }, t, lexer⟩ fuel c = run ⟨g, t, lexer⟩ fuel c := by
  induction fuel generalizing c with
  | zero => rfl
  | succ fuel ih =>
      have hstep : step ⟨{ g with source := source }, t, lexer⟩ c = step ⟨g, t, lexer⟩ c := rfl
      rw [run, run, hstep]
      cases step ⟨g, t, lexer⟩ c with
      | next c => exact ih c
      | stop outcome c => rfl

namespace Engine

theorem alike_of_source (g : Grammar) (source : Source) (t : ParseTable) (lexer : Lexer)
    (o : Options) (tracing : Bool) (m m' : Memo) :
    Alike ⟨⟨{ g with source := source }, t, lexer⟩, o, tracing, m⟩
      ⟨⟨g, t, lexer⟩, o, tracing, m'⟩ where
  productions := rfl
  start := rfl
  terminals := rfl
  nonterminals := rfl
  lexicalRules := rfl
  table := rfl
  options := rfl
  lex _ := rfl
  run text := by
    have hresult : Recognizer.recognizeText ⟨{ g with source := source }, t, lexer⟩ text =
        Recognizer.recognizeText ⟨g, t, lexer⟩ text :=
      Recognizer.run_source g source t lexer _ _
    rw [Engine.run, Engine.run, hresult]

/-! ## Making engines -/

variable {p : Platform}

theorem assemble_eq_ok_iff {g : Grammar} {t : ParseTable} {o : Options} {m : Memo} {e : Engine} :
    assemble p g t o m = .ok e ↔
      ∃ lexer, lexerOf p g o = .ok lexer ∧ e = ⟨⟨g, t, lexer⟩, o, o.debug.truthy, m⟩ := by
  rw [assemble]
  constructor
  · intro h
    obtain ⟨lexer, hlexer, h⟩ := exists_of_bind_eq_ok h
    exact ⟨lexer, hlexer, (Except.ok.inj h).symm⟩
  · rintro ⟨lexer, hlexer, rfl⟩
    rw [hlexer]
    rfl

theorem ofGrammar_eq_ok_iff {g : Grammar} {o : Options} {e : Engine} {log : Log} :
    ofGrammar p g o = .ok (e, log) ↔
      ∃ t, (ParseTable.build g o.strict.truthy .empty).result g = .ok t ∧
        assemble p g t o (ParseTable.build g o.strict.truthy .empty).memo = .ok e ∧
        log = (ParseTable.build g o.strict.truthy .empty).log g o.debug.truthy := by
  rw [ofGrammar]
  cases hresult : (ParseTable.build g o.strict.truthy .empty).result g with
  | error fault => simp
  | ok t =>
      simp only [Except.ok.injEq, exists_eq_left']
      constructor
      · intro h
        obtain ⟨e', he, h⟩ := exists_of_bind_eq_ok h
        obtain ⟨rfl, rfl⟩ := Prod.mk.inj (Except.ok.inj h)
        exact ⟨he, rfl⟩
      · rintro ⟨he, rfl⟩
        rw [he]
        rfl

/-- An engine has the grammar that it is made of, and the options. -/
theorem parts_of_ofGrammar {g : Grammar} {o : Options} {e : Engine} {log : Log}
    (h : ofGrammar p g o = .ok (e, log)) : e.grammar = g ∧ e.options = o := by
  obtain ⟨t, -, he, -⟩ := ofGrammar_eq_ok_iff.1 h
  obtain ⟨lexer, -, rfl⟩ := assemble_eq_ok_iff.1 he
  exact ⟨rfl, rfl⟩

/-- Other options than the strict one change nothing about the table. -/
theorem ofGrammar_of_strict_eq {g : Grammar} {o o' : Options} {e : Engine} {log : Log}
    {lexer : Lexer} (h : ofGrammar p g o = .ok (e, log)) (hstrict : o'.strict = o.strict)
    (hlexer : lexerOf p g o' = .ok lexer) :
    ∃ m log', ofGrammar p g o' = .ok (⟨⟨g, e.table, lexer⟩, o', o'.debug.truthy, m⟩, log') := by
  obtain ⟨t, ht, he, -⟩ := ofGrammar_eq_ok_iff.1 h
  obtain ⟨-, -, rfl⟩ := assemble_eq_ok_iff.1 he
  refine ⟨_, _, ofGrammar_eq_ok_iff.2 ⟨t, ?_, assemble_eq_ok_iff.2 ⟨lexer, hlexer, rfl⟩, rfl⟩⟩
  rw [hstrict, ht]

/-! ## Archives of engines -/

/-- An engine has an archive exactly if the values that its grammar was read from can be archived. -/
theorem toArchive_eq_ok_iff {e : Engine} {d : Datum} :
    e.toArchive = .ok d ↔
      (Archive.isArchivable e.grammar.source.rules = true ∧
        Archive.isArchivable e.grammar.source.lexicon = true) ∧
      d = record (Archive.grammarRecord (.ofChecked e.grammar)) (Archive.ofTable e.table)
        e.options := by
  rw [toArchive]
  constructor
  · intro h
    obtain ⟨grammar, hgrammar, h⟩ := exists_of_bind_eq_ok h
    obtain ⟨archivable, rfl⟩ := Archive.ofGrammar_eq_ok_iff.1 hgrammar
    exact ⟨archivable, (Except.ok.inj h).symm⟩
  · rintro ⟨archivable, rfl⟩
    rw [Archive.ofGrammar_eq_ok_iff.2 ⟨archivable, rfl⟩]
    rfl

/-- The parts that can be read of the record of an engine. -/
theorem savedParts_record_iff {grammar table : Datum} {o : Options} {anew : Options.Given}
    {parts : SavedParts} :
    savedParts (record grammar table o) anew = .ok parts ↔
      Options.Loadable anew ∧
        Options.ofEntries (override anew o.fields) = .ok parts.options ∧
        Archive.toUnchecked grammar = .ok parts.grammar ∧
        Archive.toRows table = .ok parts.rows := by
  have hsaved : savedField (record grammar table o) "options" = .ok o.toDatum :=
    Archive.fieldOf_record rfl
  have hgrammar : savedField (record grammar table o) "grammar" = .ok grammar :=
    Archive.fieldOf_record rfl
  have htable : savedField (record grammar table o) "parse_table" = .ok table :=
    Archive.fieldOf_record rfl
  rw [Options.loadable_iff, savedParts]
  -- refused names are found before any field is read
  cases hnames : refusedNames anew with
  | cons name names => simp [bind, Except.bind]
  | nil =>
      rw [hsaved, hgrammar, htable, Options.toDatum_eq]
      constructor
      · intro h
        obtain ⟨saved, hdict, h⟩ := exists_of_bind_eq_ok h
        obtain rfl := Except.ok.inj hdict
        obtain ⟨entries, hentries, h⟩ := exists_of_bind_eq_ok h
        obtain rfl := Except.ok.inj hentries
        obtain ⟨o, ho, h⟩ := exists_of_bind_eq_ok h
        obtain ⟨g, hg, h⟩ := exists_of_bind_eq_ok h
        obtain rfl := Except.ok.inj hg
        obtain ⟨u, hu, h⟩ := exists_of_bind_eq_ok h
        obtain ⟨t, ht, h⟩ := exists_of_bind_eq_ok h
        obtain rfl := Except.ok.inj ht
        obtain ⟨rows, hrows, h⟩ := exists_of_bind_eq_ok h
        obtain rfl := Except.ok.inj h
        exact ⟨rfl, ho, hu, hrows⟩
      · rintro ⟨-, ho, hu, hrows⟩
        simp only [bind, Except.bind, Unchecked.entriesOf, ho, hu, hrows]

end Engine

namespace AnyEngine

variable {p : Platform}

/-- A checked engine is built from a checked grammar, as a checked one. -/
theorem build_checked_iff {input : AnyInput} {o : Options} {e : Engine} {log : Log} :
    build p input o = .ok (.checked e, log) ↔
      ∃ g warnings told, AnyGrammar.obtain input = .ok (.checked g, warnings) ∧
        Engine.ofGrammar p g o = .ok (e, told) ∧ log = warnings ++ told := by
  rw [build]
  constructor
  · intro h
    obtain ⟨⟨g, warnings⟩, hobtain, h⟩ := exists_of_bind_eq_ok h
    cases g with
    | checked g =>
        obtain ⟨⟨e', told⟩, he, h⟩ := exists_of_bind_eq_ok h
        simp only [Except.ok.injEq, Prod.mk.injEq, AnyEngine.checked.injEq] at h
        obtain ⟨rfl, rfl⟩ := h
        exact ⟨g, warnings, told, hobtain, he, rfl⟩
    | unchecked g =>
        obtain ⟨⟨e', told⟩, he, h⟩ := exists_of_bind_eq_ok h
        exact absurd h (by simp)
  · rintro ⟨g, warnings, told, hobtain, he, rfl⟩
    rw [hobtain]
    simp only [bind, Except.bind, he]

/-- Without a cache, making an engine is building it. -/
theorem make_eq_ok_iff {scheme : Engine.CacheScheme} {input : AnyInput} {given : Options.Given}
    {o : Options} {s s' : FileStore} {a : AnyEngine} {log : Log}
    (hgiven : Options.ofGiven given = .ok o) (hcache : o.cache.truthy = false) :
    make p scheme input given s = (.ok (a, log), s') ↔
      build p input o = .ok (a, log) ∧ s' = s := by
  rw [make, Engine.Maker.run_of_off hgiven hcache, Prod.mk.injEq, eq_comm (a := s)]
  rfl

/-- Options under which something is made can be given. -/
theorem exists_ofGiven_of_make {scheme : Engine.CacheScheme} {input : AnyInput}
    {given : Options.Given} {s s' : FileStore} {made : AnyEngine × Log}
    (h : make p scheme input given s = (.ok made, s')) : ∃ o, Options.ofGiven given = .ok o := by
  obtain ⟨o, hgiven, -⟩ := Engine.Maker.of_run h
  exact ⟨o, hgiven⟩

/-! ## Loading engines -/

/-- No engine is made of an unchecked grammar whose lexical rules are a production. -/
theorem assemble_of_production {u : Unchecked.Grammar} {number lhs : Datum} {rhs : List Datum}
    (hlexicon : u.lexicon = .production number lhs rhs) (rows : Datum) (o : Options)
    (m : Unchecked.Memo) :
    ∃ failure, Unchecked.Engine.assemble p u rows o m = .error failure := by
  rw [Unchecked.Engine.assemble, Unchecked.Engine.lexerOf]
  cases p.compiler o with
  | error failure => exact ⟨failure, rfl⟩
  | ok compiler =>
      refine ⟨.noAttribute, ?_⟩
      simp only [bind, Except.bind, Unchecked.Lexer.ofGrammar, Unchecked.Grammar.lexicalRules,
        hlexicon]
      rfl

/-- What was read of the archive of a checked engine when an engine could be loaded from it: its lexical
rules as they were, and its table. -/
theorem parts_of_reload {e : Engine} {anew : Options.Given} {a : AnyEngine}
    (h : reload p (.checked e) anew = .ok a) :
    ∃ o u e', Options.Loadable anew ∧
      Options.ofEntries (Engine.override anew e.options.fields) = .ok o ∧
      (∃ d, Archive.ofGrammar e.grammar = .ok d ∧ Archive.toUnchecked d = .ok u) ∧
      u.lexicon = e.grammar.lexicon.toDatum ∧
      Archive.toRows (Archive.ofTable e.table) = .ok e.table.toDatum ∧
      Engine.assemble p { e.grammar with source := u.source } e.table o .empty = .ok e' ∧
      a = .checked e' := by
  obtain ⟨d, hd, h⟩ := exists_of_bind_eq_ok h
  obtain ⟨archivable, rfl⟩ := Engine.toArchive_eq_ok_iff.1 hd
  rw [load] at h
  obtain ⟨⟨o, u, rows⟩, hparts, h⟩ := exists_of_bind_eq_ok h
  obtain ⟨hanew, ho, hu, hrows⟩ := Engine.savedParts_record_iff.1 hparts
  obtain rfl := Archive.eq_of_toRows hrows
  have harchive := Archive.ofGrammar_eq_ok_iff.2 ⟨archivable, rfl⟩
  obtain ⟨hproductions, hstart, hlexicon, -⟩ := Archive.of_toUnchecked hu
  rcases Archive.eq_or_production_of_revive hlexicon with hsame | ⟨number, lhs, rhs, hrecord⟩
  · have hchecked := Archive.checked?_of_toUnchecked hu hsame
    simp only [hchecked, Archive.checked?_toDatum] at h
    obtain ⟨e', he, h⟩ := exists_of_bind_eq_ok h
    exact ⟨o, u, e', hanew, ho, ⟨_, harchive, hu⟩, hsame, hrows, he, (Except.ok.inj h).symm⟩
  · -- the lexical rules were taken for a production
    have hnone : u.checked? = none := by
      rw [Unchecked.Grammar.checked?, hproductions, hstart, hrecord]
      simp [Unchecked.Grammar.productionsDatum, Lexicon.ofValue?]
    simp only [hnone] at h
    obtain ⟨failure, hfails⟩ := assemble_of_production hrecord e.table.toDatum o .empty
    rw [hfails] at h
    exact absurd h (by simp [bind, Except.bind])

/-- The engine that is loaded from the archive of a checked one is a checked one too, with the
options put in, the same table and, up to the values it was read from, the same grammar. -/
theorem of_reload {e : Engine} {anew : Options.Given} {a : AnyEngine}
    (h : reload p (.checked e) anew = .ok a) :
    ∃ o source e', Options.Loadable anew ∧
      Options.ofEntries (Engine.override anew e.options.fields) = .ok o ∧
      Archive.revive true (Archive.plain e.grammar.source.rules) = .ok source.rules ∧
      Archive.revive true (Archive.plain e.grammar.source.lexicon) = .ok source.lexicon ∧
      Engine.assemble p { e.grammar with source := source } e.table o .empty = .ok e' ∧
      a = .checked e' := by
  obtain ⟨o, u, e', hanew, ho, ⟨d, hd, hu⟩, -, -, he', rfl⟩ := parts_of_reload h
  obtain ⟨-, rfl⟩ := Archive.ofGrammar_eq_ok_iff.1 hd
  obtain ⟨-, -, -, hrules, hlexical⟩ := Archive.of_toUnchecked hu
  exact ⟨o, u.source, e', hanew, ho, hrules, hlexical, he', rfl⟩

/-- An engine that is loaded from the archive of a checked one, whose lexical patterns and names are
texts, and which was made without a cache, is like the engine made of the same input under the options
of both. That one can be made then. If no option is given anew, the loaded engine has the same archive,
unless something in the values that the grammar was read from looks like a record, or a set in them
holds collections. -/
theorem load_alike_make {scheme : Engine.CacheScheme} {input : AnyInput}
    {given anew : Options.Given} {s s' : FileStore} {e : Engine} {log : Log} {a : AnyEngine}
    (hcache : ∀ v, (OptionName.cache.text, v) ∈ given → v.truthy = false)
    (hmake : make p scheme input given s = (.ok (.checked e, log), s'))
    (hload : reload p (.checked e) anew = .ok a) :
    ∃ e₁ e₂ log₂, a = .checked e₁ ∧
      make p scheme input (given ++ anew) s = (.ok (.checked e₂, log₂), s) ∧ e₁.Alike e₂ ∧
      (anew = [] → Archive.steady e.grammar.source.rules = true →
        Archive.steady e.grammar.source.lexicon = true →
        ∃ d, e.toArchive = .ok d ∧ a.toArchive = .ok d) := by
  -- how the first engine was made
  obtain ⟨o, hgiven⟩ := exists_ofGiven_of_make hmake
  have hoff := Options.cache_of_ofGiven hgiven hcache
  obtain ⟨hbuild, -⟩ := (make_eq_ok_iff hgiven hoff).1 hmake
  obtain ⟨g, warnings, told, hobtain, he, -⟩ := build_checked_iff.1 hbuild
  obtain ⟨rfl, rfl⟩ := Engine.parts_of_ofGrammar he
  -- how the second one was loaded, under options that are those given together
  obtain ⟨o', source, e₁, hanew, ho', hrules, hlexicon, he₁, rfl⟩ := of_reload hload
  obtain ⟨lexer, hlexer, rfl⟩ := Engine.assemble_eq_ok_iff.1 he₁
  obtain ⟨both, hput, hboth, hkept⟩ := Options.ofEntries_override hgiven hanew
  obtain rfl : o' = both := Except.ok.inj (ho'.symm.trans hput)
  -- neither the table nor the place of a cache depends on what is given anew
  obtain ⟨m, log₂, hagain⟩ := Engine.ofGrammar_of_strict_eq he (hkept .strict rfl) hlexer
  have hoff' : o'.cache.truthy = false := by
    have hcache' : o'.cache = e.options.cache := hkept .cache rfl
    rw [hcache', hoff]
  refine ⟨_, _, _, rfl, (make_eq_ok_iff hboth hoff').2
    ⟨build_checked_iff.2 ⟨e.grammar, warnings, log₂, hobtain, hagain, rfl⟩, rfl⟩,
    Engine.alike_of_source e.grammar source e.table lexer o' o'.debug.truthy _ m, ?_⟩
  rintro rfl srules slexicon
  have hoptions : o' = e.options := Except.ok.inj (ho'.symm.trans (Options.ofEntries_fields hgiven))
  obtain ⟨d, hd, -⟩ := exists_of_bind_eq_ok hload
  refine ⟨d, hd, ?_⟩
  -- the archive is that of the grammar, of the table and of the options
  obtain ⟨grammar, hgrammar, hd⟩ := exists_of_bind_eq_ok hd
  subst hoptions
  change Engine.toArchive _ = .ok d
  rw [← Except.ok.inj hd, Engine.toArchive]
  have hsame := Archive.ofGrammar_of_revive hgrammar hrules hlexicon srules slexicon
  change Archive.ofGrammar { e.grammar with source := source } >>= _ = _
  rw [hsame]
  rfl

/-! ## Engines that are loaded -/

/-- The engine of an input, and the engine that is loaded from its archive. -/
def reloaded (input : AnyInput) (given anew : Options.Given) : Option (Engine × AnyEngine) :=
  match make .bare (.standard "" false) input given (.empty []) with
  | (.ok (.checked e, _), _) => (reload .bare (.checked e) anew).toOption.map fun a => (e, a)
  | _ => none

theorem of_reloaded {input : AnyInput} {given anew : Options.Given} {e : Engine} {a : AnyEngine}
    (h : reloaded input given anew = some (e, a)) :
    (∃ log s, make .bare (.standard "" false) input given (.empty []) =
        (.ok (.checked e, log), s)) ∧
      reload .bare (.checked e) anew = .ok a := by
  rw [reloaded] at h
  split at h
  · next e' log s hmake =>
      obtain ⟨a', ha, h⟩ := Option.map_eq_some_iff.1 h
      obtain ⟨rfl, rfl⟩ := Prod.mk.inj h
      exact ⟨⟨log, s, hmake⟩, eq_ok_of_toOption ha⟩
  · exact absurd h (by simp)

/-- Sequences of names, with a lexical rule for them. -/
def names : AnyInput :=
  .given (.value (.dict [(.text "bnf", .text "S -> N S | ε"), (.text "lex", .text "[a-z]+ : N")]))

/-- The engine for names is loaded with other flags, and without any option given anew. -/
theorem load_alike_make_names :
    (∃ e a e₁ e₂ log₂, reloaded names [("strict", .bool true)] [("g_regex_flags", .int 2)] =
        some (e, a) ∧
      a = .checked e₁ ∧
      make .bare (.standard "" false) names [("strict", .bool true), ("g_regex_flags", .int 2)]
        (.empty []) = (.ok (.checked e₂, log₂), .empty []) ∧ e₁.Alike e₂) ∧
    ∃ e a d, reloaded names [("strict", .bool true)] [] = some (e, a) ∧
      e.toArchive = .ok d ∧ a.toArchive = .ok d := by
  have hcache : ∀ v, (OptionName.cache.text, v) ∈ [("strict", Datum.bool true)] →
      v.truthy = false := by
    simp [OptionName.text]
  have loaded : (reloaded names [("strict", .bool true)] [("g_regex_flags", .int 2)]).isSome ∧
      (reloaded names [("strict", .bool true)] []).any (fun x =>
        Archive.steady x.1.grammar.source.rules && Archive.steady x.1.grammar.source.lexicon) := by
    decide +kernel
  constructor
  · obtain ⟨⟨e, a⟩, h⟩ := Option.isSome_iff_exists.1 loaded.1
    obtain ⟨⟨log, s, hmake⟩, hload⟩ := of_reloaded h
    obtain ⟨e₁, e₂, log₂, ha, hagain, halike, -⟩ := load_alike_make hcache hmake hload
    exact ⟨e, a, e₁, e₂, log₂, h, ha, hagain, halike⟩
  · obtain ⟨⟨e, a⟩, h, steady⟩ := (Option.any_eq_true _ _).1 loaded.2
    rw [Bool.and_eq_true] at steady
    obtain ⟨⟨log, s, hmake⟩, hload⟩ := of_reloaded h
    obtain ⟨-, -, -, -, -, -, archives⟩ := load_alike_make hcache hmake hload
    obtain ⟨d, first, second⟩ := archives rfl steady.1 steady.2
    exact ⟨e, a, d, h, first, second⟩

/-- One lexical rule, as a pair that is a dictionary: its keys are the pattern and the name, and its
values are not looked at. The first of them looks like the record of a production, and has one field
more than a production. -/
def marked : AnyInput :=
  .given (.value (.dict [
    (.text "bnf", .list [.text "S -> b"]),
    (.text "lex", .list [.dict [
      (.text "a", .dict [
        (.text Archive.recordKey, .text "Production"), (.text "number", .int 1),
        (.text "lhs", .text "X"), (.text "rhs", .list [.text "Y"]), (.text "extra", .int 0)]),
      (.text "b", .int 0)]])]))

/-- A lexical rule in a set, as the tuple of its pattern and its name. -/
def tupled : AnyInput :=
  .given (.value (.dict [
    (.text "bnf", .list [.text "S -> b"]),
    (.text "lex", .set false [.tuple [.text "a", .text "b"]])]))

/-- The archive of the loaded engine is that of the engine that it was loaded from. -/
def SameArchive (input : AnyInput) : Prop :=
  ∀ (p : Platform) (scheme : Engine.CacheScheme) (given : Options.Given) (s s' : FileStore)
    (e : Engine) (log : Log) (a : AnyEngine),
    (∀ v, (OptionName.cache.text, v) ∈ given → v.truthy = false) →
    make p scheme input given s = (.ok (.checked e, log), s') →
    reload p (.checked e) [] = .ok a → a.toArchive = e.toArchive

theorem not_sameArchive {input : AnyInput} (differ : (reloaded input [] []).any (fun x =>
    x.2.toArchive.toOption.map Datum.render != x.1.toArchive.toOption.map Datum.render) = true) :
    ¬ SameArchive input := by
  intro same
  obtain ⟨⟨e, a⟩, h, differ⟩ := (Option.any_eq_true _ _).1 differ
  obtain ⟨⟨log, s, hmake⟩, hload⟩ := of_reloaded h
  have harchive := same _ _ _ _ _ _ _ _ (by simp) hmake hload
  simp [harchive] at differ

/-- What looks like a record is read as one, and the field that is not one of a production is lost. A
tuple in a set stays a tuple in the first archive, and is a list in the second one. -/
theorem not_archive_reloaded_marked : ¬ SameArchive marked ∧ ¬ SameArchive tupled := by
  constructor
  · apply not_sameArchive
    decide +kernel
  · apply not_sameArchive
    decide +kernel

end AnyEngine

end Predictive
