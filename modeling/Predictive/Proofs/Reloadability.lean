import Predictive.Proofs.Reloading

/-!
# Which engines can be loaded again

An archive marks its records by a key, next to the names that users choose. A value in which no
dictionary has that key is read as it was written (`Archive.revive_plain_of_bare`). A table can be read
again exactly when neither a row nor a lookahead has that key for its name, and lexical rules exactly
when no pattern is that key. Hence an engine can be loaded from its archive exactly when this is so and
the values that its grammar was read from can be archived and read again
(`AnyEngine.exists_reload_iff`).

The engine of `markedRow` cannot be loaded, nor can that of `markedPattern`. The engine of `unordered`
has no archive, since the members of a set have to be put in order for it.
-/

set_option autoImplicit false

namespace Predictive

open OrderedMap (lookupEntry)
open Unchecked.Grammar (productionsDatum)

namespace Archive

/-! ## Values that are read as they were written -/

mutual

/-- The value holds no production and no grammar, the members of its sets have an order, and no
dictionary in it has the key that marks a record. -/
def bare : Datum → Bool
  | .list items => bareItems items
  | .tuple items => bareItems items
  | .set _ members => Datum.areKeys members && (Unchecked.ordered members).isOk
  | .dict entries => (lookupEntry (.text recordKey) entries).isNone && bareEntries entries
  | .production _ _ _ => false
  | .grammar _ _ => false
  | _ => true

/-- All items are bare. -/
def bareItems : List Datum → Bool
  | [] => true
  | x :: xs => bare x && bareItems xs

/-- The values of all entries are bare. -/
def bareEntries : List (Datum × Datum) → Bool
  | [] => true
  | e :: es => bareEntry e && bareEntries es

/-- The value of the entry is bare. -/
def bareEntry : Datum × Datum → Bool
  | (_, v) => bare v

end

theorem isKey_of_areKeys {xs : List Datum} (h : Datum.areKeys xs = true) :
    ∀ x ∈ xs, x.isKey = true := by
  induction xs with
  | nil => simp
  | cons x xs ih =>
      rw [Datum.areKeys, Bool.and_eq_true] at h
      exact List.forall_mem_cons.2 ⟨h.1, ih h.2⟩

mutual

/-- A bare value can be archived, and is read as it was written, whether records may stand there or
not. -/
theorem revive_plain_of_bare (known : Bool) : ∀ {d : Datum}, bare d = true →
    isArchivable d = true ∧ revive known (plain d) = .ok (plain d)
  | .dict entries, hd => by
      rw [bare, Bool.and_eq_true, ← lookupEntry_plainEntries_isNone, Option.isNone_iff_eq_none] at hd
      obtain ⟨archivable, read⟩ := collected_of_bareEntries known hd.2
      rw [plain, revive_dict_of_none hd.1, read, isArchivable]
      exact ⟨archivable, rfl⟩
  | .list items, hd | .tuple items, hd => by
      rw [bare] at hd
      obtain ⟨archivable, read⟩ := reviveItems_of_bareItems known hd
      rw [plain, revive, read, isArchivable]
      exact ⟨archivable, rfl⟩
  | .set frozen members, hd => by
      -- the members are keys, so each of them is read as it stands
      rw [bare, Bool.and_eq_true] at hd
      have keys : ∀ x ∈ listed members, x.isKey = true :=
        fun x hx => isKey_of_areKeys hd.1 x (mem_of_listed hx)
      rw [plain, revive, reviveItems_of_keys known keys, isArchivable]
      exact ⟨hd.2, rfl⟩
  | .production _ _ _, hd | .grammar _ _, hd => by
      rw [bare] at hd
      exact absurd hd (by simp)
  | .null, _ | .bool _, _ | .int _, _ | .real _, _ | .text _, _ | .file _, _ => by
      rw [plain, revive]
      · exact ⟨rfl, rfl⟩
      all_goals simp

theorem reviveItems_of_bareItems (known : Bool) : ∀ {xs : List Datum}, bareItems xs = true →
    areArchivable xs = true ∧ reviveItems known (plainItems xs) = .ok (plainItems xs)
  | [], _ => ⟨rfl, rfl⟩
  | x :: xs, hxs => by
      rw [bareItems, Bool.and_eq_true] at hxs
      obtain ⟨archivable, read⟩ := revive_plain_of_bare known hxs.1
      obtain ⟨others, rest⟩ := reviveItems_of_bareItems known hxs.2
      rw [plainItems, reviveItems, read, rest, areArchivable, archivable, others]
      exact ⟨rfl, rfl⟩

theorem collected_of_bareEntries (known : Bool) :
    ∀ {es : List (Datum × Datum)}, bareEntries es = true →
      entriesArchivable es = true ∧
        collected (reviveEntries known (plainEntries es)) = .ok (plainEntries es)
  | [], _ => ⟨rfl, rfl⟩
  | (k, v) :: es, hes => by
      rw [bareEntries, bareEntry, Bool.and_eq_true] at hes
      obtain ⟨archivable, read⟩ := revive_plain_of_bare known hes.1
      obtain ⟨others, rest⟩ := collected_of_bareEntries known hes.2
      rw [plainEntries, plainEntry, reviveEntries, reviveEntry, collected, read, rest,
        entriesArchivable, entryArchivable, archivable, others]
      exact ⟨rfl, rfl⟩

end

/-- The value can be archived, and read from where it was written. -/
def Readable (d : Datum) : Prop :=
  isArchivable d = true ∧ ∃ r, revive true (plain d) = .ok r

theorem readable_of_bare {d : Datum} (h : bare d = true) : Readable d := by
  obtain ⟨archivable, read⟩ := revive_plain_of_bare true h
  exact ⟨archivable, plain d, read⟩

theorem bareEntries_iff {es : List (Datum × Datum)} :
    bareEntries es = true ↔ ∀ e ∈ es, bare e.2 = true := by
  induction es with
  | nil => simp [bareEntries]
  | cons e es ih =>
      obtain ⟨k, v⟩ := e
      simp [bareEntries, bareEntry, ih]

/-- A dictionary that can be read where no record may stand lacks the mark, and its values can be
read. -/
theorem of_revive_dict {entries : List (Datum × Datum)} {r : Datum}
    (h : revive false (.dict entries) = .ok r) :
    lookupEntry (.text recordKey) entries = none ∧
      ∀ e ∈ entries, ∃ v, revive false e.2 = .ok v := by
  cases hkind : lookupEntry (.text recordKey) entries with
  | some kind => exact absurd (revive_dict_of_some hkind h).1 (by simp)
  | none =>
      rw [revive_dict_of_none hkind] at h
      obtain ⟨es, hes, -⟩ := exists_of_bind_eq_ok h
      refine ⟨rfl, ?_⟩
      -- the entries are read one after the other
      clear h hkind
      induction entries generalizing es with
      | nil => simp
      | cons e entries ih =>
          obtain ⟨k, d⟩ := e
          rw [reviveEntries, reviveEntry, collected] at hes
          obtain ⟨v, hv, hes⟩ := exists_of_bind_eq_ok hes
          obtain ⟨rest, hrest, -⟩ := exists_of_bind_eq_ok hes
          intro e he
          rcases List.mem_cons.1 he with rfl | he
          · exact ⟨v, hv⟩
          · exact ih rest hrest e he

theorem lookupEntry_eq_none_iff {β : Type} {name : String} {fields : List (String × β)} :
    lookupEntry name fields = none ↔ ∀ f ∈ fields, f.1 ≠ name := by
  induction fields with
  | nil => simp [lookupEntry]
  | cons f fields ih =>
      by_cases hf : f.1 = name <;> simp [lookupEntry, hf, ih]

/-- The mark is looked up among fields. -/
theorem lookupEntry_recordKey_iff {fields : List (String × Datum)} :
    lookupEntry (.text recordKey) (fields.map fun f => (Datum.text f.1, f.2)) = none ↔
      ∀ f ∈ fields, f.1 ≠ recordKey := by
  rw [OrderedMap.lookupEntry_text, lookupEntry_eq_none_iff]

theorem bare_ofFields {fields : List (String × Datum)}
    (h : ∀ f ∈ fields, f.1 ≠ recordKey ∧ bare f.2 = true) : bare (.ofFields fields) = true := by
  rw [Datum.ofFields, bare, Bool.and_eq_true, Option.isNone_iff_eq_none,
    lookupEntry_recordKey_iff, bareEntries_iff, List.forall_mem_map]
  exact ⟨fun f hf => (h f hf).1, fun f hf => (h f hf).2⟩

theorem of_revive_ofFields {fields : List (String × Datum)} {r : Datum}
    (h : revive false (.ofFields fields) = .ok r) :
    ∀ f ∈ fields, f.1 ≠ recordKey ∧ ∃ v, revive false f.2 = .ok v := by
  obtain ⟨hkeys, hvalues⟩ := of_revive_dict h
  rw [lookupEntry_recordKey_iff] at hkeys
  rw [List.forall_mem_map] at hvalues
  exact fun f hf => ⟨hkeys f hf, hvalues f hf⟩

end Archive

/-! ## Tables -/

/-- The symbol is neither the nonterminal of a row nor a lookahead with an entry. -/
def ParseTable.Lacks (t : ParseTable) (s : Symbol) : Prop :=
  ∀ r ∈ t.rows.entries, r.1 ≠ s ∧ ∀ c ∈ r.2.entries, c.1 ≠ s

instance (t : ParseTable) (s : Symbol) : Decidable (t.Lacks s) :=
  inferInstanceAs (Decidable (∀ r ∈ t.rows.entries, _))

namespace Archive

theorem bare_toDatum {t : ParseTable} (h : t.Lacks recordKey) : bare t.toDatum = true := by
  apply bare_ofFields
  rw [List.forall_mem_map]
  intro r hr
  refine ⟨(h r hr).1, bare_ofFields ?_⟩
  rw [List.forall_mem_map]
  intro c hc
  exact ⟨(h r hr).2 c hc, rfl⟩

/-- A table that can be read has no name that is the key of a record. -/
theorem lacks_of_revive {t : ParseTable} {rows : Datum}
    (h : revive false t.toDatum = .ok rows) : t.Lacks recordKey := by
  -- the rows are fields of the table, and their cells are fields of the rows
  have hrows := of_revive_ofFields h
  rw [List.forall_mem_map] at hrows
  intro r hr
  obtain ⟨hname, v, hv⟩ := hrows r hr
  have hcells := of_revive_ofFields hv
  rw [List.forall_mem_map] at hcells
  exact ⟨hname, fun c hc => (hcells c hc).1⟩

/-- A field of a record, read where it stands. -/
theorem readField_record (name : String) {kind : RecordKind} {known : Bool} {type : String}
    {fields : List (String × Datum)} {v : Datum}
    (hfield : lookupEntry name (fields ++ [(recordKey, .text type)]) = some v) :
    readField kind known (record type fields) name = within kind (revive known v) := by
  rw [readField, fieldOf_record hfield]
  rfl

/-- The rows of a table can be read exactly when no name in it is the key of a record. -/
theorem toRows_ofTable_iff {t : ParseTable} :
    toRows (ofTable t) = .ok t.toDatum ↔ t.Lacks recordKey := by
  have hfield : toRows (ofTable t) = within .table (revive false t.toDatum) := by
    rw [toRows, ofTable, tableRecord, plain_toDatum]
    exact readField_record _ (by simp [lookupEntry])
  rw [hfield, within_eq_ok_iff]
  constructor
  · exact lacks_of_revive
  · intro h
    obtain ⟨-, hread⟩ := revive_plain_of_bare false (bare_toDatum h)
    rwa [plain_toDatum] at hread

/-- A table is read again from its archive exactly when no name in it is the key of a record. -/
theorem toTable_ofTable_iff {t : ParseTable} :
    toTable (ofTable t) = .ok t ↔ t.Lacks recordKey := by
  rw [← toRows_ofTable_iff]
  constructor
  · intro h
    obtain ⟨rows, hrows, -⟩ := exists_of_bind_eq_ok h
    rw [hrows, eq_of_toRows hrows]
  · intro h
    rw [toTable, h]
    simp only [bind, Except.bind, checked?_toDatum, required]

end Archive

/-! ## Grammars -/

/-- The patterns of the lexical rules that a grammar comes with. -/
def Lexicon.patterns : Lexicon → List String
  | .inferred => []
  | .declared rules => rules.entries.map (·.1)

/-- The values that a grammar was read from can be read from its archive. -/
structure Source.Readable (source : Source) : Prop where
  rules : Archive.Readable source.rules
  lexicon : Archive.Readable source.lexicon

namespace Archive

/-- Lexical rules come back as they were exactly when no pattern is the key of a record. -/
theorem revive_lexicon_iff {l : Lexicon} :
    revive true (plain l.toDatum) = .ok l.toDatum ↔ recordKey ∉ l.patterns := by
  cases l with
  | inferred => simp [Lexicon.toDatum, Lexicon.entries?, Lexicon.rulesDatum, Lexicon.patterns,
      plain, revive]
  | declared rules =>
      have hvalue : (Lexicon.declared rules).toDatum =
          .ofFields (rules.entries.map fun e => (e.1, .text e.2)) := by
        rw [Datum.ofFields, List.map_map]
        rfl
      have hplain : plain (.ofFields (rules.entries.map fun e => (e.1, .text e.2))) =
          .ofFields (rules.entries.map fun e => (e.1, .text e.2)) := by
        rw [plain_ofFields, List.map_map]
        exact congrArg Datum.ofFields (List.map_congr_left fun e _ => by simp [plain])
      have hkey : (∀ f ∈ rules.entries.map fun e => (e.1, Datum.text e.2), f.1 ≠ recordKey) ↔
          recordKey ∉ (Lexicon.declared rules).patterns := by
        rw [List.forall_mem_map, Lexicon.patterns, List.mem_map]
        simp only [not_exists, not_and, ne_eq]
      rw [← hkey, hvalue]
      constructor
      · intro h
        rw [hplain] at h
        rw [← lookupEntry_recordKey_iff, Option.eq_none_iff_forall_not_mem]
        intro kind hkind
        -- a dictionary that is read as a record is read as a production
        obtain ⟨-, hrecord⟩ := revive_dict_of_some hkind h
        obtain ⟨number, lhs, rhs, hproduction⟩ := exists_of_production_eq_ok hrecord
        exact absurd hproduction (by simp [Datum.ofFields])
      · intro hnone
        refine (revive_plain_of_bare true (bare_ofFields ?_)).2.trans (congrArg Except.ok hplain)
        intro f hf
        refine ⟨hnone f hf, ?_⟩
        obtain ⟨e, -, rfl⟩ := List.mem_map.1 hf
        rfl

/-- What is read of the record of a grammar, field by field. -/
theorem toUnchecked_grammarRecord_iff {g : Grammar} {u : Unchecked.Grammar} :
    toUnchecked (grammarRecord (.ofChecked g)) = .ok u ↔
      u.productions = productionsDatum g.productions ∧ u.start = .text g.start ∧
        revive true (plain g.lexicon.toDatum) = .ok u.lexicon ∧
        revive true (plain g.source.rules) = .ok u.source.rules ∧
        revive true (plain g.source.lexicon) = .ok u.source.lexicon := by
  constructor
  · exact of_toUnchecked
  · obtain ⟨productions, start, lexicon, rules, lexical⟩ := u
    rintro ⟨rfl, rfl, hlexicon, hrules, hlexical⟩
    simp only at hlexicon hrules hlexical
    have hstart : revive true (plain (.text g.start)) = .ok (.text g.start) := rfl
    rw [grammarRecord, toUnchecked, readField_record "productions" rfl,
      readField_record "start_symbol" rfl, readField_record "user_lex_rules" rfl,
      readField_record "original_bnf" rfl, readField_record "original_lex" rfl]
    simp only [Unchecked.Grammar.ofChecked, revive_productionsDatum, hstart, hlexicon, hrules,
      hlexical, within, bind, Except.bind]

/-- A grammar comes back up to the values it was read from, exactly when no pattern is the key of a
record and those values can be archived and read. -/
theorem reload_checked_iff {g : Grammar} {source : Source} :
    AnyGrammar.reload (.checked g) = .ok (.checked { g with source := source }) ↔
      (isArchivable g.source.rules = true ∧ isArchivable g.source.lexicon = true) ∧
        recordKey ∉ g.lexicon.patterns ∧
        revive true (plain g.source.rules) = .ok source.rules ∧
        revive true (plain g.source.lexicon) = .ok source.lexicon := by
  rw [← revive_lexicon_iff]
  constructor
  · intro h
    obtain ⟨d, hd, h⟩ := exists_of_bind_eq_ok h
    obtain ⟨archivable, rfl⟩ := ofGrammar_eq_ok_iff.1 hd
    obtain ⟨u, hu, h⟩ := exists_of_bind_eq_ok h
    obtain ⟨hproductions, hstart, hlexicon, hrules, hlexical⟩ := of_toUnchecked hu
    rw [Except.ok.injEq, AnyGrammar.ofUnchecked] at h
    rcases eq_or_production_of_revive hlexicon with hsame | ⟨number, lhs, rhs, hrecord⟩
    · rw [checked?_of_toUnchecked hu hsame] at h
      injection h with h
      obtain rfl : u.source = source := congrArg Grammar.source h
      exact ⟨archivable, hsame ▸ hlexicon, hrules, hlexical⟩
    · -- the lexical rules were taken for a production
      have hnone : u.checked? = none := by
        rw [Unchecked.Grammar.checked?, hproductions, hstart, hrecord]
        simp [productionsDatum, Lexicon.ofValue?]
      rw [hnone] at h
      exact absurd h (by simp)
  · rintro ⟨archivable, hlexicon, hrules, hlexical⟩
    have hu : toUnchecked (grammarRecord (.ofChecked g)) =
        .ok ⟨productionsDatum g.productions, .text g.start, g.lexicon.toDatum, source⟩ :=
      toUnchecked_grammarRecord_iff.2 ⟨rfl, rfl, hlexicon, hrules, hlexical⟩
    have hd : AnyGrammar.toArchive (.checked g) = .ok (grammarRecord (.ofChecked g)) :=
      ofGrammar_eq_ok_iff.2 ⟨archivable, rfl⟩
    rw [AnyGrammar.reload, hd]
    simp only [bind, Except.bind, AnyGrammar.ofArchive, hu, AnyGrammar.ofUnchecked,
      checked?_of_toUnchecked hu rfl]

end Archive

/-! ## Engines -/

namespace Engine

variable {p : Platform}

/-- The lexer of the engine is that of its grammar under its options, and these can be given. -/
structure Settled (p : Platform) (e : Engine) : Prop where
  options : ∃ entries, Options.ofEntries entries = .ok e.options
  lexer : lexerOf p e.grammar e.options = .ok e.lexer

/-- What the archive of an engine has to be like for the engine to be loaded from it. -/
structure Reloadable (e : Engine) : Prop where
  table : e.table.Lacks Archive.recordKey
  patterns : Archive.recordKey ∉ e.grammar.lexicon.patterns
  source : e.grammar.source.Readable

theorem settled_of_assemble {g : Grammar} {t : ParseTable} {entries : List (Datum × Datum)}
    {o : Options} {m : Memo} {e : Engine} (ho : Options.ofEntries entries = .ok o)
    (h : assemble p g t o m = .ok e) : e.Settled p := by
  obtain ⟨lexer, hlexer, rfl⟩ := assemble_eq_ok_iff.1 h
  exact ⟨⟨entries, ho⟩, hlexer⟩

end Engine

namespace AnyEngine

variable {p : Platform}

/-- The options of a loaded engine are made of the entries in the archive. -/
theorem exists_ofEntries_of_savedParts {d : Datum} {anew : Options.Given}
    {parts : Engine.SavedParts} (h : Engine.savedParts d anew = .ok parts) :
    ∃ entries, Options.ofEntries entries = .ok parts.options := by
  rw [Engine.savedParts] at h
  cases hnames : Engine.refusedNames anew with
  | cons name names =>
      rw [hnames] at h
      exact absurd h (by simp [bind, Except.bind])
  | nil =>
      rw [hnames] at h
      obtain ⟨saved, -, h⟩ := exists_of_bind_eq_ok h
      obtain ⟨entries, -, h⟩ := exists_of_bind_eq_ok h
      obtain ⟨o, ho, h⟩ := exists_of_bind_eq_ok h
      obtain ⟨g, -, h⟩ := exists_of_bind_eq_ok h
      obtain ⟨u, -, h⟩ := exists_of_bind_eq_ok h
      obtain ⟨t, -, h⟩ := exists_of_bind_eq_ok h
      obtain ⟨rows, -, h⟩ := exists_of_bind_eq_ok h
      obtain rfl := Except.ok.inj h
      exact ⟨_, ho⟩

theorem settled_of_load {d : Datum} {anew : Options.Given} {e : Engine}
    (h : load p d anew = .ok (.checked e)) : e.Settled p := by
  obtain ⟨parts, hparts, h⟩ := exists_of_bind_eq_ok h
  obtain ⟨entries, ho⟩ := exists_ofEntries_of_savedParts hparts
  split at h
  · obtain ⟨e', he, h⟩ := exists_of_bind_eq_ok h
    obtain rfl : e' = e := by simpa using h
    exact Engine.settled_of_assemble ho he
  · obtain ⟨e', -, h⟩ := exists_of_bind_eq_ok h
    exact absurd h (by simp)

theorem settled_of_build {input : AnyInput} {given : Options.Given} {o : Options} {e : Engine}
    {log : Log} (hgiven : Options.ofGiven given = .ok o)
    (h : build p input o = .ok (.checked e, log)) : e.Settled p := by
  obtain ⟨g, -, told, -, he, -⟩ := build_checked_iff.1 h
  obtain ⟨t, -, he, -⟩ := Engine.ofGrammar_eq_ok_iff.1 he
  exact Engine.settled_of_assemble hgiven he

/-- An engine is settled, whether it was built or loaded when it was made. -/
theorem settled_of_make {scheme : Engine.CacheScheme} {input : AnyInput} {given : Options.Given}
    {s s' : FileStore} {e : Engine} {log : Log}
    (h : make p scheme input given s = (.ok (.checked e, log), s')) : e.Settled p := by
  obtain ⟨o, hgiven, ⟨told, hbuild⟩ | ⟨d, content, -, -, hload⟩⟩ := Engine.Maker.of_run h
  · exact settled_of_build hgiven hbuild
  · exact settled_of_load hload

/-! ## Loading from an archive -/

/-- What can be loaded from the archive of an engine is reloadable. -/
theorem reloadable_of_reload {e : Engine} {anew : Options.Given} {a : AnyEngine}
    (h : reload p (.checked e) anew = .ok a) : e.Reloadable := by
  obtain ⟨o, u, e', -, -, ⟨d, hd, hu⟩, hsame, hrows, -, -⟩ := parts_of_reload h
  obtain ⟨⟨harchivable, harchivable'⟩, rfl⟩ := Archive.ofGrammar_eq_ok_iff.1 hd
  obtain ⟨-, -, hlexicon, hrules, hlexical⟩ := Archive.of_toUnchecked hu
  rw [hsame] at hlexicon
  exact ⟨Archive.toRows_ofTable_iff.1 hrows, Archive.revive_lexicon_iff.1 hlexicon,
    ⟨⟨harchivable, _, hrules⟩, ⟨harchivable', _, hlexical⟩⟩⟩

/-- A reloadable engine has an archive. -/
theorem toArchive_of_reloadable {e : Engine} (he : e.Reloadable) :
    toArchive (.checked e) = .ok (Engine.record (Archive.grammarRecord (.ofChecked e.grammar))
      (Archive.ofTable e.table) e.options) :=
  Engine.toArchive_eq_ok_iff.2 ⟨⟨he.source.rules.1, he.source.lexicon.1⟩, rfl⟩

/-- A reloadable engine is loaded with any options that may be given anew, if there is a lexer of its
grammar under them. The engine has its table and, up to the values it was read from, its grammar. -/
theorem reload_of_reloadable {e : Engine} {anew : Options.Given} {o : Options} {lexer : Lexer}
    (he : e.Reloadable) (hanew : Options.Loadable anew)
    (ho : Options.ofEntries (Engine.override anew e.options.fields) = .ok o)
    (hlexer : Engine.lexerOf p e.grammar o = .ok lexer) :
    ∃ source, reload p (.checked e) anew =
      .ok (.checked ⟨⟨{ e.grammar with source := source }, e.table, lexer⟩, o, o.debug.truthy,
        .empty⟩) := by
  obtain ⟨-, rules, hrules⟩ := he.source.rules
  obtain ⟨-, lexical, hlexical⟩ := he.source.lexicon
  -- the grammar, then the parts of the archive, then the engine that is put together from them
  have hu : Archive.toUnchecked (Archive.grammarRecord (.ofChecked e.grammar)) =
      .ok ⟨Unchecked.Grammar.productionsDatum e.grammar.productions, .text e.grammar.start,
        e.grammar.lexicon.toDatum, ⟨rules, lexical⟩⟩ :=
    Archive.toUnchecked_grammarRecord_iff.2
      ⟨rfl, rfl, Archive.revive_lexicon_iff.2 he.patterns, hrules, hlexical⟩
  have hparts : Engine.savedParts (Engine.record (Archive.grammarRecord (.ofChecked e.grammar))
      (Archive.ofTable e.table) e.options) anew = .ok ⟨o, _, e.table.toDatum⟩ :=
    Engine.savedParts_record_iff.2 ⟨hanew, ho, hu, Archive.toRows_ofTable_iff.2 he.table⟩
  have hchecked := Archive.checked?_of_toUnchecked hu rfl
  refine ⟨⟨rules, lexical⟩, ?_⟩
  have he' : Engine.assemble p { e.grammar with source := ⟨rules, lexical⟩ } e.table o .empty = .ok
      ⟨⟨{ e.grammar with source := ⟨rules, lexical⟩ }, e.table, lexer⟩, o, o.debug.truthy,
        .empty⟩ := Engine.assemble_eq_ok_iff.2 ⟨lexer, hlexer, rfl⟩
  rw [reload, toArchive_of_reloadable he]
  simp only [bind, Except.bind, load, hparts, hchecked, Archive.checked?_toDatum, he']

/-- A settled engine can be loaded under its own options exactly when it is reloadable. -/
theorem exists_reload_iff {e : Engine} (settled : e.Settled p) :
    (∃ a, reload p (.checked e) [] = .ok a) ↔ e.Reloadable := by
  constructor
  · rintro ⟨a, ha⟩
    exact reloadable_of_reload ha
  · intro he
    obtain ⟨entries, ho⟩ := settled.options
    have hnone : Options.Loadable [] := by simp [Options.Loadable]
    obtain ⟨source, hload⟩ :=
      reload_of_reloadable he hnone (Options.ofEntries_fields ho) settled.lexer
    exact ⟨_, hload⟩

/-- An engine that was made can be loaded from its archive exactly when the key of a record is neither
a name in its table nor a pattern and the values that its grammar was read from can be archived and
read again. Its table and its grammar, each on its own, come back exactly when their part of this is
so. Values can be read again if they hold no productions and no grammars, the members of their sets
have an order, and no dictionary in them has that key. -/
theorem reload_iff {scheme : Engine.CacheScheme} {input : AnyInput} {given : Options.Given}
    {s s' : FileStore} {e : Engine} {log : Log}
    (hmake : make p scheme input given s = (.ok (.checked e, log), s')) :
    ((∃ a, reload p (.checked e) [] = .ok a) ↔ e.Reloadable) ∧
      (Archive.toTable (Archive.ofTable e.table) = .ok e.table ↔
        e.table.Lacks Archive.recordKey) ∧
      ((∃ source, AnyGrammar.reload (.checked e.grammar) =
          .ok (.checked { e.grammar with source := source })) ↔
        Archive.recordKey ∉ e.grammar.lexicon.patterns ∧ e.grammar.source.Readable) ∧
      (Archive.bare e.grammar.source.rules = true → Archive.bare e.grammar.source.lexicon = true →
        e.grammar.source.Readable) := by
  refine ⟨exists_reload_iff (settled_of_make hmake), Archive.toTable_ofTable_iff, ?_, ?_⟩
  · constructor
    · rintro ⟨source, hsource⟩
      obtain ⟨⟨harchivable, harchivable'⟩, hpatterns, hrules, hlexical⟩ :=
        Archive.reload_checked_iff.1 hsource
      exact ⟨hpatterns, ⟨harchivable, _, hrules⟩, ⟨harchivable', _, hlexical⟩⟩
    · rintro ⟨hpatterns, ⟨harchivable, rules, hrules⟩, ⟨harchivable', lexical, hlexical⟩⟩
      exact ⟨⟨rules, lexical⟩, Archive.reload_checked_iff.2
        ⟨⟨harchivable, harchivable'⟩, hpatterns, hrules, hlexical⟩⟩
  · intro hrules hlexical
    exact ⟨Archive.readable_of_bare hrules, Archive.readable_of_bare hlexical⟩

/-! ## Engines that can and that cannot be loaded -/

/-- The engine of an input, made without a cache. -/
def made (input : AnyInput) : Option Engine :=
  match make .bare (.standard "" false) input [] (.empty []) with
  | (.ok (.checked e, _), _) => some e
  | _ => none

theorem of_made {input : AnyInput} {e : Engine} (h : made input = some e) :
    ∃ log s, make .bare (.standard "" false) input [] (.empty []) = (.ok (.checked e, log), s) := by
  rw [made] at h
  split at h
  · next e' log s hmake =>
      obtain rfl := Option.some.inj h
      exact ⟨log, s, hmake⟩
  · exact absurd h (by simp)

/-- The engine for names is loaded again, with its table and its grammar. -/
theorem reload_names :
    ∃ e, made names = some e ∧ (∃ a, reload .bare (.checked e) [] = .ok a) ∧
      Archive.toTable (Archive.ofTable e.table) = .ok e.table ∧
      ∃ source, AnyGrammar.reload (.checked e.grammar) =
        .ok (.checked { e.grammar with source := source }) := by
  have observed : (made names).any (fun e =>
      decide (e.table.Lacks Archive.recordKey) &&
        decide (Archive.recordKey ∉ e.grammar.lexicon.patterns) &&
        (Archive.bare e.grammar.source.rules && Archive.bare e.grammar.source.lexicon)) = true := by
    decide +kernel
  obtain ⟨e, he, h⟩ := (Option.any_eq_true _ _).1 observed
  simp only [Bool.and_eq_true, decide_eq_true_eq] at h
  obtain ⟨⟨htable, hpatterns⟩, hrules, hlexical⟩ := h
  obtain ⟨log, s, hmake⟩ := of_made he
  obtain ⟨load_iff, table_iff, grammar_iff, readable⟩ := reload_iff hmake
  have hsource := readable hrules hlexical
  exact ⟨e, he, load_iff.2 ⟨htable, hpatterns, hsource⟩, table_iff.2 htable,
    grammar_iff.2 ⟨hpatterns, hsource⟩⟩

/-- A grammar whose nonterminal is the key that marks a record. -/
def markedRow : AnyInput :=
  .given (.value (.list [.text (Archive.recordKey ++ " -> \"a\"")]))

/-- A grammar with a lexical rule whose pattern is the key that marks a record. -/
def markedPattern : AnyInput :=
  .given (.value (.dict [(.text "bnf", .list [.text "S -> b"]),
    (.text "lex", .dict [(.text Archive.recordKey, .text "b")])]))

/-- A grammar with two lexical rules in a set, one in a tuple and one in a set of its own, which have
no order. -/
def unordered : AnyInput :=
  .given (.value (.dict [(.text "bnf", .list [.text "S -> b"]),
    (.text "lex", .set false [.tuple [.text "a", .text "b"],
      .set true [.text "c", .text "d"]])]))

/-- What is made cannot always be loaded: the table of `markedRow` does not come back, and neither does
the grammar of `markedPattern`. There is not even an archive of the engine of `unordered`. -/
theorem not_reload_marked :
    (¬ ∀ (input : AnyInput) (given : Options.Given) (s s' : FileStore) (e : Engine) (log : Log),
      make .bare (.standard "" false) input given s = (.ok (.checked e, log), s') →
        ∃ a, reload .bare (.checked e) [] = .ok a) ∧
    (¬ ∀ (input : AnyInput) (given : Options.Given) (s s' : FileStore) (e : Engine) (log : Log),
      make .bare (.standard "" false) input given s = (.ok (.checked e, log), s') →
        Archive.toTable (Archive.ofTable e.table) = .ok e.table) ∧
    (¬ ∀ (input : AnyInput) (given : Options.Given) (s s' : FileStore) (e : Engine) (log : Log),
      make .bare (.standard "" false) input given s = (.ok (.checked e, log), s') →
        ∃ source, AnyGrammar.reload (.checked e.grammar) =
          .ok (.checked { e.grammar with source := source })) ∧
    ∃ e, made unordered = some e ∧ ∀ d, e.toArchive ≠ .ok d := by
  -- a row, a pattern and a set: each of them is refused at another place
  have row : (made markedRow).any (fun e => !(reload .bare (.checked e) []).isOk &&
      !(Archive.toTable (Archive.ofTable e.table)).isOk) = true := by
    decide +kernel
  have pattern : (made markedPattern).any (fun e =>
      !(AnyGrammar.reload (.checked e.grammar)).isOk) = true := by
    decide +kernel
  have archived : (made unordered).any (fun e => !e.toArchive.isOk) = true := by
    decide +kernel
  obtain ⟨e, he, refused⟩ := (Option.any_eq_true _ _).1 row
  obtain ⟨log, s, hmake⟩ := of_made he
  rw [Bool.and_eq_true] at refused
  refine ⟨?_, ?_, ?_, ?_⟩
  · intro loads
    obtain ⟨a, ha⟩ := loads _ _ _ _ _ _ hmake
    rw [ha] at refused
    exact absurd refused.1 (by simp [Except.isOk, Except.toBool])
  · intro returns
    rw [returns _ _ _ _ _ _ hmake] at refused
    exact absurd refused.2 (by simp [Except.isOk, Except.toBool])
  · intro returns
    obtain ⟨e', he', refused'⟩ := (Option.any_eq_true _ _).1 pattern
    obtain ⟨log', s', hmake'⟩ := of_made he'
    obtain ⟨source, hsource⟩ := returns _ _ _ _ _ _ hmake'
    rw [hsource] at refused'
    exact absurd refused' (by simp [Except.isOk, Except.toBool])
  · obtain ⟨e', he', refused'⟩ := (Option.any_eq_true _ _).1 archived
    refine ⟨e', he', ?_⟩
    intro d hd
    rw [hd] at refused'
    exact absurd refused' (by simp [Except.isOk, Except.toBool])

end AnyEngine

end Predictive
