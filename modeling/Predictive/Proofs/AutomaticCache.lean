import Predictive.Proofs.CacheKeys
import Predictive.Proofs.CachePlaces
import Predictive.Proofs.Reloadability

/-!
# Engines that are kept under their digests

When the place of an engine is left to the digest of what it is made of, a file that is found was written
for a construction with the same digest (`Construction.Kept`). If digests are different where the digested
texts are, and these tell what the engines are made of, then that construction was of the same value with
the same options, so what is loaded is like the engine that is made without a cache
(`Construction.under_automatic`). This takes an engine that can be loaded from its archive: of the others
a file is kept all the same, which serves nothing.

Neither condition can be dropped (`Construction.not_under_automatic_marked`).
-/

set_option autoImplicit false

namespace Predictive

open FileStore (cacheName)

namespace Construction

/-- The value for the cache under which a digest names the file. -/
def automatic : Datum := .bool true

/-- The text that is digested for the engine of a value, wherever the engine is kept. -/
def key (c : Construction) (d : Datum) : String :=
  Engine.cacheKey (.standard "" false) d (c.optionsAt automatic)

/-- The construction is of a value, and the text that is digested for it tells the value and the
options. -/
structure Told (c : Construction) : Prop where
  input : ∃ d, c.input = .given (.value d) ∧ d.isTold = true
  options : ∀ e ∈ c.options, e.2.isTold = true ∧ e.2.text? = none

/-- The directory is there, and none in it has the name of a kept engine. -/
structure CacheDirectory (directories : List Steps) (directory : String) (here : Steps) : Prop where
  leads : (FileStore.empty directories).LeadsTo directory here
  vacant : ∀ x, (FileStore.empty directories).hasDirectory (here ++ [cacheName x]) = false

variable {p : Platform} {c f : Construction} {cs : List Construction} {directories : List Steps}
  {directory : String} {atomic : Bool} {here : Steps} {s s' : FileStore} {d : Datum} {b : AnyEngine}

/-! ## What is kept -/

theorem path_eq (c : Construction) (directory : String) (atomic : Bool) (d : Datum) :
    c.path (.standard directory atomic) automatic d =
      FileStore.join directory (cacheName (Digest.md5 (c.key d))) := rfl

/-- The place of the file for the engine of a value. -/
def place (c : Construction) (here : Steps) (d : Datum) : Steps :=
  here ++ [cacheName (Digest.md5 (c.key d))]

theorem locate_path (hdir : CacheDirectory directories directory here)
    (hs : s.directories = directories) (c : Construction) (atomic : Bool) (d : Datum) :
    s.locate (c.path (.standard directory atomic) automatic d) = some (c.place here d) := by
  have hsame : s.directories = (FileStore.empty directories).directories := hs
  rw [FileStore.locate_congr hsame, path_eq]
  exact FileStore.locate_join hdir.leads
    (FileStore.isPlain_cacheName fun _ hc => Digest.ne_of_mem_md5 hc)

/-- Every file was left by one of the constructions, at the place of its digest. -/
structure Kept (p : Platform) (directories : List Steps) (here : Steps) (cs : List Construction)
    (s : FileStore) : Prop where
  directories : s.directories = directories
  files : ∀ steps content, s.files.get? steps = some content →
    ∃ f ∈ cs, ∃ d a, f.source = .ok d ∧ f.alone p = .ok a ∧ steps = f.place here d ∧
      (AnyEngine.maker p f.input).Leaves (a.withCache automatic) content

theorem kept_empty (p : Platform) (directories : List Steps) (here : Steps) :
    Kept p directories here [] (.empty directories) where
  directories := rfl
  files steps content h := absurd h (by simp [FileStore.empty])

theorem Kept.mono (kept : Kept p directories here cs s) (c : Construction) :
    Kept p directories here (cs ++ [c]) s where
  directories := kept.directories
  files := by
    intro steps content hfile
    obtain ⟨f, hf, hrest⟩ := kept.files steps content hfile
    exact ⟨f, List.mem_append_left _ hf, hrest⟩

/-- A construction leaves the files as they are, or adds its own. -/
theorem Kept.under (hdir : CacheDirectory directories directory here)
    (kept : Kept p directories here cs s) (c : Construction) (atomic : Bool) :
    Kept p directories here (cs ++ [c])
      (c.under p (.standard directory atomic) automatic s).2 := by
  have hplace : Options.isCachePlace automatic = true := rfl
  rcases store_of_under p c (.standard directory atomic) s hplace with
    same | ⟨-, d, a, content, hd, ha, -, leaves, hwrite⟩
  · rw [same]
    exact kept.mono c
  · -- the file is new
    obtain ⟨steps, hsteps, hstore⟩ := Option.map_eq_some_iff.1 hwrite
    have hlocate := (Option.filter_eq_some_iff.1 hsteps).1
    rw [locate_path hdir kept.directories] at hlocate
    obtain rfl := Option.some.inj hlocate
    rw [← hstore]
    refine ⟨kept.directories, ?_⟩
    intro steps content' hfile
    change (s.files.insert _ _).get? steps = some content' at hfile
    rw [OrderedMap.get?_insert] at hfile
    split at hfile
    · next hsame =>
        obtain rfl := Option.some.inj hfile
        have hc : c ∈ cs ++ [c] := List.mem_append_right _ (List.mem_singleton.2 rfl)
        exact ⟨c, hc, d, a, hd, ha, hsame.symm, leaves⟩
    · exact (kept.mono c).files steps content' hfile

/-- After any constructions, every file was left by one of them. -/
theorem kept_storeAfter (hdir : CacheDirectory directories directory here) (p : Platform)
    (atomic : Bool) (cs : List Construction) :
    Kept p directories here cs
      (storeAfter p (.standard directory atomic) automatic cs (.empty directories)) := by
  -- a step keeps the statement for what is done, and the run takes what comes
  have run : ∀ (cs done : List Construction) (s : FileStore), Kept p directories here done s →
      Kept p directories here (done ++ cs)
        (storeAfter p (.standard directory atomic) automatic cs s) := by
    intro cs
    induction cs with
    | nil =>
        intro done s kept
        rw [List.append_nil]
        exact kept
    | cons c cs ih =>
        intro done s kept
        rw [storeAfter_cons, List.append_cons]
        apply ih
        exact kept.under hdir c atomic
  exact run cs [] _ (kept_empty p directories here)

/-! ## Constructions with the same key -/

/-- A construction of the same value with the same options gives the same engine. -/
theorem alone_congr (hinput : f.input = c.input)
    (hoptions : Options.ofGiven f.options = Options.ofGiven c.options) : f.alone p = c.alone p := by
  rw [alone_eq, alone_eq, hoptions, hinput]

theorem isTold_optionsAt (told : c.Told) {o : Options} (ho : Options.ofGiven c.options = .ok o) :
    ∀ e ∈ c.optionsAt automatic, Options.isTold e = true := by
  intro e he
  rcases List.mem_cons.1 he with rfl | he
  · rfl
  · obtain ⟨name, hname⟩ := Options.isKnown_of_ofGiven ho e he
    obtain ⟨hvalue, hnone⟩ := told.options e he
    rw [Options.isTold, hname, hvalue, hnone]
    rfl

theorem lastGiven_optionsAt (c : Construction) (s : String) :
    Options.lastGiven s (c.optionsAt automatic) =
      (Options.lastGiven s c.options).or
        (if OptionName.cache.text = s then some automatic else none) := rfl

/-- A name that is not given has no last value. -/
theorem lastGiven_cache (c : Construction) :
    Options.lastGiven OptionName.cache.text c.options = none := by
  rw [Option.eq_none_iff_forall_not_mem]
  intro v hv
  exact c.placeless _ (Options.mem_of_lastGiven hv) rfl

/-- Where the keys are the same, so are the engines that are made without a cache. -/
theorem alone_eq_of_key (hf : f.Told) (hc : c.Told) {o o' : Options}
    (ho : Options.ofGiven f.options = .ok o) (ho' : Options.ofGiven c.options = .ok o')
    {d' : Datum} (hd : f.source = .ok d) (hd' : c.source = .ok d')
    (h : f.key d = c.key d') : f.alone p = c.alone p := by
  obtain ⟨x, hx, toldx⟩ := hf.input
  obtain ⟨y, hy, toldy⟩ := hc.input
  obtain rfl : x = d := Except.ok.inj ((source_of_value hx).symm.trans hd)
  obtain rfl : y = d' := Except.ok.inj ((source_of_value hy).symm.trans hd')
  obtain ⟨rfl, hlast⟩ := Engine.eq_of_cacheKey toldx toldy (isTold_optionsAt hf ho)
    (isTold_optionsAt hc ho') h
  -- the key lists the place as well, which is not among the options given
  have hgiven : ∀ s, Options.lastGiven s f.options = Options.lastGiven s c.options := by
    intro s
    by_cases hs : OptionName.cache.text = s
    · subst hs
      rw [lastGiven_cache, lastGiven_cache]
    · have := hlast s
      rwa [lastGiven_optionsAt, lastGiven_optionsAt, if_neg hs, Option.or_none, Option.or_none]
        at this
  have hsame : o = o' := by
    obtain ⟨rfl, -, -⟩ := Options.ofEntries_eq_ok_iff.1 ho
    obtain ⟨rfl, -, -⟩ := Options.ofEntries_eq_ok_iff.1 ho'
    exact Options.filled_congr hgiven
  exact alone_congr (hx.trans hy.symm) (by rw [ho, ho', hsame])

/-! ## Engines that are served -/

/-- An engine that is made without a cache has its grammar, table and lexer, under its options. -/
theorem parts_of_alone {e : Engine} (h : c.alone p = .ok (.checked e)) :
    ∃ lexer m, Options.ofGiven c.options = .ok e.options ∧
      Engine.lexerOf p e.grammar e.options = .ok lexer ∧
      e = ⟨⟨e.grammar, e.table, lexer⟩, e.options, e.options.debug.truthy, m⟩ := by
  rw [alone_eq] at h
  obtain ⟨o, ho, h⟩ := exists_of_bind_eq_ok h
  obtain ⟨⟨a, log⟩, hbuild, h⟩ := exists_of_bind_eq_ok h
  obtain rfl := Except.ok.inj h
  obtain ⟨g, warnings, told, -, he, -⟩ := AnyEngine.build_checked_iff.1 hbuild
  obtain ⟨t, -, he, -⟩ := Engine.ofGrammar_eq_ok_iff.1 he
  obtain ⟨lexer, hlexer, rfl⟩ := Engine.assemble_eq_ok_iff.1 he
  exact ⟨lexer, _, ho, hlexer, rfl⟩

/-- Without a cache the option for it is off. -/
theorem cache_of_alone {e : Engine} (h : c.alone p = .ok (.checked e)) :
    e.options.cache = .bool false := by
  obtain ⟨lexer, m, ho, -, -⟩ := parts_of_alone h
  exact Options.cache_off_of_ofGiven c.placeless ho

/-- Whether an engine can be loaded from its archive does not depend on the cache. -/
theorem reloadable_withCache {e : Engine} (he : e.Reloadable) (v : Datum) :
    (e.withCache v).Reloadable :=
  ⟨he.table, he.patterns, he.source⟩

/-- What is loaded for a construction from the archive of its own engine is like that engine. -/
theorem exists_reload_own {e : Engine} (h : c.alone p = .ok (.checked e)) (he : e.Reloadable) :
    ∃ e', AnyEngine.reload p ((AnyEngine.checked e).withCache automatic)
        (Engine.loadable c.options) = .ok (.checked e') ∧
      (e'.withCache (.bool false)).Alike e := by
  obtain ⟨lexer, m, ho, hlexer, hparts⟩ := parts_of_alone h
  have hgiven : Options.ofGiven (c.optionsAt automatic) = .ok (e.options.set .cache automatic) :=
    ofGiven_optionsAt rfl ho
  have hagain := Options.ofEntries_override_again hgiven
  obtain ⟨source, hload⟩ := AnyEngine.reload_of_reloadable (reloadable_withCache he automatic)
    (Options.loadable_loadable c.options) hagain hlexer
  refine ⟨_, hload, ?_⟩
  have halike := Engine.alike_withCache e.grammar source e.table lexer (cache_of_alone h) automatic
    e.options.debug.truthy .empty m
  rwa [← hparts] at halike

/-! ## Files for the same key -/

theorem hasDirectory_place (hdir : CacheDirectory directories directory here)
    (hs : s.directories = directories) (c : Construction) (d : Datum) :
    s.hasDirectory (c.place here d) = false := by
  have hvacant := hdir.vacant (Digest.md5 (c.key d))
  rw [FileStore.hasDirectory] at hvacant ⊢
  rw [hs]
  exact hvacant

/-- No directory stands where the engine is kept. -/
theorem leadsToDirectory_path (hdir : CacheDirectory directories directory here)
    (hs : s.directories = directories) (c : Construction) (atomic : Bool) (d : Datum) :
    s.leadsToDirectory (c.path (.standard directory atomic) automatic d) = false := by
  rw [FileStore.leadsToDirectory, locate_path hdir hs, Option.any_some]
  exact hasDirectory_place hdir hs c d

/-- The engine can be kept. -/
theorem exists_write_path (hdir : CacheDirectory directories directory here)
    (hs : s.directories = directories) (c : Construction) (atomic : Bool) (d : Datum)
    (content : FileContent) :
    ∃ s', s.write? (c.path (.standard directory atomic) automatic d) content = some s' := by
  rw [FileStore.write?, locate_path hdir hs, Option.filter_some, if_pos]
  · exact ⟨_, rfl⟩
  · rw [hasDirectory_place hdir hs c d]
    rfl

/-- What the digested texts of different constructions have to be like for their files not to be mixed
up. -/
def DigestsDiffer (cs : List Construction) (c : Construction) : Prop :=
  ∀ f ∈ cs, ∀ d d', f.source = .ok d → c.source = .ok d' →
    Digest.md5 (f.key d) = Digest.md5 (c.key d') → f.key d = c.key d'

/-- A file that is found for a construction was left by the engine that is made for it without a
cache. -/
theorem alone_of_read (hdir : CacheDirectory directories directory here)
    (kept : Kept p directories here cs s) (hcs : ∀ f ∈ cs, f.Told) (hc : c.Told)
    (digests : DigestsDiffer cs c) {o : Options} (ho : Options.ofGiven c.options = .ok o)
    (hd : c.source = .ok d) {content : FileContent}
    (hread : s.read? (c.path (.standard directory atomic) automatic d) = some content) :
    ∃ a, c.alone p = .ok a ∧
      (AnyEngine.maker p c.input).Leaves (a.withCache automatic) content := by
  rw [FileStore.read?, locate_path hdir kept.directories, Option.bind_some] at hread
  obtain ⟨f, hf, x, a, hx, ha, hplace, leaves⟩ := kept.files _ _ hread
  -- the places are the same, so are the names, the digests, the keys and what they stand for
  have hname : cacheName (Digest.md5 (c.key d)) = cacheName (Digest.md5 (f.key x)) :=
    List.singleton_inj.1 (List.append_cancel_left hplace)
  have hkey := digests f hf x d hx hd (FileStore.cacheName_injective hname).symm
  obtain ⟨o', ho'⟩ := exists_options_of_alone ha
  have hsame : f.alone p = c.alone p := alone_eq_of_key (hcs f hf) hc ho' ho hx hd hkey
  refine ⟨a, hsame.symm.trans ha, ?_⟩
  cases leaves with
  | archive archived => exact .archive archived
  | nothing refused => exact .nothing refused

/-- If every value and every option is told by its written form, a construction that fails without a
cache fails in the same way where the engines of others are kept. -/
theorem under_of_alone_failure (hdir : CacheDirectory directories directory here)
    (kept : Kept p directories here cs s) (hcs : ∀ f ∈ cs, f.Told) (hc : c.Told)
    (digests : DigestsDiffer cs c) (hd : c.source = .ok d) {failure : Failure}
    (halone : c.alone p = .error failure) :
    c.under p (.standard directory atomic) automatic s = (.error failure, s) := by
  cases ho : Options.ofGiven c.options with
  | error failure' =>
      rw [alone_eq, ho] at halone
      have hsame : failure' = failure := Except.error.inj halone
      rw [under_of_badOptions rfl ho, hsame]
  | ok o =>
      cases hread : s.read? (c.path (.standard directory atomic) automatic d) with
      | some content =>
          -- a file that is found stands for an engine
          obtain ⟨a, ha, -⟩ := alone_of_read hdir kept hcs hc digests ho hd hread
          exact absurd (ha.symm.trans halone) (by simp)
      | none =>
          exact under_of_fresh_error rfl rfl ho hd hread
            (leadsToDirectory_path hdir kept.directories c atomic d) halone

/-- Under the same conditions, what can be loaded from its archive is loaded or made anew. -/
theorem under_of_alone_reloadable (hdir : CacheDirectory directories directory here)
    (kept : Kept p directories here cs s) (hcs : ∀ f ∈ cs, f.Told) (hc : c.Told)
    (digests : DigestsDiffer cs c) (hd : c.source = .ok d) {e : Engine}
    (halone : c.alone p = .ok (.checked e)) (he : e.Reloadable) :
    ∃ e' s', c.under p (.standard directory atomic) automatic s = (.ok (.checked e'), s') ∧
      (e'.withCache (.bool false)).Alike e := by
  obtain ⟨-, -, ho, -, -⟩ := parts_of_alone halone
  have archived := AnyEngine.toArchive_of_reloadable (reloadable_withCache he automatic)
  cases hread : s.read? (c.path (.standard directory atomic) automatic d) with
  | some content =>
      -- what is found was left by this very engine, and is its archive
      obtain ⟨a, ha, leaves⟩ := alone_of_read hdir kept hcs hc digests ho hd hread
      obtain rfl := Except.ok.inj (halone.symm.trans ha)
      obtain ⟨e', hload, halike⟩ := exists_reload_own halone he
      refine ⟨e', s, ?_, halike⟩
      cases leaves with
      | nothing refused => exact absurd (archived.symm.trans refused) (by simp)
      | @archive kept' archived' =>
          apply under_of_kept rfl rfl ho hd hread
          rw [AnyEngine.reload] at hload
          obtain ⟨kept, hkept, hload⟩ := exists_of_bind_eq_ok hload
          obtain rfl : kept' = kept := Except.ok.inj (archived'.symm.trans hkept)
          exact hload
  | none =>
      obtain ⟨s', hwrite⟩ := exists_write_path hdir kept.directories c atomic d (.archive _)
      refine ⟨e.withCache automatic, s', ?_, ?_⟩
      · exact under_of_fresh_ok rfl rfl ho hd hread
          (leadsToDirectory_path hdir kept.directories c atomic d) halone archived hwrite
      · exact Engine.alike_withCache e.grammar e.grammar.source e.table e.lexer
          (cache_of_alone halone) automatic e.tracing e.memo e.memo

/-- Constructions of values whose engines are kept under digests, one after the other. If every value
and every option is told by its written form, and digests are different where the digested texts are,
then a further construction fails exactly as it fails without a cache, and otherwise gives an engine
like the one that is made without a cache, if that one can be loaded from its archive. -/
theorem under_automatic (p : Platform) (atomic : Bool)
    (hdir : CacheDirectory directories directory here) (cs : List Construction) (c : Construction)
    (hcs : ∀ f ∈ cs, f.Told) (hc : c.Told) (digests : DigestsDiffer cs c)
    (reloadable : ∀ a, c.alone p = .ok a → ∃ e, a = .checked e ∧ e.Reloadable) :
    (∀ failure, (c.under p (.standard directory atomic) automatic
        (storeAfter p (.standard directory atomic) automatic cs (.empty directories))).1 =
          .error failure ↔ c.alone p = .error failure) ∧
    ∀ e, c.alone p = .ok (.checked e) → ∃ e' s', c.under p (.standard directory atomic) automatic
        (storeAfter p (.standard directory atomic) automatic cs (.empty directories)) =
          (.ok (.checked e'), s') ∧ (e'.withCache (.bool false)).Alike e := by
  have kept := kept_storeAfter hdir p atomic cs
  -- of the history nothing is needed but that every file was left by one of the constructions
  generalize storeAfter p (.standard directory atomic) automatic cs (.empty directories) = s at kept
  obtain ⟨d, hd, -⟩ := hc.input
  have serves : ∀ e, c.alone p = .ok (.checked e) → ∃ e' s',
      c.under p (.standard directory atomic) automatic s = (.ok (.checked e'), s') ∧
        (e'.withCache (.bool false)).Alike e := by
    intro e halone
    obtain ⟨e₀, hsame, he⟩ := reloadable _ halone
    obtain rfl := AnyEngine.checked.inj hsame
    exact under_of_alone_reloadable hdir kept hcs hc digests (source_of_value hd) halone he
  refine ⟨?_, serves⟩
  intro failure
  cases halone : c.alone p with
  | error failure' =>
      rw [under_of_alone_failure hdir kept hcs hc digests (source_of_value hd) halone]
  | ok a =>
      obtain ⟨e, rfl, -⟩ := reloadable a halone
      obtain ⟨e', s', hserved, -⟩ := serves e halone
      rw [hserved]
      simp

/-- After one construction, another one whose digested text is the same gets the engine of the first. -/
theorem under_of_same_key (hdir : CacheDirectory directories directory here) {a : AnyEngine}
    (halone : f.alone p = .ok a) (hf : f.source = .ok d) {d' : Datum} (hc : c.source = .ok d')
    {o : Options} (ho : Options.ofGiven c.options = .ok o) (hkey : f.key d = c.key d')
    (hload : AnyEngine.reload p (a.withCache automatic) (Engine.loadable c.options) = .ok b) :
    (c.under p (.standard directory atomic) automatic
      (storeAfter p (.standard directory atomic) automatic [f] (.empty directories))).1 = .ok b := by
  obtain ⟨kept, archived, hload⟩ := exists_of_bind_eq_ok hload
  have hnone : (FileStore.empty directories).directories = directories := rfl
  obtain ⟨s, hwrite⟩ := exists_write_path hdir hnone f atomic d (.archive kept)
  have hfirst : f.under p (.standard directory atomic) automatic (.empty directories) =
      (.ok (a.withCache automatic), s) := by
    obtain ⟨o', ho'⟩ := exists_options_of_alone halone
    exact under_of_fresh_ok rfl rfl ho' hf (FileStore.read?_empty _ _)
      (leadsToDirectory_path hdir hnone f atomic d) halone archived hwrite
  -- the path holds the digest only, so the second construction finds the file of the first one
  have hsame : c.path (.standard directory atomic) automatic d' =
      f.path (.standard directory atomic) automatic d := by
    rw [path_eq, path_eq, hkey]
  have hread : s.read? (c.path (.standard directory atomic) automatic d') =
      some (.archive kept) := by
    rw [hsame]
    exact FileStore.read?_of_write? hwrite
  rw [storeAfter_cons, hfirst]
  change (c.under p (.standard directory atomic) automatic s).1 = _
  rw [under_of_kept rfl rfl ho hc hread hload]

/-! ## Constructions in one directory -/

/-- The engine that is made after other constructions, and kept under its digest in `TMP`. -/
def servedIn (cs : List Construction) (c : Construction) : Except Failure AnyEngine :=
  (c.under .bare (.standard "TMP" false) automatic
    (storeAfter .bare (.standard "TMP" false) automatic cs (.empty [["TMP"]]))).1

theorem cacheDirectory_TMP : CacheDirectory [["TMP"]] "TMP" ["TMP"] where
  leads := ⟨by decide, by decide, by decide⟩
  vacant x := by simp [FileStore.hasDirectory, FileStore.empty, FileStore.root]

theorem told_letter (x : Char) (flags : Int) : (letter x flags).Told where
  input := ⟨_, rfl, rfl⟩
  options := by
    intro e he
    obtain rfl := List.mem_singleton.1 he
    exact ⟨rfl, rfl⟩

/-- The text to be digested, where the options are given once each and in order. -/
theorem key_eq {c : Construction} (honce : (OrderedMap.ofList (c.optionsAt automatic)).entries =
      c.optionsAt automatic)
    (h : (c.optionsAt automatic).Pairwise fun x y => decide (x.1 ≤ y.1) = true)
    (d : Datum) :
    c.key d =
      d.render ++ String.join ((c.optionsAt automatic).map Options.form) ++
        Engine.libraryVersion := by
  rw [key, Engine.cacheKey, Engine.optionText_of_sorted honce h]
  rfl

/-- The grammar for one letter is served again after that for another one. -/
theorem under_automatic_letters :
    ∃ e e', (letter 'a' 0).alone .bare = .ok (.checked e) ∧
      servedIn [letter 'a' 0, letter 'b' 2] (letter 'a' 0) = .ok (.checked e') ∧
      (e'.withCache (.bool false)).Alike e := by
  have observed : ((((letter 'a' 0).alone .bare).toOption.bind AnyEngine.checked?).any fun e =>
      decide (e.table.Lacks Archive.recordKey) &&
        decide (Archive.recordKey ∉ e.grammar.lexicon.patterns) &&
        (Archive.bare e.grammar.source.rules && Archive.bare e.grammar.source.lexicon)) = true := by
    decide +kernel
  obtain ⟨e, hmade, h⟩ := (Option.any_eq_true _ _).1 observed
  obtain ⟨a, ha, hchecked⟩ := Option.bind_eq_some_iff.1 hmade
  obtain rfl := AnyEngine.checked?_eq_some_iff.1 hchecked
  have halone := eq_ok_of_toOption ha
  simp only [Bool.and_eq_true, decide_eq_true_eq] at h
  obtain ⟨⟨htable, hpatterns⟩, hrules, hlexical⟩ := h
  have he : e.Reloadable := ⟨htable, hpatterns,
    ⟨Archive.readable_of_bare hrules, Archive.readable_of_bare hlexical⟩⟩
  have digests : DigestsDiffer [letter 'a' 0, letter 'b' 2] (letter 'a' 0) := by
    -- two of the three constructions are the same, so there is one pair of digests to compare
    have differ : Digest.md5 ((letter 'b' 2).key (.text "S -> \"b\"")) ≠
        Digest.md5 ((letter 'a' 0).key (.text "S -> \"a\"")) := by
      rw [key_eq rfl (by decide), key_eq rfl (by decide)]
      decide +kernel
    intro f hf d d' hd hd' hsame
    obtain rfl := Except.ok.inj hd'
    rcases List.mem_cons.1 hf with rfl | hf
    · obtain rfl := Except.ok.inj hd
      rfl
    · obtain rfl := List.mem_singleton.1 hf
      obtain rfl := Except.ok.inj hd
      exact absurd hsame differ
  have told : ∀ f ∈ [letter 'a' 0, letter 'b' 2], f.Told := by
    intro f hf
    rcases List.mem_cons.1 hf with rfl | hf
    · exact told_letter 'a' 0
    · obtain rfl := List.mem_singleton.1 hf
      exact told_letter 'b' 2
  obtain ⟨-, serves⟩ := under_automatic .bare false cacheDirectory_TMP
    [letter 'a' 0, letter 'b' 2] (letter 'a' 0) told (told_letter 'a' 0) digests
    (fun a ha => ⟨e, Except.ok.inj (ha.symm.trans halone), he⟩)
  obtain ⟨e', s', hserved, halike⟩ := serves e halone
  exact ⟨e, e', halone, congrArg Prod.fst hserved, halike⟩

/-- A grammar whose nonterminal is the key that marks a record. -/
def marked : Construction := ⟨AnyEngine.markedRow, [], by simp⟩

/-- Two productions for the same letter. The value for the debug option ends like the options behind
it. -/
def misread : Construction :=
  ⟨.given (.value (.text "S -> \"a\" | \"a\"")), [("debug", .text "astrictTrue")],
    by simp [OptionName.text]⟩

/-- The same grammar, with the strict option given. -/
def refused : Construction :=
  ⟨.given (.value (.text "S -> \"a\" | \"a\"")), [("debug", .text "a"), ("strict", .bool true)],
    by simp [OptionName.text]⟩

/-- The texts to be digested for `misread` and for `refused` are the same. -/
theorem key_misread (d : Datum) : misread.key d = refused.key d := by
  rw [key_eq rfl (by decide), key_eq rfl (by decide)]
  rfl

/-- Engines that are kept under their digests are not always those that are made without a cache: that of
`marked` is kept and cannot be loaded, and that of `misread` is served where `refused` would be
refused, since the texts to be digested are the same. -/
theorem not_under_automatic_marked :
    (¬ ∀ (cs : List Construction) (c : Construction) (a : AnyEngine), c.alone .bare = .ok a →
      ∃ b, servedIn cs c = .ok b) ∧
    ¬ ∀ (cs : List Construction) (c : Construction) (failure : Failure),
      c.alone .bare = .error failure → ∃ failure', servedIn cs c = .error failure' := by
  constructor
  · -- the archive that the first construction keeps cannot be read back by the second one
    intro serves
    have observed : (marked.alone .bare).isOk = true ∧ (servedIn [marked] marked).isOk = false := by
      decide +kernel
    obtain ⟨a, halone⟩ := exists_eq_ok observed.1
    obtain ⟨failure, hfailure⟩ := exists_eq_error observed.2
    obtain ⟨b, hserved⟩ := serves _ _ a halone
    exact absurd (hserved.symm.trans hfailure) (by simp)
  · -- the text to be digested is that of another construction, whose engine is served
    intro fails
    have observed : (refused.alone .bare).isOk = false ∧
        ((misread.alone .bare).toOption.any fun a =>
          (AnyEngine.reload .bare (a.withCache automatic)
            (Engine.loadable refused.options)).isOk) = true := by
      decide +kernel
    obtain ⟨failure, halone⟩ := exists_eq_error observed.1
    obtain ⟨a, ha, hload⟩ := (Option.any_eq_true _ _).1 observed.2
    obtain ⟨b, hload⟩ := exists_eq_ok hload
    obtain ⟨failure', hfailure⟩ := fails [misread] _ failure halone
    obtain ⟨o, ho⟩ : ∃ o, Options.ofGiven refused.options = .ok o :=
      exists_eq_ok (by decide +kernel)
    have hserved : servedIn [misread] refused = .ok b :=
      under_of_same_key cacheDirectory_TMP (eq_ok_of_toOption ha) rfl rfl ho (key_misread _) hload
    exact absurd (hserved.symm.trans hfailure) (by simp)

end Construction

end Predictive
