import Predictive.Proofs.Reloading

/-!
# Engines made with and without a cache

A construction is what an engine is made of, with the options that are given beside the one for the
cache. Giving that one as well changes nothing about the engine that is built, but for the value of the
option itself (`Options.ofGiven_place`, `AnyEngine.build_set_cache`). So there are only two things that
making an engine under a cache can do: what is done without a cache, and a file is written then
(`Construction.under_of_fresh_ok`); or loading what was kept (`Construction.under_of_kept`). A file that
is there is never written again, and a new one holds the archive of the engine, or nothing if the
engine has none (`Construction.store_of_under`).
-/

set_option autoImplicit false

namespace Predictive

/-- Nothing is read of a store without files. -/
theorem FileStore.read?_empty (directories : List Steps) (path : String) :
    (FileStore.empty directories).read? path = none := by
  rw [FileStore.read?]
  cases (FileStore.empty directories).locate path <;> rfl

/-- What can be written leads to no directory. -/
theorem FileStore.leadsToDirectory_of_write? {s t : FileStore} {path : String}
    {content : FileContent} (h : s.write? path content = some t) :
    s.leadsToDirectory path = false := by
  obtain ⟨steps, hsteps, -⟩ := Option.map_eq_some_iff.1 h
  obtain ⟨hlocate, hfree⟩ := Option.filter_eq_some_iff.1 hsteps
  rw [leadsToDirectory, hlocate, Option.any_some]
  simpa using hfree

/-! ## The option for the cache -/

namespace Options

theorem insertEntry_cons_of_ne {s t : String} (h : s ≠ t) (v w : Datum)
    (es : List (Datum × Datum)) :
    OrderedMap.insertEntry (.text t) w ((.text s, v) :: es) =
      (.text s, v) :: OrderedMap.insertEntry (.text t) w es := by
  rw [OrderedMap.insertEntry, if_neg]
  simp [h]

theorem override_cons_of_ne {s : String} {given : Given} (h : ∀ e ∈ given, e.1 ≠ s) (v : Datum)
    (es : List (Datum × Datum)) :
    Engine.override given ((.text s, v) :: es) = (.text s, v) :: Engine.override given es := by
  -- what is given is put in one by one, behind the first entry
  induction given generalizing es with
  | nil => rfl
  | cons e given ih =>
      have hne : s ≠ e.1 := (h e List.mem_cons_self).symm
      have hrest : ∀ x ∈ given, x.1 ≠ s := fun x hx => h x (List.mem_cons_of_mem _ hx)
      change Engine.override given (OrderedMap.insertEntry (.text e.1) e.2 ((.text s, v) :: es)) = _
      rw [insertEntry_cons_of_ne hne]
      exact ih hrest _

theorem givenEntries_eq_override (given : Given) :
    givenEntries given = Engine.override given [] :=
  givenEntries_append [] given

/-- A name that is given once, before all others, is the first of the entries. -/
theorem givenEntries_cons {s : String} {given : Given} (h : ∀ e ∈ given, e.1 ≠ s) (v : Datum) :
    givenEntries ((s, v) :: given) = (.text s, v) :: givenEntries given := by
  rw [givenEntries_eq_override, givenEntries_eq_override]
  exact override_cons_of_ne h v []

/-- A name that is not given has no entry. -/
theorem lookupEntry_givenEntries_of_ne {s : String} {given : Given} (h : ∀ e ∈ given, e.1 ≠ s) :
    OrderedMap.lookupEntry (.text s) (givenEntries given) = none := by
  rw [Option.eq_none_iff_forall_not_mem]
  intro v hv
  rw [givenEntries_eq_override] at hv
  rcases mem_or_of_lookupEntry_override hv with hmem | hnone
  · exact h _ hmem rfl
  · exact absurd hnone (by simp [OrderedMap.lookupEntry])

/-- Where the cache is not mentioned it is off. -/
theorem cache_filled_of_ne {given : Given} (h : ∀ e ∈ given, e.1 ≠ OptionName.cache.text) :
    (filled (givenEntries given)).cache = .bool false := by
  have hvalue := get_filled (givenEntries given) .cache
  rw [filledValue, lookupEntry_givenEntries_of_ne h] at hvalue
  exact hvalue

/-- Options that are given without a cache have it off. -/
theorem cache_off_of_ofGiven {given : Given} {o : Options}
    (h : ∀ e ∈ given, e.1 ≠ OptionName.cache.text) (ho : ofGiven given = .ok o) :
    o.cache = .bool false := by
  obtain ⟨rfl, -, -⟩ := ofEntries_eq_ok_iff.1 ho
  exact cache_filled_of_ne h

theorem filled_place {given : Given} (v : Datum) :
    filled ((.text OptionName.cache.text, v) :: givenEntries given) =
      (filled (givenEntries given)).set .cache v := by
  apply ext_get
  intro name
  rw [get_filled, filledValue, OrderedMap.lookupEntry, Datum.beq_text]
  by_cases hname : name = .cache
  · subst hname
    rfl
  · have hne : (OptionName.cache.text == name.text) = false := by
      cases name <;> first | rfl | exact absurd rfl hname
    rw [hne, get_set_of_ne _ _ (Ne.symm hname), get_filled, filledValue]
    rfl

/-- Saying where an engine is kept as well changes the one option, and no error. -/
theorem ofGiven_place {given : Given} (h : ∀ e ∈ given, e.1 ≠ OptionName.cache.text) {v : Datum}
    (hv : isCachePlace v = true) :
    ofGiven ((OptionName.cache.text, v) :: given) =
      ofGiven given >>= fun o => .ok (o.set .cache v) := by
  have hunknown : unknownKeys ((.text OptionName.cache.text, v) :: givenEntries given) =
      unknownKeys (givenEntries given) := rfl
  have hplace : isCachePlace ((filled (givenEntries given)).set .cache v).cache = true := hv
  -- the value for the cache is checked in both cases, and is accepted in both
  have hoff : isCachePlace (filled (givenEntries given)).cache = true := by
    rw [cache_filled_of_ne h]
    rfl
  rw [ofGiven, ofGiven, givenEntries_cons h, ofEntries, ofEntries, hunknown, filled_place]
  simp only [hplace, hoff, if_true]
  cases unknownKeys (givenEntries given) with
  | nil => rfl
  | cons key keys =>
      simp only [bind, Except.bind]
      cases keyNames (key :: keys) <;> rfl

theorem loadable_loadable (given : Given) : Loadable (Engine.loadable given) := by
  intro e he
  have hname := (List.mem_filter.1 he).2
  simpa [Option.any_eq_true] using hname

theorem set_cache_self {o : Options} {v : Datum} (h : o.cache = v) : o.set .cache v = o := by
  subst h
  rfl

end Options

/-! ## Engines under another option for the cache -/

/-- The engine with another value for the cache option. -/
def Engine.withCache (e : Engine) (v : Datum) : Engine :=
  { e with options := e.options.set .cache v }

/-- An engine whose cache option is turned off again is like the engine that was made without it. -/
theorem Engine.alike_withCache (g : Grammar) (source : Source) (t : ParseTable) (lexer : Lexer)
    {o : Options} (hoff : o.cache = .bool false) (place : Datum) (tracing : Bool) (m m' : Memo) :
    (Engine.withCache ⟨⟨{ g with source := source }, t, lexer⟩, o.set .cache place, tracing, m⟩
        (.bool false)).Alike
      ⟨⟨g, t, lexer⟩, o, tracing, m'⟩ := by
  have hback : (o.set .cache place).set .cache (.bool false) = o := Options.set_cache_self hoff
  rw [Engine.withCache]
  simp only [hback]
  exact alike_of_source g source t lexer o tracing m m'

/-- The engine with another value for the cache option. -/
def AnyEngine.withCache (v : Datum) : AnyEngine → AnyEngine
  | .checked e => .checked (e.withCache v)
  | .unchecked e => .unchecked { e with options := e.options.set .cache v }

namespace AnyEngine

/-- The checked engine, if it is one. -/
def checked? : AnyEngine → Option Engine
  | .checked e => some e
  | .unchecked _ => none

theorem checked?_eq_some_iff {a : AnyEngine} {e : Engine} :
    a.checked? = some e ↔ a = .checked e := by
  cases a <;> simp [checked?]

variable {p : Platform}

theorem assemble_set_cache (g : Grammar) (t : ParseTable) (o : Options) (m : Memo) (v : Datum) :
    Engine.assemble p g t (o.set .cache v) m =
      Engine.assemble p g t o m >>= fun e => .ok (e.withCache v) := by
  have hlexer : Engine.lexerOf p g (o.set .cache v) = Engine.lexerOf p g o := rfl
  rw [Engine.assemble, Engine.assemble, hlexer]
  cases Engine.lexerOf p g o <;> rfl

theorem assemble_unchecked_set_cache (g : Unchecked.Grammar) (rows : Datum) (o : Options)
    (m : Unchecked.Memo) (v : Datum) :
    Unchecked.Engine.assemble p g rows (o.set .cache v) m =
      Unchecked.Engine.assemble p g rows o m >>= fun e =>
        .ok { e with options := e.options.set .cache v } := by
  have hlexer : Unchecked.Engine.lexerOf p g (o.set .cache v) =
      Unchecked.Engine.lexerOf p g o := rfl
  rw [Unchecked.Engine.assemble, Unchecked.Engine.assemble, hlexer]
  cases Unchecked.Engine.lexerOf p g o <;> rfl

/-- The cache option changes nothing about what is built but itself. -/
theorem build_set_cache (input : AnyInput) (o : Options) (v : Datum) :
    build p input (o.set .cache v) =
      build p input o >>= fun built => .ok (built.1.withCache v, built.2) := by
  have hstrict : (o.set .cache v).strict = o.strict := rfl
  have hdebug : (o.set .cache v).debug = o.debug := rfl
  rw [build, build]
  cases AnyGrammar.obtain input with
  | error failure => rfl
  | ok obtained =>
      -- neither a table nor a lexer depends on the place of the cache
      obtain ⟨g | g, warnings⟩ := obtained
      · simp only [bind, Except.bind]
        rw [Engine.ofGrammar, Engine.ofGrammar, hstrict, hdebug]
        cases (ParseTable.build g o.strict.truthy .empty).result g with
        | error fault => rfl
        | ok t =>
            simp only [assemble_set_cache]
            cases Engine.assemble p g t o (ParseTable.build g o.strict.truthy .empty).memo <;> rfl
      · simp only [bind, Except.bind]
        rw [Unchecked.Engine.ofGrammar, Unchecked.Engine.ofGrammar, hstrict, hdebug]
        obtain ⟨⟨result, told⟩, memo⟩ :=
          (Unchecked.Table.build g o.strict.truthy o.debug.truthy).run .empty
        cases result with
        | error failure => rfl
        | ok rows =>
            simp only [bind, Except.bind, assemble_unchecked_set_cache]
            cases Unchecked.Engine.assemble p g rows o memo <;> rfl

end AnyEngine

/-! ## Constructions -/

/-- What an engine is made of, with the options that are given beside the one for the cache. -/
structure Construction where
  input : AnyInput
  options : Options.Given
  placeless : ∀ e ∈ options, e.1 ≠ OptionName.cache.text

namespace Construction

/-- The engine that is made without a cache. -/
def alone (p : Platform) (c : Construction) : Except Failure AnyEngine :=
  (AnyEngine.make p (.standard "" false) c.input c.options (.empty [])).1.map Prod.fst

/-- The options, with a value for the cache before them. -/
def optionsAt (c : Construction) (place : Datum) : Options.Given :=
  (OptionName.cache.text, place) :: c.options

/-- The engine that is made under a value for the cache, and the store after it. -/
def under (p : Platform) (c : Construction) (scheme : Engine.CacheScheme) (place : Datum)
    (s : FileStore) : Except Failure AnyEngine × FileStore :=
  (AnyEngine.make p scheme c.input (c.optionsAt place) s).map (Except.map Prod.fst) id

/-- The store after constructions one after the other. -/
def storeAfter (p : Platform) (scheme : Engine.CacheScheme) (place : Datum)
    (cs : List Construction) (s : FileStore) : FileStore :=
  cs.foldl (fun s c => (c.under p scheme place s).2) s

/-- The value that is written into the digest of the engine. -/
def source (c : Construction) : Except Failure Datum := (AnyEngine.maker .bare c.input).source

/-- The file for the engine of a value under a value for the cache. -/
def path (c : Construction) (scheme : Engine.CacheScheme) (place d : Datum) : String :=
  match place with
  | .text path => path
  | _ => Engine.digestPath scheme d (c.optionsAt place)

variable {p : Platform} {c : Construction} {scheme : Engine.CacheScheme} {place d : Datum}
  {s s' : FileStore} {o : Options}

theorem storeAfter_cons (c : Construction) (cs : List Construction) (s : FileStore) :
    storeAfter p scheme place (c :: cs) s =
      storeAfter p scheme place cs (c.under p scheme place s).2 := rfl

theorem source_of_value (h : c.input = .given (.value d)) : c.source = .ok d := by
  rw [source, h]
  rfl

theorem cachePath_optionsAt (o : Options) :
    Engine.cachePath scheme d (c.optionsAt place) (o.set .cache place) = c.path scheme place d := by
  cases place <;> rfl

/-- The cache may not be given when an engine is loaded. -/
theorem loadable_optionsAt : Engine.loadable (c.optionsAt place) = Engine.loadable c.options := rfl

/-- The options with a value for the cache are the options without it, and that value. -/
theorem ofGiven_optionsAt (hplace : Options.isCachePlace place = true)
    (ho : Options.ofGiven c.options = .ok o) :
    Options.ofGiven (c.optionsAt place) = .ok (o.set .cache place) := by
  rw [optionsAt, Options.ofGiven_place c.placeless hplace, ho]
  rfl

/-- Without a cache an engine is built. -/
theorem alone_eq (c : Construction) :
    c.alone p = Options.ofGiven c.options >>= fun o =>
      AnyEngine.build p c.input o >>= fun built => .ok built.1 := by
  rw [alone, AnyEngine.make]
  cases hgiven : Options.ofGiven c.options with
  | error failure =>
      rw [Engine.Maker.run_of_badOptions hgiven]
      rfl
  | ok o =>
      have hoff : o.cache.truthy = false := by
        rw [Options.cache_off_of_ofGiven c.placeless hgiven]
        rfl
      rw [Engine.Maker.run_of_off hgiven hoff]
      change (AnyEngine.build p c.input o).map Prod.fst = AnyEngine.build p c.input o >>= _
      cases AnyEngine.build p c.input o <;> rfl

/-- What is made without a cache has options that can be given. -/
theorem exists_options_of_alone {a : AnyEngine} (h : c.alone p = .ok a) :
    ∃ o, Options.ofGiven c.options = .ok o := by
  rw [alone_eq] at h
  obtain ⟨o, ho, -⟩ := exists_of_bind_eq_ok h
  exact ⟨o, ho⟩

/-- Under a value for the cache the same is built, but for the value itself. -/
theorem build_optionsAt (p : Platform) (place : Datum) (ho : Options.ofGiven c.options = .ok o) :
    ((AnyEngine.maker p c.input).build (o.set .cache place)).map Prod.fst =
      (c.alone p).map (AnyEngine.withCache place) := by
  change (AnyEngine.build p c.input (o.set .cache place)).map Prod.fst = _
  rw [AnyEngine.build_set_cache, alone_eq, ho]
  change _ = (AnyEngine.build p c.input o >>= fun built => .ok built.1).map _
  cases AnyEngine.build p c.input o <;> rfl

/-- What is built under a cache is built without one. -/
theorem alone_of_build (ho : Options.ofGiven c.options = .ok o) {b : AnyEngine} {told : Log}
    (h : (AnyEngine.maker p c.input).build (o.set .cache place) = .ok (b, told)) :
    ∃ a, c.alone p = .ok a ∧ b = a.withCache place := by
  have hbuilt := build_optionsAt p place ho
  rw [h] at hbuilt
  cases halone : c.alone p with
  | error failure =>
      rw [halone] at hbuilt
      exact absurd hbuilt (by simp [Except.map])
  | ok a =>
      rw [halone] at hbuilt
      exact ⟨a, rfl, Except.ok.inj hbuilt⟩

theorem under_eq (hplace : Options.isCachePlace place = true) (hon : place.truthy = true)
    (ho : Options.ofGiven c.options = .ok o) (hd : c.source = .ok d) :
    c.under p scheme place s =
      ((AnyEngine.maker p c.input).ofCache scheme (c.path scheme place d) (c.optionsAt place)
        (o.set .cache place) s).map (Except.map Prod.fst) id := by
  have hsource : (AnyEngine.maker p c.input).source = .ok d := hd
  rw [under, AnyEngine.make, Engine.Maker.run_of_on (ofGiven_optionsAt hplace ho) hon hsource,
    cachePath_optionsAt]

/-- Options that cannot be given are refused, with a cache or without. -/
theorem under_of_badOptions (hplace : Options.isCachePlace place = true) {failure : Failure}
    (ho : Options.ofGiven c.options = .error failure) :
    c.under p scheme place s = (.error failure, s) := by
  have hgiven : Options.ofGiven (c.optionsAt place) = .error failure := by
    rw [optionsAt, Options.ofGiven_place c.placeless hplace, ho]
    rfl
  rw [under, AnyEngine.make, Engine.Maker.run_of_badOptions hgiven]
  rfl

/-- Where the cache is off, what is done without one is done. -/
theorem under_of_off (hplace : Options.isCachePlace place = true) (hoff : place.truthy = false) :
    c.under p scheme place s = ((c.alone p).map (AnyEngine.withCache place), s) := by
  cases ho : Options.ofGiven c.options with
  | error failure =>
      rw [under_of_badOptions hplace ho, alone_eq, ho]
      rfl
  | ok o =>
      rw [under, AnyEngine.make, Engine.Maker.run_of_off (ofGiven_optionsAt hplace ho) hoff,
        ← build_optionsAt p place ho]
      rfl

/-- A finished grammar cannot be kept. -/
theorem under_of_sourceless (hplace : Options.isCachePlace place = true)
    (hon : place.truthy = true) (ho : Options.ofGiven c.options = .ok o) {failure : Failure}
    (hsource : c.source = .error failure) : c.under p scheme place s = (.error failure, s) := by
  have hmaker : (AnyEngine.maker p c.input).source = .error failure := hsource
  rw [under, AnyEngine.make,
    Engine.Maker.run_of_sourceless (ofGiven_optionsAt hplace ho) hon hmaker]
  rfl

/-- Nothing is made at a path that leads to a directory. -/
theorem under_of_directory (hplace : Options.isCachePlace place = true)
    (hon : place.truthy = true) (ho : Options.ofGiven c.options = .ok o) (hd : c.source = .ok d)
    (hread : s.read? (c.path scheme place d) = none)
    (hdirectory : s.leadsToDirectory (c.path scheme place d) = true) :
    c.under p scheme place s = (.error .isDirectory, s) := by
  rw [under_eq hplace hon ho hd, Engine.Maker.ofCache, hread]
  simp only [hdirectory, if_true]
  rfl

section Fresh

variable (hplace : Options.isCachePlace place = true) (hon : place.truthy = true)
  (ho : Options.ofGiven c.options = .ok o) (hd : c.source = .ok d)
  (hread : s.read? (c.path scheme place d) = none)
  (hdirectory : s.leadsToDirectory (c.path scheme place d) = false)

include hplace hon ho hd hread hdirectory

/-- If nothing is kept at its path, what cannot be made without a cache cannot be made with one. -/
theorem under_of_fresh_error {failure : Failure} (halone : c.alone p = .error failure) :
    c.under p scheme place s = (.error failure, s) := by
  have hbuilt := build_optionsAt p place ho
  rw [under_eq hplace hon ho hd, Engine.Maker.ofCache_of_fresh hread hdirectory]
  cases hbuild : (AnyEngine.maker p c.input).build (o.set .cache place) with
  | error failure' =>
      rw [hbuild, halone] at hbuilt
      rw [← Except.error.inj hbuilt]
      rfl
  | ok built =>
      rw [hbuild, halone] at hbuilt
      exact absurd hbuilt (by simp [Except.map])

/-- If nothing is kept at its path, an engine with an archive is made and kept. -/
theorem under_of_fresh_ok {a : AnyEngine} (halone : c.alone p = .ok a) {kept : Datum}
    (harchive : (a.withCache place).toArchive = .ok kept)
    (hwrite : s.write? (c.path scheme place d) (.archive kept) = some s') :
    c.under p scheme place s = (.ok (a.withCache place), s') := by
  -- the engine that is built under the place is the one without a cache, but for that option
  have hbuilt := build_optionsAt p place ho
  rw [under_eq hplace hon ho hd, Engine.Maker.ofCache_of_fresh hread hdirectory]
  cases hbuild : (AnyEngine.maker p c.input).build (o.set .cache place) with
  | error failure =>
      rw [hbuild, halone] at hbuilt
      exact absurd hbuilt (by simp [Except.map])
  | ok built =>
      rw [hbuild, halone] at hbuilt
      have hmade : built.1 = a.withCache place := Except.ok.inj hbuilt
      have hkept : (AnyEngine.maker p c.input).toArchive built.1 = .ok kept := by
        rw [hmade]
        exact harchive
      simp only [Engine.Maker.keep, hkept, hwrite, ← hmade]
      rfl

end Fresh

/-- What is kept at its path is loaded. -/
theorem under_of_kept (hplace : Options.isCachePlace place = true) (hon : place.truthy = true)
    (ho : Options.ofGiven c.options = .ok o) (hd : c.source = .ok d) {kept : Datum}
    (hread : s.read? (c.path scheme place d) = some (.archive kept)) {b : AnyEngine}
    (hload : AnyEngine.load p kept (Engine.loadable c.options) = .ok b) :
    c.under p scheme place s = (.ok b, s) := by
  rw [under_eq hplace hon ho hd, Engine.Maker.ofCache, hread]
  simp only [Engine.Maker.ofFile, loadable_optionsAt, AnyEngine.maker, hload]
  rfl

/-- An empty file is no engine. -/
theorem under_of_text (hplace : Options.isCachePlace place = true) (hon : place.truthy = true)
    (ho : Options.ofGiven c.options = .ok o) (hd : c.source = .ok d) {t : String}
    (hread : s.read? (c.path scheme place d) = some (.text t)) :
    c.under p scheme place s = (.error (.staleCache (c.path scheme place d)), s) := by
  rw [under_eq hplace hon ho hd, Engine.Maker.ofCache, hread]
  rfl

/-- What cannot be made without a cache cannot be made under one where no engine is kept. -/
theorem under_of_alone_error (hplace : Options.isCachePlace place = true) {failure : Failure}
    (halone : c.alone p = .error failure)
    (hread : ∀ d, c.source = .ok d → ∀ kept, s.read? (c.path scheme place d) ≠ some (.archive kept)) :
    ∃ failure', c.under p scheme place s = (.error failure', s) ∧
      (failure' = failure ∨ failure' = .isDirectory ∨ c.source = .error failure' ∨
        ∃ d, failure' = .staleCache (c.path scheme place d)) := by
  cases hon : place.truthy with
  | false =>
      refine ⟨failure, ?_, .inl rfl⟩
      rw [under_of_off hplace hon, halone]
      rfl
  | true =>
      cases ho : Options.ofGiven c.options with
      | error failure' =>
          have hsame : Except.error failure' = c.alone p := by
            rw [alone_eq, ho]
            rfl
          rw [halone] at hsame
          exact ⟨failure', under_of_badOptions hplace ho, .inl (Except.error.inj hsame)⟩
      | ok o =>
          cases hd : c.source with
          | error failure' =>
              exact ⟨failure', under_of_sourceless hplace hon ho hd, .inr (.inr (.inl rfl))⟩
          | ok d =>
              -- a file that is there holds a text, so it is refused before anything is built
              cases hfile : s.read? (c.path scheme place d) with
              | some content =>
                  cases content with
                  | archive kept => exact absurd hfile (hread d hd kept)
                  | text t =>
                      exact ⟨_, under_of_text hplace hon ho hd hfile, .inr (.inr (.inr ⟨d, rfl⟩))⟩
              | none =>
                  cases hdirectory : s.leadsToDirectory (c.path scheme place d) with
                  | true =>
                      exact ⟨_, under_of_directory hplace hon ho hd hfile hdirectory, .inr (.inl rfl)⟩
                  | false =>
                      exact ⟨failure, under_of_fresh_error hplace hon ho hd hfile hdirectory halone,
                        .inl rfl⟩

/-- All that making an engine under a cache can do when it succeeds: the cache is off, or nothing was
kept and the engine made without a cache is kept now, or what was kept is loaded. -/
theorem of_under (hplace : Options.isCachePlace place = true) {b : AnyEngine}
    (h : c.under p scheme place s = (.ok b, s')) :
    (place.truthy = false ∧ s' = s ∧ ∃ a, c.alone p = .ok a ∧ b = a.withCache place) ∨
      place.truthy = true ∧ ∃ d, c.source = .ok d ∧
        ((s.read? (c.path scheme place d) = none ∧
            (∃ kept, b.toArchive = .ok kept ∧
              s.write? (c.path scheme place d) (.archive kept) = some s') ∧
            ∃ a, c.alone p = .ok a ∧ b = a.withCache place) ∨
          ∃ kept, s.read? (c.path scheme place d) = some (.archive kept) ∧ s' = s ∧
            AnyEngine.load p kept (Engine.loadable c.options) = .ok b) := by
  cases hon : place.truthy with
  | false =>
      rw [under_of_off hplace hon, Prod.mk.injEq] at h
      obtain ⟨h, rfl⟩ := h
      cases halone : c.alone p with
      | error failure =>
          rw [halone] at h
          exact absurd h (by simp [Except.map])
      | ok a =>
          rw [halone] at h
          exact .inl ⟨rfl, rfl, a, rfl, (Except.ok.inj h).symm⟩
  | true =>
      refine .inr ⟨rfl, ?_⟩
      cases ho : Options.ofGiven c.options with
      | error failure =>
          rw [under_of_badOptions hplace ho] at h
          exact absurd h (by simp)
      | ok o =>
          cases hd : c.source with
          | error failure =>
              rw [under_of_sourceless hplace hon ho hd] at h
              exact absurd h (by simp)
          | ok d =>
              refine ⟨d, rfl, ?_⟩
              rw [under_eq hplace hon ho hd] at h
              -- the log is dropped, so the engine and the store are what `ofCache` made
              generalize hmade : (AnyEngine.maker p c.input).ofCache scheme (c.path scheme place d)
                (c.optionsAt place) (o.set .cache place) s = made at h
              obtain ⟨_ | ⟨b', log⟩, t⟩ := made
              · exact absurd h (by simp [Except.map])
              · simp only [Prod.map_apply, Except.map, id_eq, Prod.mk.injEq, Except.ok.injEq] at h
                obtain ⟨rfl, rfl⟩ := h
                rcases Engine.Maker.of_ofCache hmade with
                  ⟨kept, hread, hload, rfl⟩ | ⟨hread, ⟨told, hbuild⟩, hwrite⟩
                · exact .inr ⟨kept, hread, rfl, hload⟩
                · exact .inl ⟨hread, hwrite, alone_of_build ho hbuild⟩

/-- Making an engine under a cache writes its file where none is, or leaves the store as it is. -/
theorem store_of_under (p : Platform) (c : Construction) (scheme : Engine.CacheScheme)
    (s : FileStore) (hplace : Options.isCachePlace place = true) :
    (c.under p scheme place s).2 = s ∨
      place.truthy = true ∧ ∃ d a content, c.source = .ok d ∧ c.alone p = .ok a ∧
        s.read? (c.path scheme place d) = none ∧
        (AnyEngine.maker p c.input).Leaves (a.withCache place) content ∧
        s.write? (c.path scheme place d) content = some (c.under p scheme place s).2 := by
  cases hon : place.truthy with
  | false => exact .inl (by rw [under_of_off hplace hon])
  | true =>
      cases ho : Options.ofGiven c.options with
      | error failure => exact .inl (by rw [under_of_badOptions hplace ho])
      | ok o =>
          cases hd : c.source with
          | error failure => exact .inl (by rw [under_of_sourceless hplace hon ho hd])
          | ok d =>
              rw [under_eq hplace hon ho hd]
              rcases Engine.Maker.store_of_ofCache (AnyEngine.maker p c.input) scheme
                (c.path scheme place d) (c.optionsAt place) (o.set .cache place) s with
                same | ⟨hread, ⟨b, told⟩, content, hbuild, leaves, hwrite⟩
              · exact .inl same
              · obtain ⟨a, halone, rfl⟩ := alone_of_build ho hbuild
                exact .inr ⟨rfl, d, a, content, rfl, halone, hread, leaves, hwrite⟩

/-- The construction of a grammar for one letter, given as text. -/
def letter (c : Char) (flags : Int) : Construction :=
  ⟨.given (.value (.text ("S -> \"" ++ String.singleton c ++ "\""))),
    [("g_regex_flags", .int flags)], by simp [OptionName.text]⟩

end Construction

end Predictive
