import Predictive.Proofs.Constructions

/-!
# Constructions that share a path

A path that is given for the cache belongs to the first construction that is kept there. Every later
one is loaded from that file, and what it was made of is not looked at: it is like the first one, made
with the options that may be given on loading put in (`Construction.under_shared`). So the file serves
the grammar asked for if all constructions have the same grammar, or if nothing could be kept before.
That it is another grammar goes unnoticed (`Construction.not_under_shared_letters`).
-/

set_option autoImplicit false

namespace Predictive

namespace Construction

variable {p : Platform} {scheme : Engine.CacheScheme} {path : String} {directories : List Steps}
  {c f : Construction} {cs : List Construction} {a b : AnyEngine} {s s' : FileStore}

/-! ## Loading what was made of something else -/

/-- The construction with those options of another one that may be given on loading. -/
def also (f c : Construction) : Construction where
  input := f.input
  options := f.options ++ Engine.loadable c.options
  placeless := by
    intro e he
    rcases List.mem_append.1 he with hf | hc
    · exact f.placeless e hf
    · exact c.placeless e (List.mem_filter.1 hc).1

/-- What is loaded from the archive of an engine is like the engine that is made of the same with the
options of both. -/
theorem alike_of_reload {e : Engine} {place : Datum} (hplace : Options.isCachePlace place = true)
    (hf : f.alone p = .ok (.checked e))
    (hload : AnyEngine.reload p ((AnyEngine.checked e).withCache place)
      (Engine.loadable c.options) = .ok b) :
    ∃ e₁ e₂, b = .checked e₁ ∧ (f.also c).alone p = .ok (.checked e₂) ∧
      (e₁.withCache (.bool false)).Alike e₂ := by
  -- how the first engine was built
  rw [alone_eq] at hf
  obtain ⟨o, ho, hf⟩ := exists_of_bind_eq_ok hf
  obtain ⟨⟨a, log⟩, hbuild, hf⟩ := exists_of_bind_eq_ok hf
  obtain rfl := Except.ok.inj hf
  obtain ⟨g, warnings, told, hobtain, he, -⟩ := AnyEngine.build_checked_iff.1 hbuild
  obtain ⟨rfl, rfl⟩ := Engine.parts_of_ofGrammar he
  -- how the second one was loaded, under options that are those of both
  obtain ⟨o₁, source, e₁, hanew, ho₁, -, -, he₁, rfl⟩ := AnyEngine.of_reload hload
  obtain ⟨lexer, hlexer, rfl⟩ := Engine.assemble_eq_ok_iff.1 he₁
  obtain ⟨both, hput, hboth, hkept⟩ := Options.ofEntries_override (ofGiven_optionsAt hplace ho) hanew
  obtain rfl : o₁ = both := Except.ok.inj (ho₁.symm.trans hput)
  have hboth' : Options.ofGiven ((f.also c).optionsAt place) = .ok o₁ := hboth
  rw [optionsAt, Options.ofGiven_place (f.also c).placeless hplace] at hboth'
  obtain ⟨o₂, ho₂, hset⟩ := exists_of_bind_eq_ok hboth'
  obtain rfl := Except.ok.inj hset
  -- neither the table nor the lexer depends on the cache
  have hstrict : o₂.strict = e.options.strict := hkept .strict rfl
  have hlexer₂ : Engine.lexerOf p e.grammar o₂ = .ok lexer := hlexer
  obtain ⟨m, log₂, hagain⟩ := Engine.ofGrammar_of_strict_eq he hstrict hlexer₂
  have hbuild₂ : AnyEngine.build p f.input o₂ = .ok (.checked
      ⟨⟨e.grammar, e.table, lexer⟩, o₂, o₂.debug.truthy, m⟩, warnings ++ log₂) :=
    AnyEngine.build_checked_iff.2 ⟨e.grammar, warnings, log₂, hobtain, hagain, rfl⟩
  have halone : (f.also c).alone p =
      .ok (.checked ⟨⟨e.grammar, e.table, lexer⟩, o₂, o₂.debug.truthy, m⟩) := by
    have hinput : (f.also c).input = f.input := rfl
    rw [alone_eq, ho₂, hinput]
    simp only [bind, Except.bind, hbuild₂]
  have hoff : o₂.cache = .bool false := Options.cache_off_of_ofGiven (f.also c).placeless ho₂
  refine ⟨_, _, rfl, halone, ?_⟩
  exact Engine.alike_withCache e.grammar source e.table lexer hoff place o₂.debug.truthy .empty m

/-! ## Histories at one path -/

/-- The first construction that is kept at a path, with its engine. -/
def firstKept (p : Platform) (scheme : Engine.CacheScheme) (path : String) :
    FileStore → List Construction → Option (Construction × AnyEngine)
  | _, [] => none
  | s, c :: cs =>
      match c.under p scheme (.text path) s with
      | (.ok a, _) => some (c, a)
      | (.error _, s') => firstKept p scheme path s' cs

/-- No engine is kept at the path, though an empty file may be there. -/
def Vacant (path : String) (s : FileStore) : Prop :=
  ∀ kept, s.read? path ≠ some (.archive kept)

theorem vacant_empty (path : String) (directories : List Steps) :
    Vacant path (.empty directories) := by
  intro kept
  rw [FileStore.read?_empty]
  simp

/-- The empty path leads nowhere. -/
theorem vacant_of_eq_empty (s : FileStore) : Vacant "" s := by
  intro kept h
  have hnone : s.read? "" = none := rfl
  exact absurd (hnone.symm.trans h) (by simp)

theorem isCachePlace_text (path : String) : Options.isCachePlace (.text path) = true := rfl

/-- A file that is kept stays as it is. -/
theorem storeAfter_of_read {content : FileContent} (hread : s.read? path = some content) :
    storeAfter p scheme (.text path) cs s = s := by
  induction cs with
  | nil => rfl
  | cons c cs ih =>
      rw [storeAfter_cons]
      rcases store_of_under p c scheme s (isCachePlace_text path) with
        same | ⟨-, d, a, other, -, -, hnone, -⟩
      · rw [same]
        exact ih
      · -- the path is that of the file
        have hpath : c.path scheme (.text path) d = path := rfl
        rw [hpath, hread] at hnone
        exact absurd hnone (by simp)

/-- A failure keeps no engine. -/
theorem Vacant.under {failure : Failure} (vacant : Vacant path s)
    (h : c.under p scheme (.text path) s = (.error failure, s')) : Vacant path s' := by
  rcases store_of_under p c scheme s (isCachePlace_text path) with
    same | ⟨hon, d, a, content, hd, halone, hread, leaves, hwrite⟩
  · rw [h] at same
    obtain rfl : s' = s := same
    exact vacant
  · have hdirectory := FileStore.leadsToDirectory_of_write? hwrite
    cases leaves with
    | archive archived =>
        -- an engine with an archive would have been made
        obtain ⟨o, ho⟩ := exists_options_of_alone halone
        have hmade := under_of_fresh_ok (isCachePlace_text path) hon ho hd hread hdirectory halone
          archived hwrite
        rw [h] at hmade
        exact absurd (Prod.mk.inj hmade).1 (by simp)
    | nothing refused =>
        intro kept hkept
        have hpath : c.path scheme (.text path) d = path := rfl
        rw [hpath] at hwrite
        rw [h] at hwrite
        rw [FileStore.read?_of_write? hwrite] at hkept
        exact absurd (Option.some.inj hkept) (by simp)

/-- As long as no construction could be kept there is no engine at the path. -/
theorem vacant_storeAfter (vacant : Vacant path s) (h : firstKept p scheme path s cs = none) :
    Vacant path (storeAfter p scheme (.text path) cs s) := by
  induction cs generalizing s with
  | nil => exact vacant
  | cons c cs ih =>
      rw [firstKept] at h
      rw [storeAfter_cons]
      rcases hunder : c.under p scheme (.text path) s with ⟨_ | a, s'⟩
      · rw [hunder] at h
        exact ih (vacant.under hunder) h
      · rw [hunder] at h
        exact absurd h (by simp)

/-- No engine is at the path if none could be kept there, or if it is the empty path. -/
theorem vacant_of_fresh
    (hfresh : path = "" ∨ firstKept p scheme path (.empty directories) cs = none) :
    Vacant path (storeAfter p scheme (.text path) cs (.empty directories)) := by
  rcases hfresh with rfl | hnone
  · exact vacant_of_eq_empty _
  · exact vacant_storeAfter (vacant_empty path directories) hnone

theorem mem_of_firstKept (h : firstKept p scheme path s cs = some (f, a)) : f ∈ cs := by
  induction cs generalizing s with
  | nil => exact absurd h (by simp [firstKept])
  | cons c cs ih =>
      rw [firstKept] at h
      rcases hunder : c.under p scheme (.text path) s with ⟨_ | b, s'⟩
      · rw [hunder] at h
        exact List.mem_cons_of_mem _ (ih h)
      · rw [hunder] at h
        obtain ⟨rfl, -⟩ := Prod.mk.inj (Option.some.inj h)
        exact List.mem_cons_self

/-- From the first construction on that could be kept, the file at the path holds its engine. -/
theorem read?_storeAfter (hpath : path ≠ "") (vacant : Vacant path s)
    (h : firstKept p scheme path s cs = some (f, a)) :
    (∃ kept, a.toArchive = .ok kept ∧
        (storeAfter p scheme (.text path) cs s).read? path = some (.archive kept)) ∧
      ∃ a₀, f.alone p = .ok a₀ ∧ a = a₀.withCache (.text path) := by
  induction cs generalizing s with
  | nil => exact absurd h (by simp [firstKept])
  | cons c cs ih =>
      rw [firstKept] at h
      rw [storeAfter_cons]
      rcases hunder : c.under p scheme (.text path) s with ⟨_ | b, s'⟩
      · -- a construction that fails leaves the path vacant
        rw [hunder] at h
        exact ih (vacant.under hunder) h
      · rw [hunder] at h
        obtain ⟨rfl, rfl⟩ := Prod.mk.inj (Option.some.inj h)
        rcases of_under (isCachePlace_text path) hunder with
          ⟨hoff, -⟩ | ⟨-, d, -, ⟨-, ⟨kept, archived, hwrite⟩, halone⟩ | ⟨kept, hread, -⟩⟩
        · exact absurd hoff (by simp [Datum.truthy, hpath])
        · -- it was built, and its file stays
          have hread := FileStore.read?_of_write? hwrite
          have hsame : c.path scheme (.text path) d = path := rfl
          rw [hsame] at hread
          refine ⟨⟨kept, archived, ?_⟩, halone⟩
          simp only [storeAfter_of_read hread]
          exact hread
        · exact absurd hread (vacant kept)

/-- After the first construction that could be kept, what is made at the path is loaded from the archive
of its engine. -/
theorem reload_of_firstKept (hpath : path ≠ "")
    (hfirst : firstKept p scheme path (.empty directories) cs = some (f, a))
    (hunder : c.under p scheme (.text path)
      (storeAfter p scheme (.text path) cs (.empty directories)) = (.ok b, s')) :
    AnyEngine.reload p a (Engine.loadable c.options) = .ok b ∧
      ∀ e, a = .checked e → ∃ e₁ e₂, b = .checked e₁ ∧
        (f.also c).alone p = .ok (.checked e₂) ∧ (e₁.withCache (.bool false)).Alike e₂ := by
  obtain ⟨⟨archive, archived, hread⟩, a₀, hf, rfl⟩ :=
    read?_storeAfter hpath (vacant_empty path directories) hfirst
  rcases of_under (isCachePlace_text path) hunder with
    ⟨hoff, -⟩ | ⟨-, d, -, ⟨hnone, -⟩ | ⟨kept, hkept, -, hload⟩⟩
  · exact absurd hoff (by simp [Datum.truthy, hpath])
  · exact absurd (hread.symm.trans hnone) (by simp)
  · -- what is found is the archive that was kept
    obtain rfl := FileContent.archive.inj (Option.some.inj (hread.symm.trans hkept))
    have hreload : AnyEngine.reload p (a₀.withCache (.text path))
        (Engine.loadable c.options) = .ok b := by
      rw [AnyEngine.reload, archived]
      exact hload
    refine ⟨hreload, ?_⟩
    intro e he
    cases a₀ with
    | checked e₀ => exact alike_of_reload (isCachePlace_text path) hf hreload
    | unchecked e₀ => exact absurd he (by simp [AnyEngine.withCache])

/-- Constructions at one path, where nothing is at first. As long as none of them could be kept there, or
if the path is empty, a further one gives the engine that it gives without a cache, and fails if it
fails without one. Afterwards, whatever it gives is loaded from the archive of the first one that was
kept, which is like the engine that is made of the same as that one with the options of both. This is
its own engine if the two are made of the same and the options come to its own. -/
theorem under_shared (p : Platform) (scheme : Engine.CacheScheme) (path : String)
    (directories : List Steps) (cs : List Construction) (c : Construction) :
    (∀ b s', c.under p scheme (.text path)
        (storeAfter p scheme (.text path) cs (.empty directories)) = (.ok b, s') →
      ((path = "" ∨ firstKept p scheme path (.empty directories) cs = none) ∧
        ∃ a, c.alone p = .ok a ∧ b = a.withCache (.text path)) ∨
      ∃ f a, firstKept p scheme path (.empty directories) cs = some (f, a) ∧
        AnyEngine.reload p a (Engine.loadable c.options) = .ok b ∧
        ∀ e, a = .checked e → ∃ e₁ e₂, b = .checked e₁ ∧
          (f.also c).alone p = .ok (.checked e₂) ∧ (e₁.withCache (.bool false)).Alike e₂) ∧
    (path = "" ∨ firstKept p scheme path (.empty directories) cs = none → ∀ failure,
      c.alone p = .error failure → ∃ failure' s', c.under p scheme (.text path)
        (storeAfter p scheme (.text path) cs (.empty directories)) = (.error failure', s') ∧
          (failure' = failure ∨ failure' = .isDirectory ∨ c.source = .error failure' ∨
            failure' = .staleCache path)) ∧
    ∀ f a, firstKept p scheme path (.empty directories) cs = some (f, a) → f.input = c.input →
      Options.ofGiven (f.options ++ Engine.loadable c.options) = Options.ofGiven c.options →
      (f.also c).alone p = c.alone p := by
  refine ⟨?_, ?_, ?_⟩
  · intro b s' hunder
    -- until an engine is kept the path makes no difference; afterwards the first one decides
    by_cases hfresh : path = "" ∨ firstKept p scheme path (.empty directories) cs = none
    · refine .inl ⟨hfresh, ?_⟩
      rcases of_under (isCachePlace_text path) hunder with
        ⟨-, -, halone⟩ | ⟨-, d, -, ⟨-, -, halone⟩ | ⟨kept, hread, -⟩⟩
      · exact halone
      · exact halone
      · exact absurd hread (vacant_of_fresh hfresh kept)
    · rw [not_or] at hfresh
      obtain ⟨⟨f, a⟩, hfirst⟩ := Option.ne_none_iff_exists'.1 hfresh.2
      exact .inr ⟨f, a, hfirst, reload_of_firstKept hfresh.1 hfirst hunder⟩
  · intro hfresh failure halone
    obtain ⟨failure', hunder, reason⟩ := under_of_alone_error (isCachePlace_text path) halone
      fun d _ kept => vacant_of_fresh hfresh kept
    refine ⟨failure', _, hunder, ?_⟩
    rcases reason with h | h | h | ⟨d, h⟩
    · exact .inl h
    · exact .inr (.inl h)
    · exact .inr (.inr (.inl h))
    · exact .inr (.inr (.inr h))
  · intro f a _ hinput hoptions
    have hsame : (f.also c).options = f.options ++ Engine.loadable c.options := rfl
    have hinput' : (f.also c).input = c.input := hinput
    rw [alone_eq, alone_eq, hsame, hoptions, hinput']

/-- Two productions for the same letter, with or without the strict option. -/
def doubled (strict : Bool) : Construction :=
  ⟨.given (.value (.text "S -> \"a\" | \"a\"")), [("strict", .bool strict)],
    by simp [OptionName.text]⟩

/-- The engine that is made at the path `f` after other constructions there. -/
def servedAt (cs : List Construction) (c : Construction) : Except Failure AnyEngine :=
  (c.under .bare (.standard "" false) (.text "f")
    (storeAfter .bare (.standard "" false) (.text "f") cs (.empty []))).1

/-- After the grammar for one letter, the file serves it with the flags of the later construction. -/
theorem under_shared_letters :
    ∃ b e₁ e₂, servedAt [letter 'a' 0] (letter 'b' 2) = .ok b ∧ b = .checked e₁ ∧
      ((letter 'a' 0).also (letter 'b' 2)).alone .bare = .ok (.checked e₂) ∧
      (e₁.withCache (.bool false)).Alike e₂ := by
  have served : (servedAt [letter 'a' 0] (letter 'b' 2)).isOk = true := by
    decide +kernel
  have first : ((firstKept .bare (.standard "" false) "f" (.empty []) [letter 'a' 0]).bind fun x =>
      x.2.checked?).isSome = true := by
    decide +kernel
  obtain ⟨b, hserved⟩ := exists_eq_ok served
  obtain ⟨e, hkept⟩ := Option.isSome_iff_exists.1 first
  obtain ⟨⟨f, a⟩, hfirst, hchecked⟩ := Option.bind_eq_some_iff.1 hkept
  obtain rfl := AnyEngine.checked?_eq_some_iff.1 hchecked
  obtain rfl := List.mem_singleton.1 (mem_of_firstKept hfirst)
  obtain ⟨serves, -⟩ :=
    under_shared .bare (.standard "" false) "f" [] [letter 'a' 0] (letter 'b' 2)
  rcases serves b _ (Prod.ext hserved rfl) with ⟨hfresh, -⟩ | ⟨f', a', hfirst', -, halike⟩
  · simp [hfirst] at hfresh
  · obtain ⟨rfl, rfl⟩ := Prod.mk.inj (Option.some.inj (hfirst.symm.trans hfirst'))
    obtain ⟨e₁, e₂, rfl, halone, h⟩ := halike e rfl
    exact ⟨_, e₁, e₂, hserved, rfl, halone, h⟩

/-- The fault of the grammar for which no engine is made, if that is the reason. -/
def grammarFault? : Except Failure AnyEngine → Option GrammarFault
  | .error (.grammar fault) => some fault
  | _ => none

theorem eq_of_grammarFault? {x : Except Failure AnyEngine} {fault : GrammarFault}
    (h : grammarFault? x = some fault) : x = .error (.grammar fault) := by
  unfold grammarFault? at h
  split at h
  · rw [Option.some.inj h]
  · exact absurd h (by simp)

/-- A file goes on to serve the grammar that it was made for, and not the one asked for: after the
grammar for one letter, that for another one refuses its own. A collision that the strict option asks
for is not found. -/
theorem not_under_shared_letters :
    (¬ ∀ (cs : List Construction) (c : Construction) (b : AnyEngine),
      servedAt cs c = .ok b →
      ∃ a, c.alone .bare = .ok a ∧ ∀ text, (b.run text).1 = (a.run text).1) ∧
    ¬ ∀ (cs : List Construction) (c : Construction) (fault : GrammarFault),
      c.alone .bare = .error (.grammar fault) → ∃ failure, servedAt cs c = .error failure := by
  constructor
  · -- the engine that is served is that of the other letter
    intro same
    have observed : ((servedAt [letter 'a' 0] (letter 'b' 0)).toOption.any fun b =>
        !(b.run "b").1.isOk) = true ∧
        (((letter 'b' 0).alone .bare).toOption.any fun a => (a.run "b").1.isOk) = true := by
      decide +kernel
    obtain ⟨b, hserved, refused⟩ := (Option.any_eq_true _ _).1 observed.1
    obtain ⟨a, halone, accepted⟩ := (Option.any_eq_true _ _).1 observed.2
    obtain ⟨a', halone', hrun⟩ := same _ _ _ (eq_ok_of_toOption hserved)
    obtain rfl := Except.ok.inj ((eq_ok_of_toOption halone).symm.trans halone')
    simp [hrun, accepted] at refused
  · -- the engine was made without the strict option, so nothing is found
    intro fails
    have observed : (grammarFault? ((doubled true).alone .bare)).isSome = true ∧
        (servedAt [doubled false] (doubled true)).isOk = true := by
      decide +kernel
    obtain ⟨b, hserved⟩ := exists_eq_ok observed.2
    obtain ⟨fault, hfault⟩ := Option.isSome_iff_exists.1 observed.1
    obtain ⟨failure, hfailure⟩ := fails _ _ fault (eq_of_grammarFault? hfault)
    exact absurd (hserved.symm.trans hfailure) (by simp)

end Construction

end Predictive
