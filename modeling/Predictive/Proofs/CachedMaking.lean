import Predictive.Any.Engine
import Predictive.Proofs.GivenOptions

/-!
# How an engine is made under the cache option

Everything that making an engine can do under given options: it is built, it is loaded from the file at
its path, or it is built and kept there (`Engine.Maker.of_run`). An engine that is not kept is the one
that is built, and an engine that is loaded is what the file holds. A file that is there stays as it
is, and a new one holds the archive of the engine, or nothing if the engine has none
(`Engine.Maker.store_of_ofCache`).
-/

set_option autoImplicit false

namespace Predictive

namespace Engine.Maker

variable {α : Type} {m : Maker α} {scheme : CacheScheme} {path : String} {given : Options.Given}
  {o : Options} {s s' : FileStore} {a : α} {log : Log}

/-- Without a cache, making is building. -/
theorem run_of_off (hgiven : Options.ofGiven given = .ok o) (hoff : o.cache.truthy = false) :
    m.run scheme given s = (m.build o, s) := by
  rw [run, hgiven]
  simp only [hoff, Bool.false_eq_true, if_false]

/-- With a cache, everything depends on the file at the path. -/
theorem run_of_on {d : Datum} (hgiven : Options.ofGiven given = .ok o) (hon : o.cache.truthy = true)
    (hsource : m.source = .ok d) :
    m.run scheme given s = m.ofCache scheme (cachePath scheme d given o) given o s := by
  rw [run, hgiven]
  simp only [hon, if_true, hsource]

/-- Options that cannot be given are refused first. -/
theorem run_of_badOptions {failure : Failure} (hgiven : Options.ofGiven given = .error failure) :
    m.run scheme given s = (.error failure, s) := by
  rw [run, hgiven]

/-- What has no source cannot be kept. -/
theorem run_of_sourceless (hgiven : Options.ofGiven given = .ok o) (hon : o.cache.truthy = true)
    {failure : Failure} (hsource : m.source = .error failure) :
    m.run scheme given s = (.error failure, s) := by
  rw [run, hgiven]
  simp only [hon, if_true, hsource]

/-- The engine of a file is what is loaded from the archive in it. -/
theorem ofFile_eq_ok_iff {content : FileContent} :
    m.ofFile path content given = .ok a ↔
      ∃ d, content = .archive d ∧ m.load d (loadable given) = .ok a := by
  cases content with
  | text t => simp [ofFile]
  | archive d =>
      rw [ofFile]
      cases hload : m.load d (loadable given) <;> simp [hload]

/-- What was made is kept with its archive, and given back. -/
theorem of_keep {made : α × Log} (h : m.keep scheme path made s = (.ok (a, log), s')) :
    a = made.1 ∧ ∃ d, m.toArchive a = .ok d ∧ s.write? path (.archive d) = some s' := by
  rw [keep] at h
  cases harchive : m.toArchive made.1 with
  | error failure =>
      rw [harchive] at h
      cases hwrite : s.write? path (.text "") <;> simp [hwrite] at h
  | ok d =>
      rw [harchive] at h
      cases hwrite : s.write? path (.archive d) with
      | none => simp [hwrite] at h
      | some t =>
          simp only [hwrite, Prod.mk.injEq, Except.ok.injEq] at h
          obtain ⟨⟨rfl, -⟩, rfl⟩ := h
          exact ⟨rfl, d, harchive, hwrite⟩

/-- What is left in the file of an engine that was made: its archive, or nothing if it has none. -/
inductive Leaves (m : Maker α) (a : α) : FileContent → Prop
  | archive {d : Datum} (archived : m.toArchive a = .ok d) : Leaves m a (.archive d)
  | nothing {failure : Failure} (refused : m.toArchive a = .error failure) : Leaves m a (.text "")

/-- Keeping an engine writes its file, or leaves the store as it is. -/
theorem store_of_keep (made : α × Log) :
    (m.keep scheme path made s).2 = s ∨
      ∃ content, m.Leaves made.1 content ∧
        s.write? path content = some (m.keep scheme path made s).2 := by
  rw [keep]
  cases harchive : m.toArchive made.1 with
  | error failure =>
      cases hwrite : s.write? path (.text "") with
      | none => exact .inl rfl
      | some emptied =>
          -- whether the empty file takes its place depends on how files are written
          cases hatomic : scheme.atomic with
          | true => exact .inl (by simp)
          | false => exact .inr ⟨.text "", .nothing harchive, by simp [hwrite]⟩
  | ok d =>
      cases hwrite : s.write? path (.archive d) with
      | none => exact .inl (by simp only [hwrite])
      | some t => exact .inr ⟨.archive d, .archive harchive, by simp only [hwrite]⟩

/-- What is made where nothing is kept. -/
theorem ofCache_of_fresh (hread : s.read? path = none)
    (hdirectory : s.leadsToDirectory path = false) :
    m.ofCache scheme path given o s =
      match m.build o with
      | .ok made => m.keep scheme path made s
      | .error failure => (.error failure, s) := by
  rw [ofCache, hread]
  cases m.build o with
  | ok made => simp [hdirectory]
  | error failure => simp [hdirectory]

/-- An engine at a path was loaded from there, or it was built and is kept there now. -/
theorem of_ofCache (h : m.ofCache scheme path given o s = (.ok (a, log), s')) :
    (∃ d, s.read? path = some (.archive d) ∧ m.load d (loadable given) = .ok a ∧ s' = s) ∨
      (s.read? path = none ∧ (∃ told, m.build o = .ok (a, told)) ∧
        ∃ d, m.toArchive a = .ok d ∧ s.write? path (.archive d) = some s') := by
  cases hread : s.read? path with
  | some content =>
      rw [ofCache, hread] at h
      cases hfile : m.ofFile path content given with
      | error failure => simp [hfile] at h
      | ok b =>
          simp only [hfile, Prod.mk.injEq, Except.ok.injEq] at h
          obtain ⟨⟨rfl, -⟩, rfl⟩ := h
          obtain ⟨d, rfl, hload⟩ := ofFile_eq_ok_iff.1 hfile
          exact .inl ⟨d, rfl, hload, rfl⟩
  | none =>
      cases hdirectory : s.leadsToDirectory path with
      | true =>
          rw [ofCache, hread] at h
          simp [hdirectory] at h
      | false =>
          rw [ofCache_of_fresh hread hdirectory] at h
          cases hbuild : m.build o with
          | error failure => simp [hbuild] at h
          | ok made =>
              rw [hbuild] at h
              obtain ⟨rfl, kept⟩ := of_keep h
              exact .inr ⟨rfl, ⟨made.2, rfl⟩, kept⟩

/-- Making an engine at a path where something is kept leaves the store as it is, and so does a
failure to build it. Otherwise its file is written, if that is possible. -/
theorem store_of_ofCache (m : Maker α) (scheme : CacheScheme) (path : String)
    (given : Options.Given) (o : Options) (s : FileStore) :
    (m.ofCache scheme path given o s).2 = s ∨
      s.read? path = none ∧ ∃ made content, m.build o = .ok made ∧ m.Leaves made.1 content ∧
        s.write? path content = some (m.ofCache scheme path given o s).2 := by
  cases hread : s.read? path with
  | some content =>
      rw [ofCache, hread]
      cases hfile : m.ofFile path content given <;> exact .inl (by simp [hfile])
  | none =>
      cases hdirectory : s.leadsToDirectory path with
      | true =>
          rw [ofCache, hread]
          exact .inl (by simp [hdirectory])
      | false =>
          rw [ofCache_of_fresh hread hdirectory]
          cases hbuild : m.build o with
          | error failure => exact .inl rfl
          | ok made =>
              rcases store_of_keep made with same | ⟨content, h⟩
              · exact .inl same
              · exact .inr ⟨rfl, made, content, rfl, h⟩

/-- An engine that was made was built, or it was loaded from the file at its path. -/
theorem of_run (h : m.run scheme given s = (.ok (a, log), s')) :
    ∃ o, Options.ofGiven given = .ok o ∧
      ((∃ told, m.build o = .ok (a, told)) ∨
        ∃ d content, m.source = .ok d ∧
          s.read? (cachePath scheme d given o) = some (.archive content) ∧
          m.load content (loadable given) = .ok a) := by
  cases hgiven : Options.ofGiven given with
  | error failure =>
      rw [run_of_badOptions hgiven] at h
      exact absurd h (by simp)
  | ok o =>
      refine ⟨o, rfl, ?_⟩
      cases hcache : o.cache.truthy with
      | false =>
          rw [run_of_off hgiven hcache] at h
          exact .inl ⟨log, (Prod.mk.inj h).1⟩
      | true =>
          cases hsource : m.source with
          | error failure =>
              rw [run_of_sourceless hgiven hcache hsource] at h
              exact absurd h (by simp)
          | ok d =>
              rw [run_of_on hgiven hcache hsource] at h
              rcases of_ofCache h with ⟨content, hread, hload, -⟩ | ⟨-, hbuild, -⟩
              · exact .inr ⟨d, content, rfl, hread, hload⟩
              · exact .inl hbuild

end Engine.Maker

end Predictive
