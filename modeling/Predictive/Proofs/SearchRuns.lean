import Predictive.Analysis.Run
import Predictive.Proofs.TableBuild

/-!
# Runs of searches

By the rules of `Runs`, which put no bound on the depth of searches, a job tells what its runs consist
of (`Runs.of_firstOf` and the like), so it has one run at most (`Runs.unique`). What the analysis
computes with its bound is a run: `exists_run_firstOf`, `exists_run_followOf`, and the jobs that are
made of these searches. So the bound is never felt.

A search makes the entry of its symbol when it is opened, and entries are made nowhere else: a memo
grows by one entry for each search that is opened, in this order (`Runs.growsBy`).
-/

set_option autoImplicit false

namespace Predictive

open Analysis

variable {g : Grammar}

/-! ## What a run consists of -/

namespace Runs

variable {s : Symbol} {p : Production} {m m' : Memo} {opened : List Search} {result : Outcome}

/-- A search for a First set reads the entry. If there is none, it makes one, and gathers into it unless
the symbol is a token. -/
theorem of_firstOf (h : Runs g (.firstOf s) m opened result m') :
    (∀ found, m.first.get? s = some found → (opened, result, m') = ([], .set found, m)) ∧
      (m.first.get? s = none → g.isToken s = true → (opened, result, m') =
        ([.first s], .set ((m.addFirst s (.singleton s)).firstAt s),
          m.addFirst s (.singleton s))) ∧
      (m.first.get? s = none → g.isToken s = false → ∃ gathered, opened = .first s :: gathered ∧
        result = .set (m'.firstAt s) ∧
          Runs g (.gatherFirst s (g.productionsFor s)) (m.addFirst s ∅) gathered .done m') := by
  cases h with
  | firstKnown entry => simp [entry]
  | firstToken absent token => simp [absent, token]
  | firstGathered absent expandable gather =>
      exact ⟨by simp [absent], by simp [expandable], fun _ _ => ⟨_, rfl, rfl, gather⟩⟩

theorem of_firstOfRhs {rhs : List Symbol} (filled : rhs ≠ [])
    (h : Runs g (.firstOfRhs rhs) m opened result m') :
    Runs g (.firstOfSequence rhs ∅) m opened result m' := by
  cases h with
  | rhsEmpty => exact absurd rfl filled
  | rhsFilled _ run => exact run

/-- The First set of a sequence is that of its first symbol, and of the rest if that can vanish. -/
theorem of_sequence {rest : List Symbol} {found : SymbolSet}
    (h : Runs g (.firstOfSequence (s :: rest) found) m opened result m') :
    (s = Symbol.empty →
        (opened, result, m') = ([], .set (found.insert Symbol.empty), m)) ∧
      (s ≠ Symbol.empty → ∃ searches first m₁,
        Runs g (.firstOf s) m searches (.set first) m₁ ∧
          (Symbol.empty ∉ first → (opened, result, m') =
            (searches, .set (found ∪ first.erase Symbol.empty), m₁)) ∧
          (Symbol.empty ∈ first → ∃ more, opened = searches ++ more ∧
            Runs g (.firstOfSequence rest (found ∪ first.erase Symbol.empty)) m₁ more result
              m')) := by
  cases h with
  | sequenceEmpty empty => simp [empty]
  | sequenceLast proper head hides =>
      refine ⟨fun empty => absurd empty proper, fun _ => ⟨_, _, _, head, ?_, ?_⟩⟩
      · exact fun _ => rfl
      · exact fun vanishes => absurd vanishes hides
  | sequenceNext proper head vanishes tail =>
      refine ⟨fun empty => absurd empty proper, fun _ => ⟨_, _, _, head, ?_, ?_⟩⟩
      · exact fun hides => absurd vanishes hides
      · exact fun _ => ⟨_, rfl, tail⟩

/-- A search for a Follow set reads the entry, or makes one and gathers into it. -/
theorem of_followOf (h : Runs g (.followOf s) m opened result m') :
    (∀ found, m.follow.get? s = some found → (opened, result, m') = ([], .set found, m)) ∧
      (m.follow.get? s = none → ∃ gathered, opened = .follow s :: gathered ∧
        result = .set (m'.followAt s) ∧
          Runs g (.gatherFollow s (g.productionsWith s)) (m.addFollow s (initialFollow g s))
            gathered .done m') := by
  cases h with
  | followKnown entry => simp [entry]
  | followGathered absent gather =>
      exact ⟨by simp [absent], fun _ => ⟨_, rfl, rfl, gather⟩⟩

/-- For each use of a symbol what comes after it is gathered, and the Follow set of the left-hand side
if all of that can vanish and it is another symbol. -/
theorem of_gatherUses {lhs : Symbol} {rest : List Symbol} {rests : List (List Symbol)}
    (h : Runs g (.gatherUses s lhs (rest :: rests)) m opened result m') :
    result = .done ∧ ∃ searches all m₁, Runs g (.gatherRest s rest) m searches (.vanishes all) m₁ ∧
      (all = false ∨ lhs = s → ∃ more, opened = searches ++ more ∧
        Runs g (.gatherUses s lhs rests) m₁ more .done m') ∧
      (all = true → lhs ≠ s → ∃ flow follow m₂ more, opened = searches ++ (flow ++ more) ∧
        Runs g (.followOf lhs) m₁ flow (.set follow) m₂ ∧
          Runs g (.gatherUses s lhs rests) (m₂.addFollow s follow) more .done m') := by
  cases h with
  | usesSkip use ends more =>
      refine ⟨rfl, _, _, _, use, fun _ => ⟨_, rfl, more⟩, ?_⟩
      intro hall other
      exact absurd (ends.resolve_left (by simp [hall])) other
  | usesFlow use other flow more =>
      refine ⟨rfl, _, _, _, use, ?_, fun _ _ => ⟨_, _, _, _, rfl, flow, more⟩⟩
      intro ends
      exact absurd (ends.resolve_left (by simp)) other

/-- What comes after a use of a symbol is looked at up to the first symbol that cannot vanish. -/
theorem of_gatherRest {x : Symbol} {rest : List Symbol}
    (h : Runs g (.gatherRest s (x :: rest)) m opened result m') :
    (x = Symbol.empty → Runs g (.gatherRest s rest) m opened result m') ∧
      (x ≠ Symbol.empty → ∃ searches first m₁,
        Runs g (.firstOf x) m searches (.set first) m₁ ∧
          (Symbol.empty ∉ first → (opened, result, m') =
            (searches, .vanishes false, m₁.addFollow s (first.erase Symbol.empty))) ∧
          (Symbol.empty ∈ first → ∃ more, opened = searches ++ more ∧
            Runs g (.gatherRest s rest) (m₁.addFollow s (first.erase Symbol.empty)) more result
              m')) := by
  cases h with
  | restEmpty empty more => exact ⟨fun _ => more, fun proper => absurd empty proper⟩
  | restLast proper head hides =>
      refine ⟨fun empty => absurd empty proper, fun _ => ⟨_, _, _, head, ?_, ?_⟩⟩
      · exact fun _ => rfl
      · exact fun vanishes => absurd vanishes hides
  | restNext proper head vanishes more =>
      refine ⟨fun empty => absurd empty proper, fun _ => ⟨_, _, _, head, ?_, ?_⟩⟩
      · exact fun hides => absurd vanishes hides
      · exact fun _ => ⟨_, rfl, more⟩

/-- A production predicts what begins its right-hand side, and what follows its left-hand side if that
can vanish. -/
theorem of_predict (h : Runs g (.predict p) m opened result m') :
    (p.isEmpty = true → Runs g (.followOf p.lhs) m opened result m') ∧
      (p.isEmpty = false → ∃ searches first m₁,
        Runs g (.firstOfRhs p.rhs) m searches (.set first) m₁ ∧
          (Symbol.empty ∉ first → (opened, result, m') = (searches, .set first, m₁)) ∧
          (Symbol.empty ∈ first → ∃ more follow, opened = searches ++ more ∧
            result = .set (first ∪ follow) ∧
              Runs g (.followOf p.lhs) m₁ more (.set follow) m')) := by
  cases h with
  | predictEmpty empty follow => exact ⟨fun _ => follow, by simp [empty]⟩
  | predictFirst filled rhs hides =>
      refine ⟨by simp [filled], fun _ => ⟨_, _, _, rhs, ?_, ?_⟩⟩
      · exact fun _ => rfl
      · exact fun vanishes => absurd vanishes hides
  | predictBoth filled rhs vanishes follow =>
      refine ⟨by simp [filled], fun _ => ⟨_, _, _, rhs, ?_, ?_⟩⟩
      · exact fun hides => absurd vanishes hides
      · exact fun _ => ⟨_, _, rfl, rfl, follow⟩

/-- Predict sets are listed for the productions that are not empty. -/
theorem of_predictSets {place : Nat} {ps : List Production}
    (h : Runs g (.predictSets place (p :: ps)) m opened result m') :
    (p.isEmpty = true → Runs g (.predictSets place ps) m opened result m') ∧
      (p.isEmpty = false → ∃ searches found m₁ more entries, opened = searches ++ more ∧
        result = .sets ((predictLabel place p, found) :: entries) ∧
          Runs g (.predict p) m searches (.set found) m₁ ∧
            Runs g (.predictSets (place + 1) ps) m₁ more (.sets entries) m') := by
  cases h with
  | predictSetsSkip empty more => exact ⟨fun _ => more, by simp [empty]⟩
  | predictSetsNext filled head more =>
      exact ⟨by simp [filled], fun _ => ⟨_, _, _, _, _, rfl, rfl, head, more⟩⟩

/-- The cells of a production are claimed, and the others come next unless that stops the build. -/
theorem of_table {strict : Bool} {ps : List Production} {rows : OrderedMap Symbol TableRow}
    {collisions : List Collision}
    (h : Runs g (.table strict (p :: ps) rows collisions) m opened result m') :
    ∃ searches predicted m₁, Runs g (.predict p) m searches (.set predicted) m₁ ∧
      ∀ row told stopped, ParseTable.claimCells strict p (predicted.erase Symbol.empty).toList
          ((ParseTable.mk rows).row p.lhs) collisions = (row, told, stopped) →
        (stopped = none → ∃ more, opened = searches ++ more ∧
          Runs g (.table strict ps
            ((rows.insert p.lhs ((ParseTable.mk rows).row p.lhs)).insert p.lhs row) told) m₁ more
              result m') ∧
        (stopped ≠ none → (opened, result, m') = (searches,
          .table ((rows.insert p.lhs ((ParseTable.mk rows).row p.lhs)).insert p.lhs row) told stopped,
            m₁)) := by
  cases h with
  | tableNext head claimed more =>
      refine ⟨_, _, _, head, ?_⟩
      intro row told stopped again
      cases claimed.symm.trans again
      exact ⟨fun _ => ⟨_, rfl, more⟩, fun stops => absurd rfl stops⟩
  | tableStop head claimed =>
      refine ⟨_, _, _, head, ?_⟩
      intro row told stopped again
      cases claimed.symm.trans again
      exact ⟨fun goes => absurd goes (by simp), fun _ => rfl⟩

end Runs

/-! ## One run -/

/-- A job has one run at most from a memo: two runs open the same searches and end in the same way. -/
theorem Runs.unique {job : Job} {m m' m'' : Memo} {opened opened' : List Search}
    {result result' : Outcome} (h : Runs g job m opened result m')
    (k : Runs g job m opened' result' m'') : (opened', result', m'') = (opened, result, m') := by
  -- Two rules for one job differ in what they ask of the memo, of the symbol, or of the set that a
  -- search has found. In the last case the induction is needed before the rules can be told apart.
  induction h generalizing opened' result' m'' with
  -- nothing is left to do
  | gatherFirstEnd | sequenceEnd | gatherFollowEnd | usesEnd | restEnd | eachEnd | predictSetsEnd
    | tableEnd =>
      cases k
      rfl
  | rhsEmpty =>
      cases k with
      | rhsEmpty => rfl
      | rhsFilled filled _ => exact absurd rfl filled
  -- First sets
  | firstKnown entry => exact k.of_firstOf.1 _ entry
  | firstToken absent token => exact k.of_firstOf.2.1 absent token
  | firstGathered absent expandable _ ih =>
      obtain ⟨_, rfl, rfl, gather⟩ := k.of_firstOf.2.2 absent expandable
      cases ih gather
      rfl
  | gatherFirstNext _ _ ih ih' =>
      cases k with
      | gatherFirstNext rhs more =>
          cases ih rhs
          cases ih' more
          rfl
  | rhsFilled filled _ ih => exact ih (k.of_firstOfRhs filled)
  | sequenceEmpty empty => exact k.of_sequence.1 empty
  | sequenceLast proper _ hides ih =>
      obtain ⟨_, _, _, head, last, -⟩ := k.of_sequence.2 proper
      cases ih head
      exact last hides
  | sequenceNext proper _ vanishes _ ih ih' =>
      obtain ⟨_, _, _, head, -, next⟩ := k.of_sequence.2 proper
      cases ih head
      obtain ⟨_, rfl, tail⟩ := next vanishes
      cases ih' tail
      rfl
  -- Follow sets
  | followKnown entry => exact k.of_followOf.1 _ entry
  | followGathered absent _ ih =>
      obtain ⟨_, rfl, rfl, gather⟩ := k.of_followOf.2 absent
      cases ih gather
      rfl
  | gatherFollowNext _ _ ih ih' =>
      cases k with
      | gatherFollowNext uses more =>
          cases ih uses
          cases ih' more
          rfl
  | usesSkip _ ends _ ih ih' =>
      obtain ⟨rfl, _, _, _, use, skip, -⟩ := k.of_gatherUses
      cases ih use
      obtain ⟨_, rfl, more⟩ := skip ends
      cases ih' more
      rfl
  | usesFlow _ other _ _ ih ih₁ ih' =>
      obtain ⟨rfl, _, _, _, use, -, flows⟩ := k.of_gatherUses
      cases ih use
      obtain ⟨_, _, _, _, rfl, flow, more⟩ := flows rfl other
      cases ih₁ flow
      cases ih' more
      rfl
  | restEmpty empty _ ih => exact ih (k.of_gatherRest.1 empty)
  | restLast proper _ hides ih =>
      obtain ⟨_, _, _, head, last, -⟩ := k.of_gatherRest.2 proper
      cases ih head
      exact last hides
  | restNext proper _ vanishes _ ih ih' =>
      obtain ⟨_, _, _, head, -, next⟩ := k.of_gatherRest.2 proper
      cases ih head
      obtain ⟨_, rfl, more⟩ := next vanishes
      cases ih' more
      rfl
  -- Predict sets and tables
  | predictEmpty empty _ ih => exact ih (k.of_predict.1 empty)
  | predictFirst filled _ hides ih =>
      obtain ⟨_, _, _, rhs, first, -⟩ := k.of_predict.2 filled
      cases ih rhs
      exact first hides
  | predictBoth filled _ vanishes _ ih ih' =>
      obtain ⟨_, _, _, rhs, -, both⟩ := k.of_predict.2 filled
      cases ih rhs
      obtain ⟨_, _, rfl, rfl, follow⟩ := both vanishes
      cases ih' follow
      rfl
  | eachNext _ _ ih ih' =>
      cases k with
      | eachNext head more =>
          cases ih head
          cases ih' more
          rfl
  | predictSetsSkip empty _ ih => exact ih (k.of_predictSets.1 empty)
  | predictSetsNext filled _ _ ih ih' =>
      obtain ⟨_, _, _, _, _, rfl, rfl, head, more⟩ := k.of_predictSets.2 filled
      cases ih head
      cases ih' more
      rfl
  | tableNext _ claimed _ ih ih' =>
      obtain ⟨_, _, _, head, claims⟩ := k.of_table
      cases ih head
      obtain ⟨_, rfl, more⟩ := (claims _ _ _ claimed).1 rfl
      cases ih' more
      rfl
  | tableStop _ claimed ih =>
      obtain ⟨_, _, _, head, claims⟩ := k.of_table
      cases ih head
      exact (claims _ _ _ claimed).2 (by simp)

/-! ## Entries for the searches that are opened -/

/-- The memo has grown by one entry for each search, in their order. -/
structure Memo.GrowsBy (opened : List Search) (m m' : Memo) : Prop where
  first : m'.first.keys = m.first.keys ++ opened.filterMap Search.first?
  follow : m'.follow.keys = m.follow.keys ++ opened.filterMap Search.follow?

namespace Memo.GrowsBy

variable {m m₁ m₂ m' : Memo} {opened opened' : List Search} {s : Symbol}

theorem refl (m : Memo) : GrowsBy [] m m := by
  constructor
  · simp
  · simp

theorem trans (h : GrowsBy opened m m₁) (k : GrowsBy opened' m₁ m') :
    GrowsBy (opened ++ opened') m m' := by
  constructor
  · rw [k.first, h.first, List.filterMap_append, List.append_assoc]
  · rw [k.follow, h.follow, List.filterMap_append, List.append_assoc]

theorem mem_first (h : GrowsBy opened m m') (hs : s ∈ m.first.keys) : s ∈ m'.first.keys := by
  rw [h.first]
  exact List.mem_append_left _ hs

theorem mem_follow (h : GrowsBy opened m m') (hs : s ∈ m.follow.keys) : s ∈ m'.follow.keys := by
  rw [h.follow]
  exact List.mem_append_left _ hs

/-- New members of an entry make no entry. -/
theorem addFirst {found : SymbolSet} (h : GrowsBy opened m m') (hs : s ∈ m.first.keys) :
    GrowsBy opened m (m'.addFirst s found) := by
  have present : m'.first.contains s = true :=
    OrderedMap.contains_iff.2 (OrderedMap.mem_keys_iff.1 (h.mem_first hs))
  refine ⟨?_, h.follow⟩
  rw [Memo.addFirst, OrderedMap.keys_insert, if_pos present]
  exact h.first

theorem addFollow {found : SymbolSet} (h : GrowsBy opened m m') (hs : s ∈ m.follow.keys) :
    GrowsBy opened m (m'.addFollow s found) := by
  have present : m'.follow.contains s = true :=
    OrderedMap.contains_iff.2 (OrderedMap.mem_keys_iff.1 (h.mem_follow hs))
  refine ⟨h.first, ?_⟩
  rw [Memo.addFollow, OrderedMap.keys_insert, if_pos present]
  exact h.follow

/-- The entry with which a search for a First set is opened. -/
theorem openFirst (absent : m.first.get? s = none) (found : SymbolSet) :
    GrowsBy [.first s] m (m.addFirst s found) := by
  have missing : m.first.contains s = false := by
    rw [OrderedMap.contains, absent, Option.isSome_none]
  constructor
  · rw [Memo.addFirst, OrderedMap.keys_insert, missing]
    rfl
  · simp [Memo.addFirst, Search.follow?]

theorem openFollow (absent : m.follow.get? s = none) (found : SymbolSet) :
    GrowsBy [.follow s] m (m.addFollow s found) := by
  have missing : m.follow.contains s = false := by
    rw [OrderedMap.contains, absent, Option.isSome_none]
  constructor
  · simp [Memo.addFollow, Search.first?]
  · rw [Memo.addFollow, OrderedMap.keys_insert, missing]
    rfl

theorem mem_first_opened (h : GrowsBy [.first s] m m') : s ∈ m'.first.keys := by
  rw [h.first]
  exact List.mem_append_right _ (List.mem_singleton.2 rfl)

theorem mem_follow_opened (h : GrowsBy [.follow s] m m') : s ∈ m'.follow.keys := by
  rw [h.follow]
  exact List.mem_append_right _ (List.mem_singleton.2 rfl)

end Memo.GrowsBy

/-- The search that a job is part of has been opened. -/
def Job.Begun : Job → Memo → Prop
  | .gatherFirst s _, m => s ∈ m.first.keys
  | .gatherRest s _, m => s ∈ m.follow.keys
  | .gatherUses s _ _, m => s ∈ m.follow.keys
  | .gatherFollow s _, m => s ∈ m.follow.keys
  | _, _ => True

theorem Search.begun_job (search : Search) (m : Memo) : search.job.Begun m := by
  cases search with
  | first s => trivial
  | follow s => trivial

/-- A memo grows by an entry for each search that is opened. -/
theorem Runs.growsBy {job : Job} {m m' : Memo} {opened : List Search} {result : Outcome}
    (h : Runs g job m opened result m') (begun : job.Begun m) : m.GrowsBy opened m' := by
  -- What is gathered goes into an entry that is there since the search was opened (`Job.Begun`), and
  -- searches in between do not take it away.
  induction h with
  | firstKnown _ => exact .refl _
  | firstToken absent _ => exact .openFirst absent _
  | firstGathered absent _ _ ih =>
      have head := Memo.GrowsBy.openFirst absent ∅
      exact head.trans (ih head.mem_first_opened)
  | gatherFirstEnd => exact .refl _
  | gatherFirstNext _ _ ih ih' =>
      have head := ih trivial
      exact (head.addFirst begun).trans (ih' ((head.addFirst begun).mem_first begun))
  | rhsEmpty => exact .refl _
  | rhsFilled _ _ ih => exact ih trivial
  | sequenceEnd => exact .refl _
  | sequenceEmpty _ => exact .refl _
  | sequenceLast _ _ _ ih => exact ih trivial
  | sequenceNext _ _ _ _ ih ih' => exact (ih trivial).trans (ih' trivial)
  | followKnown _ => exact .refl _
  | @followGathered s _ _ _ absent _ ih =>
      have head := Memo.GrowsBy.openFollow absent (initialFollow g s)
      exact head.trans (ih head.mem_follow_opened)
  | gatherFollowEnd => exact .refl _
  | gatherFollowNext _ _ ih ih' =>
      have head := ih begun
      exact head.trans (ih' (head.mem_follow begun))
  | usesEnd => exact .refl _
  | usesSkip _ _ _ ih ih' =>
      have head := ih begun
      exact head.trans (ih' (head.mem_follow begun))
  | usesFlow _ _ _ _ ih ih₁ ih' =>
      have use := ih begun
      have entry := use.mem_follow begun
      have flow := ih₁ trivial
      exact use.trans ((flow.addFollow entry).trans (ih' ((flow.addFollow entry).mem_follow entry)))
  | restEnd => exact .refl _
  | restEmpty _ _ ih => exact ih begun
  | restLast _ _ _ ih =>
      exact (ih trivial).addFollow begun
  | restNext _ _ _ _ ih ih' =>
      have head := ih trivial
      exact (head.addFollow begun).trans (ih' ((head.addFollow begun).mem_follow begun))
  | predictEmpty _ _ ih => exact ih trivial
  | predictFirst _ _ _ ih => exact ih trivial
  | predictBoth _ _ _ _ ih ih' => exact (ih trivial).trans (ih' trivial)
  | eachEnd => exact .refl _
  | eachNext _ _ ih ih' => exact (ih (Search.begun_job _ _)).trans (ih' trivial)
  | predictSetsEnd => exact .refl _
  | predictSetsSkip _ _ ih => exact ih trivial
  | predictSetsNext _ _ _ ih ih' => exact (ih trivial).trans (ih' trivial)
  | tableEnd => exact .refl _
  | tableNext _ _ _ ih ih' => exact (ih trivial).trans (ih' trivial)
  | tableStop _ _ ih => exact ih trivial

/-! ## What is computed is a run -/

/-- All that the search finds, it finds by a run of the job. -/
def Traced (g : Grammar) (find : Finder) (job : Symbol → Job) : Prop :=
  ∀ s m found m', find s m = some (found, m') → ∃ opened, Runs g (job s) m opened (.set found) m'

namespace Analysis

section First

variable {find : Finder}

theorem exists_run_firstOfSequence? (traced : Traced g find .firstOf) (rest : List Symbol)
    {found result : SymbolSet} {m m' : Memo}
    (h : firstOfSequence? find rest found m = some (result, m')) :
    ∃ opened, Runs g (.firstOfSequence rest found) m opened (.set result) m' := by
  induction rest generalizing found m with
  | nil =>
      rw [firstOfSequence?] at h
      cases h
      exact ⟨_, .sequenceEnd⟩
  | cons s rest ih =>
      by_cases hs : s = Symbol.empty
      · rw [firstOfSequence?, if_pos hs] at h
        cases h
        exact ⟨_, .sequenceEmpty hs⟩
      · rw [firstOfSequence?, if_neg hs] at h
        split at h
        · exact absurd h (by simp)
        · next first m₁ hfind =>
            obtain ⟨opened, head⟩ := traced s m first m₁ hfind
            -- the rest is searched only behind a symbol that may vanish
            by_cases vanishes : Symbol.empty ∈ first
            · rw [if_pos vanishes] at h
              obtain ⟨opened', tail⟩ := ih h
              exact ⟨_, .sequenceNext hs head vanishes tail⟩
            · rw [if_neg vanishes] at h
              cases h
              exact ⟨_, .sequenceLast hs head vanishes⟩

theorem exists_run_firstOfRhs? (traced : Traced g find .firstOf) {rhs : List Symbol}
    {found : SymbolSet} {m m' : Memo} (h : firstOfRhs? find rhs m = some (found, m')) :
    ∃ opened, Runs g (.firstOfRhs rhs) m opened (.set found) m' := by
  by_cases hrhs : rhs = []
  · rw [firstOfRhs?, if_pos hrhs] at h
    cases h
    subst hrhs
    exact ⟨_, .rhsEmpty⟩
  · rw [firstOfRhs?, if_neg hrhs] at h
    obtain ⟨opened, run⟩ := exists_run_firstOfSequence? traced rhs h
    exact ⟨_, .rhsFilled hrhs run⟩

theorem exists_run_gatherFirst? (traced : Traced g find .firstOf) (s : Symbol)
    (ps : List Production) {m m' : Memo} (h : gatherFirst? find s ps m = some m') :
    ∃ opened, Runs g (.gatherFirst s ps) m opened .done m' := by
  induction ps generalizing m with
  | nil =>
      rw [gatherFirst?] at h
      cases h
      exact ⟨_, .gatherFirstEnd⟩
  | cons p ps ih =>
      rw [gatherFirst?] at h
      split at h
      · exact absurd h (by simp)
      · next first m₁ hrhs =>
          obtain ⟨opened, rhs⟩ := exists_run_firstOfRhs? traced hrhs
          obtain ⟨opened', more⟩ := ih h
          exact ⟨_, .gatherFirstNext rhs more⟩

end First

theorem traced_firstOf? (g : Grammar) (depth : Nat) : Traced g (firstOf? g depth) .firstOf := by
  induction depth with
  | zero =>
      -- at the bound only what has an entry is found
      intro s m found m' h
      rw [firstOf?] at h
      split at h
      · next entry =>
          cases h
          exact ⟨_, .firstKnown entry⟩
      · exact absurd h (by simp)
  | succ depth ih =>
      intro s m found m' h
      rw [firstOf?] at h
      split at h
      · next entry =>
          cases h
          exact ⟨_, .firstKnown entry⟩
      · next absent =>
          split at h
          · next token =>
              cases h
              exact ⟨_, .firstToken absent token⟩
          · next expandable =>
              split at h
              · exact absurd h (by simp)
              · next m₁ hgather =>
                  obtain ⟨opened, gather⟩ := exists_run_gatherFirst? ih s _ hgather
                  cases h
                  exact ⟨_, .firstGathered absent (by simpa using expandable) gather⟩

/-- The First set of a symbol is found by a run. -/
theorem exists_run_firstOf (g : Grammar) (s : Symbol) (m : Memo) :
    ∃ opened, Runs g (.firstOf s) m opened (.set (firstOf g s m).1) (firstOf g s m).2 := by
  -- the bound of `g` is enough from every memo
  obtain ⟨found, m', hfind, -⟩ := findsFirst_depth g [] s m
  have run := traced_firstOf? g g.depth s m found m' hfind
  rw [firstOf, hfind, Option.getD_some]
  exact run

theorem exists_run_firstOfRhs (g : Grammar) (rhs : List Symbol) (m : Memo) :
    ∃ opened, Runs g (.firstOfRhs rhs) m opened (.set (firstOfRhs g rhs m).1)
      (firstOfRhs g rhs m).2 := by
  have finds : ∀ x ∈ rhs, ∀ m₁ : Memo, m.first.Extends m₁.first →
      FindsFirst g (firstOf? g g.depth) [] x m₁ := fun x _ m₁ _ => findsFirst_depth g [] x m₁
  obtain ⟨found, m', hfind, -⟩ := firstOfRhs?_spec rhs m finds
  have run := exists_run_firstOfRhs? (traced_firstOf? g g.depth) hfind
  rw [firstOfRhs, hfind, Option.getD_some]
  exact run

section Follow

variable {findFollow : Finder}

theorem exists_run_gatherRest? (g : Grammar) (s : Symbol) (rest : List Symbol) {all : Bool}
    {m m' : Memo} (h : gatherRest? (firstOf? g g.depth) s rest m = some (all, m')) :
    ∃ opened, Runs g (.gatherRest s rest) m opened (.vanishes all) m' := by
  induction rest generalizing m with
  | nil =>
      rw [gatherRest?] at h
      cases h
      exact ⟨_, .restEnd⟩
  | cons x rest ih =>
      by_cases hx : x = Symbol.empty
      · rw [gatherRest?, if_pos hx] at h
        obtain ⟨opened, more⟩ := ih h
        exact ⟨_, .restEmpty hx more⟩
      · rw [gatherRest?, if_neg hx] at h
        split at h
        · exact absurd h (by simp)
        · next first m₁ hfind =>
            obtain ⟨opened, head⟩ := traced_firstOf? g g.depth x m first m₁ hfind
            -- the rest is gone through only behind a symbol that may vanish
            by_cases vanishes : Symbol.empty ∈ first
            · simp only [if_pos vanishes] at h
              obtain ⟨opened', more⟩ := ih h
              exact ⟨_, .restNext hx head vanishes more⟩
            · simp only [if_neg vanishes] at h
              cases h
              exact ⟨_, .restLast hx head vanishes⟩

theorem exists_run_gatherUses? (traced : Traced g findFollow .followOf) (s lhs : Symbol)
    (rests : List (List Symbol)) {m m' : Memo}
    (h : gatherUses? (firstOf? g g.depth) findFollow s lhs rests m = some m') :
    ∃ opened, Runs g (.gatherUses s lhs rests) m opened .done m' := by
  induction rests generalizing m with
  | nil =>
      rw [gatherUses?] at h
      cases h
      exact ⟨_, .usesEnd⟩
  | cons rest rests ih =>
      rw [gatherUses?] at h
      split at h
      · exact absurd h (by simp)
      · next m₁ hrest =>
          obtain ⟨opened, use⟩ := exists_run_gatherRest? g s rest hrest
          obtain ⟨opened', more⟩ := ih h
          exact ⟨_, .usesSkip use (.inl rfl) more⟩
      · next m₁ hrest =>
          obtain ⟨opened, use⟩ := exists_run_gatherRest? g s rest hrest
          by_cases hl : lhs = s
          · -- the Follow set of the symbol itself is not asked for
            rw [if_pos hl] at h
            obtain ⟨opened', more⟩ := ih h
            exact ⟨_, .usesSkip use (.inr hl) more⟩
          · rw [if_neg hl] at h
            split at h
            · exact absurd h (by simp)
            · next follow m₂ hfind =>
                obtain ⟨opened₁, flow⟩ := traced lhs m₁ follow m₂ hfind
                obtain ⟨opened', more⟩ := ih h
                exact ⟨_, .usesFlow use hl flow more⟩

theorem exists_run_gatherFollow? (traced : Traced g findFollow .followOf) (s : Symbol)
    (ps : List Production) {m m' : Memo}
    (h : gatherFollow? (firstOf? g g.depth) findFollow s ps m = some m') :
    ∃ opened, Runs g (.gatherFollow s ps) m opened .done m' := by
  induction ps generalizing m with
  | nil =>
      rw [gatherFollow?] at h
      cases h
      exact ⟨_, .gatherFollowEnd⟩
  | cons p ps ih =>
      rw [gatherFollow?] at h
      split at h
      · exact absurd h (by simp)
      · next m₁ huses =>
          obtain ⟨opened, uses⟩ := exists_run_gatherUses? traced s p.lhs _ huses
          obtain ⟨opened', more⟩ := ih h
          exact ⟨_, .gatherFollowNext uses more⟩

end Follow

theorem traced_followOf? (g : Grammar) (depth : Nat) : Traced g (followOf? g depth) .followOf := by
  induction depth with
  | zero =>
      intro s m found m' h
      rw [followOf?] at h
      split at h
      · next entry =>
          cases h
          exact ⟨_, .followKnown entry⟩
      · exact absurd h (by simp)
  | succ depth ih =>
      intro s m found m' h
      rw [followOf?] at h
      split at h
      · next entry =>
          cases h
          exact ⟨_, .followKnown entry⟩
      · next absent =>
          split at h
          · exact absurd h (by simp)
          · next m₁ hgather =>
              obtain ⟨opened, gather⟩ := exists_run_gatherFollow? ih s _ hgather
              cases h
              exact ⟨_, .followGathered absent gather⟩

/-- The Follow set of a symbol is found by a run. -/
theorem exists_run_followOf (g : Grammar) (s : Symbol) (m : Memo) :
    ∃ opened, Runs g (.followOf s) m opened (.set (followOf g s m).1) (followOf g s m).2 := by
  obtain ⟨found, m', hfind, -⟩ := findsFollow_depth g [] s m
  have run := traced_followOf? g g.depth s m found m' hfind
  rw [followOf, hfind, Option.getD_some]
  exact run

theorem exists_run_predict (g : Grammar) (p : Production) (m : Memo) :
    ∃ opened, Runs g (.predict p) m opened (.set (predict g p m).1) (predict g p m).2 := by
  cases h : p.isEmpty with
  | true =>
      obtain ⟨opened, follow⟩ := exists_run_followOf g p.lhs m
      rw [predict_of_isEmpty h]
      exact ⟨_, .predictEmpty h follow⟩
  | false =>
      obtain ⟨opened, rhs⟩ := exists_run_firstOfRhs g p.rhs m
      by_cases vanishes : Symbol.empty ∈ (firstOfRhs g p.rhs m).1
      · obtain ⟨opened', follow⟩ := exists_run_followOf g p.lhs (firstOfRhs g p.rhs m).2
        rw [predict_of_mem h vanishes]
        exact ⟨_, .predictBoth h rhs vanishes follow⟩
      · rw [predict_of_not_mem h vanishes]
        exact ⟨_, .predictFirst h rhs vanishes⟩

/-- Searches one after the other, all by the same search for one symbol. -/
theorem exists_run_searchAll {search : Symbol → Memo → SymbolSet × Memo}
    (toSearch : Symbol → Search)
    (run : ∀ s m, ∃ opened, Runs g (toSearch s).job m opened (.set (search s m).1) (search s m).2)
    (ss : List Symbol) (m : Memo) :
    ∃ opened, Runs g (.each (ss.map toSearch)) m opened .done (searchAll search ss m) := by
  induction ss generalizing m with
  | nil => exact ⟨_, .eachEnd⟩
  | cons s ss ih =>
      obtain ⟨opened, head⟩ := run s m
      obtain ⟨opened', more⟩ := ih (search s m).2
      exact ⟨_, .eachNext head more⟩

theorem exists_run_predictSetsFrom (g : Grammar) (place : Nat) (ps : List Production) (m : Memo) :
    ∃ opened, Runs g (.predictSets place ps) m opened (.sets (predictSetsFrom g place ps m).1)
      (predictSetsFrom g place ps m).2 := by
  induction ps generalizing place m with
  | nil => exact ⟨_, .predictSetsEnd⟩
  | cons p ps ih =>
      rw [predictSetsFrom]
      cases h : p.isEmpty with
      | true =>
          obtain ⟨opened, more⟩ := ih place m
          exact ⟨_, .predictSetsSkip h more⟩
      | false =>
          obtain ⟨opened, head⟩ := exists_run_predict g p m
          obtain ⟨opened', more⟩ := ih (place + 1) (predict g p m).2
          exact ⟨_, .predictSetsNext h head more⟩

end Analysis

theorem ParseTable.exists_run_addProductions (g : Grammar) (strict : Bool) (ps : List Production)
    {b : Build} (going : b.stopped = none) :
    ∃ opened, Runs g (.table strict ps b.rows b.collisions) b.memo opened
      (.table (addProductions g strict ps b).rows (addProductions g strict ps b).collisions
        (addProductions g strict ps b).stopped) (addProductions g strict ps b).memo := by
  induction ps generalizing b with
  | nil =>
      rw [addProductions, going]
      exact ⟨_, .tableEnd⟩
  | cons p ps ih =>
      obtain ⟨opened, head⟩ := exists_run_predict g p b.memo
      rw [addProductions_cons]
      split
      · next row collisions claimed =>
          obtain ⟨opened', more⟩ :=
            ih (b := ⟨b.rowsWith p.lhs row, collisions, (predict g p b.memo).2, none⟩) rfl
          exact ⟨_, .tableNext head claimed more⟩
      · next row collisions collision claimed => exact ⟨_, .tableStop head claimed⟩

end Predictive
