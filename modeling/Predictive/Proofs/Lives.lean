import Predictive.Proofs.SearchRuns
import Predictive.Proofs.SetSoundness

/-!
# Requests end, and no search is opened twice

From every memo of every grammar a request has one run and no other, and the run is what the analysis
does (`Request.Runs.unique`, `Request.exists_run`): no search goes on for ever, however the symbols of
the grammar refer to each other. A life is a list of requests to one analysis. Since a memo has one entry
for a symbol at most, no search is opened twice in a life (`Request.ends_once`).
-/

set_option autoImplicit false

namespace Predictive

open Analysis

variable {g : Grammar}

/-! ## Replies and runs -/

/-- What an analysis answers to a request. -/
inductive Reply where
  | answer (a : Answer)
  | table (t : ParseTable)

namespace Reply

/-- The reply that tells a set. -/
abbrev ofSet (found : SymbolSet) : Except GrammarFault Reply := .ok (.answer (.set found))

/-- The reply that tells sets under their labels. -/
abbrev ofSets (entries : List (String × SymbolSet)) : Except GrammarFault Reply :=
  .ok (.answer (.sets entries))

end Reply

namespace Request

/-- The reply to a request, or the fault with which it fails. -/
def reply (g : Grammar) : Request → Memo → Except GrammarFault Reply
  | .query q, m => (q.run g m).1.map .answer
  | .table strict, m => ((ParseTable.build g strict m).result g).map .table

/-- The runs of requests that end. -/
inductive Runs (g : Grammar) :
    Request → Memo → List Search → Except GrammarFault Reply → Memo → Prop
  | firstOf {s : Symbol} {found : SymbolSet} {m m' : Memo} {opened : List Search}
      (run : Predictive.Runs g (.firstOf s) m opened (.set found) m') :
      Runs g (.query (.firstOf s)) m opened (Reply.ofSet found) m'
  | followOf {s : Symbol} {found : SymbolSet} {m m' : Memo} {opened : List Search}
      (run : Predictive.Runs g (.followOf s) m opened (.set found) m') :
      Runs g (.query (.followOf s)) m opened (Reply.ofSet found) m'
  | firstOfRhs {rhs : List Symbol} {found : SymbolSet} {m m' : Memo} {opened : List Search}
      (run : Predictive.Runs g (.firstOfRhs rhs) m opened (.set found) m') :
      Runs g (.query (.firstOfRhs rhs)) m opened (Reply.ofSet found) m'
  | predict {p : Production} {found : SymbolSet} {m m' : Memo} {opened : List Search}
      (run : Predictive.Runs g (.predict p) m opened (.set found) m') :
      Runs g (.query (.predict p)) m opened (Reply.ofSet found) m'
  | predictNumber {n : Int} {p : Production} {found : SymbolSet} {m m' : Memo}
      {opened : List Search} (numbered : g.getProduction n = .ok p)
      (run : Predictive.Runs g (.predict p) m opened (.set found) m') :
      Runs g (.query (.predictNumber n)) m opened (Reply.ofSet found) m'
  | noProduction {n : Int} {fault : GrammarFault} {m : Memo}
      (missing : g.getProduction n = .error fault) :
      Runs g (.query (.predictNumber n)) m [] (.error fault) m
  | firstSets {m m' : Memo} {opened : List Search}
      (run : Predictive.Runs g (.each (g.nonterminals.map .first)) m opened .done m') :
      Runs g (.query .firstSets) m opened (Reply.ofSets m'.first.entries) m'
  | followSets {m m' : Memo} {opened : List Search}
      (run : Predictive.Runs g (.each (g.nonterminals.map .follow)) m opened .done m') :
      Runs g (.query .followSets) m opened (Reply.ofSets m'.follow.entries) m'
  | predictSets {entries : List (String × SymbolSet)} {m m' : Memo} {opened : List Search}
      (run : Predictive.Runs g (.predictSets 1 g.productionList) m opened (.sets entries) m') :
      Runs g (.query .predictSets) m opened (Reply.ofSets entries) m'
  | table {strict : Bool} {rows : OrderedMap Symbol TableRow} {collisions : List Collision}
      {m m' : Memo} {opened : List Search}
      (run : Predictive.Runs g (.table strict g.productionList OrderedMap.empty []) m opened
        (.table rows collisions none) m') :
      Runs g (.table strict) m opened (.ok (.table ⟨rows⟩)) m'
  | stopped {strict : Bool} {rows : OrderedMap Symbol TableRow} {collisions : List Collision}
      {collision : Collision} {m m' : Memo} {opened : List Search}
      (run : Predictive.Runs g (.table strict g.productionList OrderedMap.empty []) m opened
        (.table rows collisions (some collision)) m') :
      Runs g (.table strict) m opened (.error (.collision (collision.describe g))) m'

/-- A life of an analysis: the requests that it is asked, one after the other. -/
inductive Life (g : Grammar) : List Request → Memo → List Search → Memo → Prop
  | nil {m : Memo} : Life g [] m [] m
  | cons {r : Request} {requests : List Request} {reply : Except GrammarFault Reply}
      {m m₁ m' : Memo} {opened opened' : List Search} (run : Runs g r m opened reply m₁)
      (rest : Life g requests m₁ opened' m') :
      Life g (r :: requests) m (opened ++ opened') m'

/-- A request has one run at most from a memo. -/
theorem Runs.unique {r : Request} {reply reply' : Except GrammarFault Reply} {m m' m'' : Memo}
    {opened opened' : List Search} (h : Runs g r m opened reply m')
    (k : Runs g r m opened' reply' m'') : opened' = opened ∧ reply' = reply ∧ m'' = m' := by
  cases h with
  | firstOf run =>
      cases k with
      | firstOf run' =>
          cases run.unique run'
          exact ⟨rfl, rfl, rfl⟩
  | followOf run =>
      cases k with
      | followOf run' =>
          cases run.unique run'
          exact ⟨rfl, rfl, rfl⟩
  | firstOfRhs run =>
      cases k with
      | firstOfRhs run' =>
          cases run.unique run'
          exact ⟨rfl, rfl, rfl⟩
  | predict run =>
      cases k with
      | predict run' =>
          cases run.unique run'
          exact ⟨rfl, rfl, rfl⟩
  -- a number names a production or none, whichever run it is
  | predictNumber numbered run =>
      cases k with
      | predictNumber numbered' run' =>
          cases numbered.symm.trans numbered'
          cases run.unique run'
          exact ⟨rfl, rfl, rfl⟩
      | noProduction missing => exact absurd (numbered.symm.trans missing) (by simp)
  | noProduction missing =>
      cases k with
      | predictNumber numbered _ => exact absurd (numbered.symm.trans missing) (by simp)
      | noProduction missing' =>
          cases missing.symm.trans missing'
          exact ⟨rfl, rfl, rfl⟩
  | firstSets run =>
      cases k with
      | firstSets run' =>
          cases run.unique run'
          exact ⟨rfl, rfl, rfl⟩
  | followSets run =>
      cases k with
      | followSets run' =>
          cases run.unique run'
          exact ⟨rfl, rfl, rfl⟩
  | predictSets run =>
      cases k with
      | predictSets run' =>
          cases run.unique run'
          exact ⟨rfl, rfl, rfl⟩
  -- the table of a run cannot be both whole and broken off
  | table run =>
      cases k with
      | table run' =>
          cases run.unique run'
          exact ⟨rfl, rfl, rfl⟩
      | stopped run' => exact absurd (run.unique run') (by simp)
  | stopped run =>
      cases k with
      | table run' => exact absurd (run.unique run') (by simp)
      | stopped run' =>
          cases run.unique run'
          exact ⟨rfl, rfl, rfl⟩

/-- What the analysis does for a request is a run. -/
theorem exists_run (g : Grammar) (r : Request) (m : Memo) :
    ∃ opened, Runs g r m opened (r.reply g m) (r.run g m) := by
  cases r with
  | query q =>
      cases q with
      | firstOf s =>
          obtain ⟨opened, run⟩ := exists_run_firstOf g s m
          exact ⟨opened, .firstOf run⟩
      | followOf s =>
          obtain ⟨opened, run⟩ := exists_run_followOf g s m
          exact ⟨opened, .followOf run⟩
      | firstOfRhs rhs =>
          obtain ⟨opened, run⟩ := exists_run_firstOfRhs g rhs m
          exact ⟨opened, .firstOfRhs run⟩
      | predictNumber n =>
          cases h : g.getProduction n with
          | error fault =>
              rw [reply, run, Query.run, h]
              exact ⟨[], .noProduction h⟩
          | ok p =>
              obtain ⟨opened, run⟩ := exists_run_predict g p m
              rw [reply, Request.run, Query.run, h]
              exact ⟨opened, .predictNumber h run⟩
      | predict p =>
          obtain ⟨opened, run⟩ := exists_run_predict g p m
          exact ⟨opened, .predict run⟩
      | firstSets =>
          obtain ⟨opened, run⟩ :=
            exists_run_searchAll .first (exists_run_firstOf g) g.nonterminals m
          exact ⟨opened, .firstSets run⟩
      | followSets =>
          obtain ⟨opened, run⟩ :=
            exists_run_searchAll .follow (exists_run_followOf g) g.nonterminals m
          exact ⟨opened, .followSets run⟩
      | predictSets =>
          obtain ⟨opened, run⟩ := exists_run_predictSetsFrom g 1 g.productionList m
          exact ⟨opened, .predictSets run⟩
  | table strict =>
      -- a strict build that meets a collision has a run as well, which ends there
      obtain ⟨opened, run⟩ := ParseTable.exists_run_addProductions g strict g.productionList
        (b := ⟨OrderedMap.empty, [], m, none⟩) rfl
      refine ⟨opened, ?_⟩
      cases h : (ParseTable.build g strict m).stopped with
      | none =>
          rw [reply, ParseTable.Build.result_of_going h]
          exact .table (h ▸ run)
      | some collision =>
          rw [reply, ParseTable.Build.result_of_stopped h]
          exact .stopped (h ▸ run)

theorem Runs.growsBy {r : Request} {reply : Except GrammarFault Reply} {m m' : Memo}
    {opened : List Search} (h : Runs g r m opened reply m') : m.GrowsBy opened m' := by
  cases h with
  | noProduction _ => exact .refl m
  | firstOf run => exact run.growsBy trivial
  | followOf run => exact run.growsBy trivial
  | firstOfRhs run => exact run.growsBy trivial
  | predict run => exact run.growsBy trivial
  | predictNumber _ run => exact run.growsBy trivial
  | firstSets run => exact run.growsBy trivial
  | followSets run => exact run.growsBy trivial
  | predictSets run => exact run.growsBy trivial
  | table run => exact run.growsBy trivial
  | stopped run => exact run.growsBy trivial

/-! ## Lives -/

theorem Life.growsBy {requests : List Request} {m m' : Memo} {opened : List Search}
    (h : Life g requests m opened m') : m.GrowsBy opened m' := by
  induction h with
  | nil => exact .refl _
  | cons run _ ih => exact run.growsBy.trans ih

theorem exists_life (g : Grammar) (requests : List Request) (m : Memo) :
    ∃ opened, Life g requests m opened (runAll g requests m) := by
  induction requests generalizing m with
  | nil => exact ⟨[], .nil⟩
  | cons r requests ih =>
      obtain ⟨opened, run⟩ := exists_run g r m
      obtain ⟨opened', rest⟩ := ih (r.run g m)
      exact ⟨_, .cons run rest⟩

theorem Life.unique {requests : List Request} {m m' m'' : Memo} {opened opened' : List Search}
    (h : Life g requests m opened m') (k : Life g requests m opened' m'') :
    opened' = opened ∧ m'' = m' := by
  induction h generalizing opened' with
  | nil =>
      cases k
      exact ⟨rfl, rfl⟩
  | cons run _ ih =>
      cases k with
      | cons run' rest =>
          obtain ⟨rfl, -, rfl⟩ := run.unique run'
          obtain ⟨rfl, rfl⟩ := ih rest
          exact ⟨rfl, rfl⟩

/-- Searches are distinct when those for First sets are and those for Follow sets are. -/
theorem nodup_of_symbols {searches : List Search}
    (first : (searches.filterMap Search.first?).Nodup)
    (follow : (searches.filterMap Search.follow?).Nodup) : searches.Nodup := by
  induction searches with
  | nil => exact List.nodup_nil
  | cons search searches ih =>
      cases search with
      | first s =>
          change (s :: searches.filterMap Search.first?).Nodup at first
          obtain ⟨fresh, first⟩ := List.nodup_cons.1 first
          refine List.nodup_cons.2 ⟨fun h => fresh ?_, ih first follow⟩
          exact List.mem_filterMap.2 ⟨_, h, rfl⟩
      | follow s =>
          change (s :: searches.filterMap Search.follow?).Nodup at follow
          obtain ⟨fresh, follow⟩ := List.nodup_cons.1 follow
          refine List.nodup_cons.2 ⟨fun h => fresh ?_, ih first follow⟩
          exact List.mem_filterMap.2 ⟨_, h, rfl⟩

/-- No search is opened twice in the life of an analysis. -/
theorem Life.nodup {requests : List Request} {m : Memo} {opened : List Search}
    (h : Life g requests .empty opened m) : opened.Nodup := by
  have grown := h.growsBy
  apply nodup_of_symbols
  · -- the symbols searched for are the keys of the memo
    have keys := m.first.nodup_keys
    rwa [grown.first] at keys
  · have keys := m.follow.nodup_keys
    rwa [grown.follow] at keys

/-- From every memo a request has one run, which replies and leaves what the analysis computes. Every
list of requests makes up one life of a new analysis, in which each search for the First or the Follow
set of a symbol is opened once at most. -/
theorem ends_once (g : Grammar) :
    (∀ (r : Request) (m : Memo), ∃ opened, ∀ opened' reply m',
      Runs g r m opened' reply m' ↔ opened' = opened ∧ reply = r.reply g m ∧ m' = r.run g m) ∧
    ∀ requests, ∃ opened, opened.Nodup ∧ ∀ opened' m,
      Life g requests .empty opened' m ↔ opened' = opened ∧ m = runAll g requests .empty := by
  constructor
  · intro r m
    obtain ⟨opened, run⟩ := exists_run g r m
    refine ⟨opened, fun opened' reply m' => ⟨run.unique, ?_⟩⟩
    rintro ⟨rfl, rfl, rfl⟩
    exact run
  · intro requests
    obtain ⟨opened, life⟩ := exists_life g requests .empty
    refine ⟨opened, life.nodup, fun opened' m => ⟨life.unique, ?_⟩⟩
    rintro ⟨rfl, rfl⟩
    exact life

end Request

end Predictive
