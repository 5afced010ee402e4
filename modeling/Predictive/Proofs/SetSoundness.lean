import Predictive.Proofs.StrictBuild

/-!
# Sets hold nothing wrong

Whatever an analysis is asked for, be it sets or tables, its memo holds members of the least First and
Follow sets only, and so does every Predict set that it gives (`Request.entries_sound`). This is so for
left-recursive grammars too: the entry of a symbol whose search is under way may lack members when it is
read, but it has none too many. Hence all that left recursion can cause is that something is missing.
-/

set_option autoImplicit false

namespace Predictive

open Analysis

variable {g : Grammar}

/-- What an analysis can be asked for. -/
inductive Request where
  | query (q : Query)
  /-- The table, whose build may stop at a collision. -/
  | table (strict : Bool)

namespace Request

/-- The memo after a request, also if a table could not be finished. -/
def run (g : Grammar) : Request → Memo → Memo
  | .query q, m => (q.run g m).2
  | .table strict, m => (ParseTable.build g strict m).memo

/-- The memo after a list of requests. -/
def runAll (g : Grammar) (requests : List Request) (m : Memo) : Memo :=
  requests.foldl (fun m r => r.run g m) m

/-- A request keeps what each search for one set keeps. -/
theorem run_keeps {P : Memo → Prop} (kept : KeptBySearches g P) (r : Request) {m : Memo}
    (hm : P m) : P (r.run g m) := by
  cases r with
  | query q => exact kept.run q hm
  | table strict => exact ParseTable.build_keeps kept strict hm

theorem runAll_keeps {P : Memo → Prop} (kept : KeptBySearches g P) (requests : List Request)
    {m : Memo} (hm : P m) : P (runAll g requests m) := by
  induction requests generalizing m with
  | nil => exact hm
  | cons r requests ih =>
      apply ih
      exact run_keeps kept r hm

/-- Every list of requests keeps the memo true and its entries as they are. -/
theorem runAll_advances (g : Grammar) (requests : List Request) (m : Memo) :
    Advances g m (runAll g requests m) :=
  runAll_keeps (keptBySearches_advances g m) requests (.refl g m)

/-- After any requests to a new analysis the memo is true. -/
theorem followHolds_runAll (plain : g.Plain) (requests : List Request) :
    (runAll g requests .empty).FollowHolds g [] :=
  (runAll_advances g requests .empty).holds plain (Memo.followHolds_empty g)

/-- After any requests: an entry for a First set holds members of the least First set only, one for a
Follow set members of the least Follow set, which the empty symbol is not, and the Predict set that is
given for a production holds, but for the empty symbol, members of its least Predict set. -/
theorem entries_sound (wf : g.WellFormed) (alone : g.EmptyStandsAlone) (requests : List Request) :
    (∀ s found, (runAll g requests .empty).first.get? s = some found →
      ∀ t ∈ found, InFirst g s t) ∧
    (∀ s found, (runAll g requests .empty).follow.get? s = some found →
      ∀ t ∈ found, InFollow g s t ∧ t ≠ Symbol.empty) ∧
    ∀ n p, g.production? n = some p → ∀ t ∈ (predict g p (runAll g requests .empty)).1,
      t ≠ Symbol.empty → InPredict g p t := by
  have plain := wf.plain alone
  have holds := followHolds_runAll plain requests
  refine ⟨holds.first.sound, ?_, ?_⟩
  · intro s found entry t ht
    have inFollow := holds.sound s found entry t ht
    exact ⟨inFollow, ParseTable.InFollow.visible inFollow⟩
  · intro n p numbered
    have member := Grammar.mem_productionList numbered
    exact (predict_spec plain member holds).sound

/-- Sums and products, with left recursion, in which an operand may be missing. -/
def sums : Grammar :=
  .ofRules [⟨"E", ["E", "\"+\"", "T"]⟩, ⟨"E", ["T"]⟩, ⟨"T", ["T", "\"*\"", "\"n\""]⟩, ⟨"T", []⟩]
    .inferred ⟨.null, .null⟩

/-- Although `E` and `T` are left-recursive, what is found for them is right: here for the sets that are
asked for first and for a production of `T` after the table. -/
theorem entries_sound_sums :
    sums.WellFormed ∧ sums.EmptyStandsAlone ∧ ¬ sums.IsLeftRecursionFree ∧
      (∃ found, (runAll sums [.query (.followOf "T"), .table true] .empty).follow.get? "T" =
        some found ∧ found ≠ ∅ ∧ ∀ t ∈ found, InFollow sums "T" t ∧ t ≠ Symbol.empty) ∧
      ∃ p, sums.production? 3 = some p ∧ InPredict sums p "\"*\"" := by
  have wf : sums.WellFormed := Grammar.wellFormed_ofRules _ _ (by simp)
  have alone : sums.EmptyStandsAlone := by
    unfold Grammar.EmptyStandsAlone
    decide
  have corner : LeftCorner sums "E" "E" :=
    ⟨⟨1, "E", ["E", "\"+\"", "T"]⟩, by decide, rfl, by decide, by decide, [], _, rfl, .nil⟩
  obtain ⟨-, follow, predicted⟩ := entries_sound wf alone [.query (.followOf "T"), .table true]
  refine ⟨wf, alone, ?_, ?_, ?_⟩
  · intro free
    exact free "E" (leftRecursive_of_transGen (.single corner))
  · have entry : ((runAll sums [.query (.followOf "T"), .table true] .empty).follow.get? "T").any
        (fun found => found ≠ ∅) = true := by
      decide
    obtain ⟨found, hfound, filled⟩ := (Option.any_eq_true _ _).1 entry
    exact ⟨found, hfound, by simpa using filled, follow "T" found hfound⟩
  · refine ⟨⟨3, "T", ["T", "\"*\"", "\"n\""]⟩, by decide, ?_⟩
    exact predicted 3 _ (by decide) "\"*\"" (by decide) (by decide)

end Request

end Predictive
