import Predictive.Proofs.Lives

/-!
# Entries are written once

What a memo holds when a request has been answered stays as it is: later requests put new entries behind
those that are there, and change none of them. So a request that is repeated, however many others came
in between, gets the reply that it got before and changes nothing; only all First and all Follow sets
may have become more (`Request.reply_again`). This is so for every grammar, although the entries of a
left-recursive one may be incomplete: what has been given out is never corrected.
-/

set_option autoImplicit false

namespace Predictive

open Analysis

variable {g : Grammar}

/-! ## Searches again -/

namespace Analysis

theorem firstOf_of_entry {s : Symbol} {m : Memo} {found : SymbolSet}
    (h : m.first.get? s = some found) : firstOf g s m = (found, m) := by
  rw [firstOf, firstOf?_of_entry g.depth h, Option.getD_some]

theorem firstOf_again (s : Symbol) {m m' : Memo} (later : Advances g (firstOf g s m).2 m') :
    firstOf g s m' = ((firstOf g s m).1, m') :=
  firstOf_of_entry (later.first _ _ (firstOf_spec g s m).1.entry)

theorem followOf_again (s : Symbol) {m m' : Memo} (later : Advances g (followOf g s m).2 m') :
    followOf g s m' = ((followOf g s m).1, m') :=
  followOf_of_entry (later.follow _ _ (followOf_spec g s m).1.entry)

section SearchAll

variable {search : Symbol → Memo → SymbolSet × Memo}

theorem searchAll_advances (advances : ∀ s m, Advances g m (search s m).2) (ss : List Symbol)
    (m : Memo) : Advances g m (searchAll search ss m) := by
  induction ss generalizing m with
  | nil => exact .refl g m
  | cons s ss ih => exact (advances s m).trans (ih (search s m).2)

/-- Searches that have been made change nothing any more. -/
theorem searchAll_again (advances : ∀ s m, Advances g m (search s m).2)
    (again : ∀ s {m m'}, Advances g (search s m).2 m' → search s m' = ((search s m).1, m'))
    (ss : List Symbol) {m m' : Memo} (later : Advances g (searchAll search ss m) m') :
    searchAll search ss m' = m' := by
  induction ss generalizing m with
  | nil => rfl
  | cons s ss ih =>
      -- the later memo is also later than the first search
      have head := again s ((searchAll_advances advances ss (search s m).2).trans later)
      rw [searchAll, head]
      exact ih later

end SearchAll

theorem predictSetsFrom_advances (g : Grammar) (place : Nat) (ps : List Production) (m : Memo) :
    Advances g m (predictSetsFrom g place ps m).2 :=
  (keptBySearches_advances g m).predictSetsFrom place ps (.refl g m)

theorem predictSetsFrom_again (place : Nat) (ps : List Production) {m m' : Memo}
    (later : Advances g (predictSetsFrom g place ps m).2 m') :
    predictSetsFrom g place ps m' = ((predictSetsFrom g place ps m).1, m') := by
  induction ps generalizing place m with
  | nil => rfl
  | cons p ps ih =>
      rw [predictSetsFrom] at later ⊢
      rw [predictSetsFrom]
      cases h : p.isEmpty with
      | true =>
          simp only [h, if_true] at later ⊢
          exact ih place later
      | false =>
          simp only [h, Bool.false_eq_true, if_false] at later ⊢
          have advance := predictSetsFrom_advances g (place + 1) ps (predict g p m).2
          rw [predict_again p (advance.trans later), ih (place + 1) later]

end Analysis

/-! ## Tables again -/

namespace ParseTable

/-- The build, but with another memo. -/
def Build.withMemo (b : Build) (m : Memo) : Build := { b with memo := m }

theorem addProductions_again {strict : Bool} (ps : List Production) {b : Build} {m : Memo}
    (later : Advances g (addProductions g strict ps b).memo m) :
    addProductions g strict ps (b.withMemo m) = (addProductions g strict ps b).withMemo m := by
  induction ps generalizing b with
  | nil => rfl
  | cons p ps ih =>
      rw [addProductions_cons] at later ⊢
      have hp : Advances g (predict g p b.memo).2 m := by
        revert later
        split
        · -- the build goes on after `p`, and what comes then only adds to the memo
          intro later
          have kept := keptBySearches_advances g (predict g p b.memo).2
          exact (addProductions_keeps kept strict ps (.refl g _)).trans later
        · exact id
      have again := predict_again p hp
      have hclaims : g.claims p (b.withMemo m).memo = g.claims p b.memo := by
        rw [Grammar.claims, Grammar.claims, Build.withMemo, again]
      rw [addProductions_cons, hclaims]
      -- the same cells are claimed of the same row
      revert later
      rw [show (b.withMemo m).rows = b.rows from rfl,
        show (b.withMemo m).collisions = b.collisions from rfl]
      split
      · intro later
        rw [show (predict g p (b.withMemo m).memo).2 = m from congrArg Prod.snd again]
        exact ih later
      · intro _
        rw [show (predict g p (b.withMemo m).memo).2 = m from congrArg Prod.snd again]
        rfl

/-- A table that has been built is built again from every later memo, without a change of the memo. -/
theorem build_again {strict : Bool} {m m' : Memo} (later : Advances g (build g strict m).memo m') :
    build g strict m' = (build g strict m).withMemo m' :=
  addProductions_again g.productionList later

end ParseTable

/-! ## Requests again -/

namespace Request

/-- The later reply repeats the earlier one. All First or all Follow sets are told in the order of their
entries, and more of them may have come behind the earlier ones. -/
def Repeats (r : Request) (earlier later : Except GrammarFault Reply) : Prop :=
  match r with
  | .query .firstSets | .query .followSets =>
      ∃ sets more, earlier = Reply.ofSets sets ∧ later = Reply.ofSets (sets ++ more)
  | _ => later = earlier

/-- A request that is repeated changes nothing. -/
theorem run_again (r : Request) {m m' : Memo} (later : Advances g (r.run g m) m') :
    r.run g m' = m' := by
  cases r with
  | query q =>
      cases q with
      | firstOf s => exact congrArg Prod.snd (firstOf_again s later)
      | followOf s => exact congrArg Prod.snd (followOf_again s later)
      | firstOfRhs rhs => exact congrArg Prod.snd (firstOfRhs_again rhs later.first)
      | predictNumber n =>
          rw [run, Query.run] at later ⊢
          -- a number without a production fails before anything is searched
          cases h : g.getProduction n with
          | error fault => rfl
          | ok p =>
              rw [h] at later
              exact congrArg Prod.snd (predict_again p later)
      | predict p => exact congrArg Prod.snd (predict_again p later)
      | firstSets => exact searchAll_again (firstOf_advances g) firstOf_again g.nonterminals later
      | followSets =>
          exact searchAll_again (followOf_advances g) followOf_again g.nonterminals later
      | predictSets => exact congrArg Prod.snd (predictSetsFrom_again 1 g.productionList later)
  | table strict => exact congrArg ParseTable.Build.memo (ParseTable.build_again later)

/-- Later requests leave the entries of a memo as they are, in front of all new ones. -/
theorem runAll_prefix (g : Grammar) (requests : List Request) (m : Memo) :
    m.first.entries <+: (runAll g requests m).first.entries ∧
      m.follow.entries <+: (runAll g requests m).follow.entries := by
  have advance := runAll_advances g requests m
  obtain ⟨opened, life⟩ := exists_life g requests m
  have grown := life.growsBy
  constructor
  · apply advance.first.entries_prefix
    rw [grown.first]
    exact List.prefix_append _ _
  · apply advance.follow.entries_prefix
    rw [grown.follow]
    exact List.prefix_append _ _

/-- A request that is repeated gets the reply that it got. -/
theorem repeats_of_advances (r : Request) {m m' : Memo} (later : Advances g (r.run g m) m')
    (first : (r.run g m).first.entries <+: m'.first.entries)
    (follow : (r.run g m).follow.entries <+: m'.follow.entries) :
    r.Repeats (r.reply g m) (r.reply g m') := by
  have unchanged := run_again r later
  cases r with
  | query q =>
      cases q with
      | firstOf s =>
          exact congrArg (fun found => Reply.ofSet found.1) (firstOf_again s later)
      | followOf s =>
          exact congrArg (fun found => Reply.ofSet found.1) (followOf_again s later)
      | firstOfRhs rhs =>
          exact congrArg (fun found => Reply.ofSet found.1)
            (firstOfRhs_again rhs later.first)
      | predictNumber n =>
          rw [run, Query.run] at later
          change reply g (.query (.predictNumber n)) m' = reply g (.query (.predictNumber n)) m
          rw [reply, reply, Query.run, Query.run]
          cases h : g.getProduction n with
          | error fault => rfl
          | ok p =>
              rw [h] at later
              exact congrArg (fun found => Reply.ofSet found.1) (predict_again p later)
      | predict p =>
          exact congrArg (fun found => Reply.ofSet found.1) (predict_again p later)
      | firstSets =>
          -- the memo is the later one, behind whose first entries new ones stand
          obtain ⟨more, hmore⟩ := first
          refine ⟨(run g (.query .firstSets) m).first.entries, more, rfl, ?_⟩
          rw [hmore]
          exact congrArg (fun m : Memo => Reply.ofSets m.first.entries) unchanged
      | followSets =>
          obtain ⟨more, hmore⟩ := follow
          refine ⟨(run g (.query .followSets) m).follow.entries, more, rfl, ?_⟩
          rw [hmore]
          exact congrArg (fun m : Memo => Reply.ofSets m.follow.entries) unchanged
      | predictSets =>
          exact congrArg (fun sets => Reply.ofSets sets.1)
            (predictSetsFrom_again 1 g.productionList later)
  | table strict =>
      change reply g (.table strict) m' = reply g (.table strict) m
      rw [reply, reply, ParseTable.build_again later]
      rfl

/-- When a request has been answered, later requests leave all entries of the memo as they are, in front
of new ones. The request that is repeated then gets the reply that it got, with more sets behind those
told before if it asks for all First or all Follow sets, and makes no entry. -/
theorem reply_again (g : Grammar) (m : Memo) (r : Request) (later : List Request) :
    (r.run g m).first.entries <+: (runAll g later (r.run g m)).first.entries ∧
    (r.run g m).follow.entries <+: (runAll g later (r.run g m)).follow.entries ∧
    r.Repeats (r.reply g m) (r.reply g (runAll g later (r.run g m))) ∧
    r.run g (runAll g later (r.run g m)) = runAll g later (r.run g m) := by
  obtain ⟨first, follow⟩ := runAll_prefix g later (r.run g m)
  have advance := runAll_advances g later (r.run g m)
  exact ⟨first, follow, repeats_of_advances r advance first follow, run_again r advance⟩

end Request

end Predictive
