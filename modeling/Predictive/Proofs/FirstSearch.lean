import Predictive.Analysis.First
import Predictive.Proofs.LeftCorner

/-!
# The search for First sets

`FindsFirst` says what the search for the First set of one symbol does: it ends, it leaves the entries
that were there before as they are, and it keeps the memo true (`Memo.FirstHolds`). A true memo holds
nothing beyond the least First sets, and without left recursion all of them, except in the entries of
the symbols whose searches are under way. Every search under way was led to the symbol that is
searched for by left corners (`Grammar.CornerOfAll`), so without left recursion no search reads an
entry that is not complete.

The search down to a depth ends when no more symbols than that are without an entry
(`findsFirst_firstOf?`), and so it does down to `Grammar.depth` (`firstOf_spec`, `firstOfRhs_spec`).
-/

set_option autoImplicit false

namespace Predictive

variable {g : Grammar}

/-! ## Entries of memos -/

namespace Memo

theorem get?_addFirst (m : Memo) (s l : Symbol) (found : SymbolSet) :
    (m.addFirst s found).first.get? l =
      if s = l then some (m.firstAt s ∪ found) else m.first.get? l :=
  OrderedMap.get?_insert m.first s l _

theorem get?_addFollow (m : Memo) (s l : Symbol) (found : SymbolSet) :
    (m.addFollow s found).follow.get? l =
      if s = l then some (m.followAt s ∪ found) else m.follow.get? l :=
  OrderedMap.get?_insert m.follow s l _

theorem firstAt_eq {m : Memo} {s : Symbol} {found : SymbolSet}
    (h : m.first.get? s = some found) : m.firstAt s = found := by
  rw [firstAt, h, Option.getD_some]

theorem followAt_eq {m : Memo} {s : Symbol} {found : SymbolSet}
    (h : m.follow.get? s = some found) : m.followAt s = found := by
  rw [followAt, h, Option.getD_some]

theorem exists_of_mem_firstAt {m : Memo} {s t : Symbol} (h : t ∈ m.firstAt s) :
    ∃ found, m.first.get? s = some found ∧ t ∈ found := by
  cases hs : m.first.get? s with
  | none =>
      rw [firstAt, hs, Option.getD_none] at h
      exact absurd h (SymbolSet.not_mem_empty t)
  | some found => exact ⟨found, rfl, firstAt_eq hs ▸ h⟩

theorem exists_of_mem_followAt {m : Memo} {s t : Symbol} (h : t ∈ m.followAt s) :
    ∃ found, m.follow.get? s = some found ∧ t ∈ found := by
  cases hs : m.follow.get? s with
  | none =>
      rw [followAt, hs, Option.getD_none] at h
      exact absurd h (SymbolSet.not_mem_empty t)
  | some found => exact ⟨found, rfl, followAt_eq hs ▸ h⟩

/-- When more has been put into one entry, what an entry holds was there before or is new. -/
theorem mem_of_get?_addFirst {m : Memo} {s k t : Symbol} {found set : SymbolSet}
    (hk : (m.addFirst s found).first.get? k = some set) (ht : t ∈ set) :
    (∃ old, m.first.get? k = some old ∧ t ∈ old) ∨ (k = s ∧ t ∈ found) := by
  rw [get?_addFirst] at hk
  by_cases h : s = k
  · rw [if_pos h, Option.some.injEq] at hk
    subst h hk
    exact (SymbolSet.mem_union.1 ht).imp exists_of_mem_firstAt fun ht => ⟨rfl, ht⟩
  · rw [if_neg h] at hk
    exact .inl ⟨set, hk, ht⟩

theorem mem_of_get?_addFollow {m : Memo} {s k t : Symbol} {found set : SymbolSet}
    (hk : (m.addFollow s found).follow.get? k = some set) (ht : t ∈ set) :
    (∃ old, m.follow.get? k = some old ∧ t ∈ old) ∨ (k = s ∧ t ∈ found) := by
  rw [get?_addFollow] at hk
  by_cases h : s = k
  · rw [if_pos h, Option.some.injEq] at hk
    subst h hk
    exact (SymbolSet.mem_union.1 ht).imp exists_of_mem_followAt fun ht => ⟨rfl, ht⟩
  · rw [if_neg h] at hk
    exact .inl ⟨set, hk, ht⟩

end Memo

/-! ## Symbols without an entry -/

/-- The symbols of all productions, with repetitions. -/
def Grammar.symbols (g : Grammar) : List Symbol :=
  g.productionList.flatMap fun p => p.lhs :: p.rhs

theorem Grammar.depth_eq (g : Grammar) : g.depth = g.symbols.length + 1 := rfl

theorem Grammar.lhs_mem_symbols {p : Production} (h : p ∈ g.productionList) :
    p.lhs ∈ g.symbols :=
  List.mem_flatMap.2 ⟨p, h, List.mem_cons_self⟩

theorem Grammar.mem_symbols_of_mem_rhs {p : Production} (h : p ∈ g.productionList) {x : Symbol}
    (hx : x ∈ p.rhs) : x ∈ g.symbols :=
  List.mem_flatMap.2 ⟨p, h, List.mem_cons_of_mem _ hx⟩

/-- How many of the symbols have no entry. -/
def unmet (symbols : List Symbol) (entries : OrderedMap Symbol SymbolSet) : Nat :=
  symbols.countP fun s => !entries.contains s

section Unmet

variable {symbols : List Symbol} {entries entries' : OrderedMap Symbol SymbolSet} {s : Symbol}

theorem unmet_le_of_keys (h : ∀ k v, entries.get? k = some v → ∃ w, entries'.get? k = some w) :
    unmet symbols entries' ≤ unmet symbols entries := by
  refine List.countP_mono_left fun k _ hk => ?_
  rw [Bool.not_eq_true', ← Bool.not_eq_true, OrderedMap.contains_iff] at hk ⊢
  rintro ⟨v, hv⟩
  exact hk (h k v hv)

theorem unmet_pos (hs : s ∈ symbols) (absent : entries.get? s = none) :
    0 < unmet symbols entries := by
  refine List.countP_pos_iff.2 ⟨s, hs, ?_⟩
  simp [OrderedMap.contains, absent]

theorem unmet_insert_lt (v : SymbolSet) (hs : s ∈ symbols) (absent : entries.get? s = none) :
    unmet symbols (entries.insert s v) < unmet symbols entries := by
  induction symbols with
  | nil => simp at hs
  | cons k ks ih =>
      have hle : unmet ks (entries.insert s v) ≤ unmet ks entries :=
        unmet_le_of_keys fun _ _ => (OrderedMap.extendsOff_insert entries s v).keys
      have hcons : ∀ m : OrderedMap Symbol SymbolSet,
          unmet (k :: ks) m = unmet ks m + if !m.contains k then 1 else 0 := fun _ =>
        List.countP_cons
      rw [hcons, hcons]
      by_cases hk : s = k
      · -- the symbol is counted before the insertion and not after it
        subst hk
        simp only [OrderedMap.contains, OrderedMap.get?_insert, absent, if_true, Option.isSome_some,
          Option.isSome_none, Bool.not_true, Bool.not_false, Bool.false_eq_true, if_false]
        omega
      · have hlt := ih ((List.mem_cons.1 hs).resolve_left fun h => hk h)
        have hkeep : (entries.insert s v).contains k = entries.contains k := by
          rw [OrderedMap.contains, OrderedMap.get?_insert, if_neg hk, OrderedMap.contains]
        rw [hkeep]
        omega

end Unmet

/-! ## True memos -/

/-- Every right-hand side has symbols, and the empty symbol is used as a whole right-hand side
only. -/
def Grammar.Plain (g : Grammar) : Prop :=
  ∀ p ∈ g.productionList,
    p.lhs ≠ Symbol.empty ∧ p.rhs ≠ [] ∧ (Symbol.empty ∈ p.rhs → p.rhs = [Symbol.empty])

theorem Grammar.WellFormed.plain (wf : g.WellFormed) (alone : g.EmptyStandsAlone) : g.Plain := by
  intro p hp
  obtain ⟨hlhs, hrhs⟩ := alone p hp
  exact ⟨hlhs, wf.filled p hp, fun h => hrhs.resolve_right fun hnot => hnot h⟩

/-- The entries hold members of the least First sets only and, without left recursion, all of them
except for the pending symbols. -/
structure Memo.FirstHolds (g : Grammar) (pending : List Symbol) (m : Memo) : Prop where
  sound : ∀ s found, m.first.get? s = some found → ∀ t ∈ found, InFirst g s t
  complete : g.IsLeftRecursionFree → ∀ s found, s ∉ pending → m.first.get? s = some found →
    ∀ t, InFirst g s t → t ∈ found

theorem Memo.firstHolds_of_first_eq {pending : List Symbol} {m m' : Memo}
    (h : m.FirstHolds g pending) (e : m'.first = m.first) : m'.FirstHolds g pending :=
  ⟨fun s found hs => h.sound s found (e ▸ hs),
    fun free s found hp hs => h.complete free s found hp (e ▸ hs)⟩

/-- Every pending symbol has the symbol as its left corner, over one production or more. -/
def Grammar.CornerOfAll (g : Grammar) (pending : List Symbol) (s : Symbol) : Prop :=
  ∀ u ∈ pending, Relation.TransGen (LeftCorner g) u s

theorem Grammar.cornerOfAll_nil (g : Grammar) (s : Symbol) : g.CornerOfAll [] s := by
  simp [CornerOfAll]

theorem Grammar.CornerOfAll.not_mem {pending : List Symbol} {s : Symbol}
    (h : g.CornerOfAll pending s) (free : g.IsLeftRecursionFree) : s ∉ pending :=
  fun hs => free s (leftRecursive_of_transGen (h s hs))

theorem Grammar.CornerOfAll.cons {pending : List Symbol} {s x : Symbol}
    (h : g.CornerOfAll pending s) (corner : LeftCorner g s x) : g.CornerOfAll (s :: pending) x := by
  intro u hu
  rcases List.mem_cons.1 hu with rfl | hu
  · exact .single corner
  · exact (h u hu).tail corner

/-! ## The search for one symbol -/

/-- What a search leaves of a memo: the entries and all Follow sets. The set that is found is an
entry then. -/
structure FirstAnswered (s : Symbol) (m : Memo) (found : SymbolSet) (m' : Memo) : Prop where
  kept : m.first.Extends m'.first
  follow : m'.follow = m.follow
  entry : m'.first.get? s = some found

/-- The search finds the First set of the symbol from the memo, and keeps it true while the searches
for the pending symbols are under way. -/
def FindsFirst (g : Grammar) (find : Finder) (pending : List Symbol) (s : Symbol) (m : Memo) :
    Prop :=
  ∃ found m', find s m = some (found, m') ∧ FirstAnswered s m found m' ∧
    (g.Plain → m.FirstHolds g pending → g.CornerOfAll pending s → m'.FirstHolds g pending)

/-! ## The search for a sequence -/

/-- The set has grown by the First set of the sequence. -/
structure FirstGathered (g : Grammar) (rhs : List Symbol) (found result : SymbolSet) : Prop where
  kept : ∀ t ∈ found, t ∈ result
  sound : ∀ t ∈ result, t ∈ found ∨ InFirstOf g rhs t
  complete : g.IsLeftRecursionFree → ∀ t, InFirstOf g rhs t → t ∈ result

theorem firstGathered_empty (found : SymbolSet) :
    FirstGathered g [Symbol.empty] found (found.insert Symbol.empty) where
  kept t ht := SymbolSet.mem_insert.2 (.inr ht)
  sound t ht := by
    rcases SymbolSet.mem_insert.1 ht with rfl | ht
    · exact .inr (.empty .nil)
    · exact .inl ht
  complete _ t ht :=
    SymbolSet.mem_insert.2 (.inl (inFirstOf_nil_iff.1 (inFirstOf_empty_cons.1 ht)))

section Steps

variable {s : Symbol} {rest : List Symbol} {found first result : SymbolSet}

/-- The First set of a sequence whose first symbol cannot vanish. -/
theorem firstGathered_of_not_mem (proper : s ≠ Symbol.empty) (sound : ∀ t ∈ first, InFirst g s t)
    (complete : g.IsLeftRecursionFree → ∀ t, InFirst g s t → t ∈ first)
    (hempty : Symbol.empty ∉ first) :
    FirstGathered g (s :: rest) found (found ∪ first.erase Symbol.empty) where
  kept t ht := SymbolSet.mem_union.2 (.inl ht)
  sound t ht := by
    rcases SymbolSet.mem_union.1 ht with ht | ht
    · exact .inl ht
    · obtain ⟨ht, visible⟩ := SymbolSet.mem_erase.1 ht
      exact .inr (.head proper (sound t ht) visible)
  complete free t ht := by
    rcases (inFirstOf_cons_of_ne proper).1 ht with ⟨ht, visible⟩ | ⟨vanishes, -⟩
    · exact SymbolSet.mem_union.2 (.inr (SymbolSet.mem_erase.2 ⟨complete free t ht, visible⟩))
    · exact absurd (complete free _ vanishes) hempty

/-- The First set of a sequence whose first symbol can vanish takes in that of the rest. -/
theorem FirstGathered.cons (proper : s ≠ Symbol.empty) (sound : ∀ t ∈ first, InFirst g s t)
    (complete : g.IsLeftRecursionFree → ∀ t, InFirst g s t → t ∈ first)
    (hempty : Symbol.empty ∈ first)
    (h : FirstGathered g rest (found ∪ first.erase Symbol.empty) result) :
    FirstGathered g (s :: rest) found result where
  kept t ht := h.kept t (SymbolSet.mem_union.2 (.inl ht))
  sound t ht := by
    rcases h.sound t ht with ht | ht
    · rcases SymbolSet.mem_union.1 ht with ht | ht
      · exact .inl ht
      · obtain ⟨ht, visible⟩ := SymbolSet.mem_erase.1 ht
        exact .inr (.head proper (sound t ht) visible)
    · exact .inr (.tail proper (sound _ hempty) ht)
  complete free t ht := by
    -- what the symbol itself begins with is kept while the rest is gathered
    rcases (inFirstOf_cons_of_ne proper).1 ht with ⟨ht, visible⟩ | ⟨-, ht⟩
    · refine h.kept t (SymbolSet.mem_union.2 (.inr ?_))
      exact SymbolSet.mem_erase.2 ⟨complete free t ht, visible⟩
    · exact h.complete free t ht

end Steps

/-- All symbols with which the sequence can begin are left corners of the pending symbols. -/
def Grammar.BeginsBelow (g : Grammar) (pending rhs : List Symbol) : Prop :=
  ∀ before x after, rhs = before ++ x :: after → x ≠ Symbol.empty →
    InFirstOf g before Symbol.empty → g.CornerOfAll pending x

theorem Grammar.BeginsBelow.head {pending rest : List Symbol} {s : Symbol}
    (h : g.BeginsBelow pending (s :: rest)) (proper : s ≠ Symbol.empty) :
    g.CornerOfAll pending s :=
  h [] s rest rfl proper .nil

theorem Grammar.BeginsBelow.tail {pending rest : List Symbol} {s : Symbol}
    (h : g.BeginsBelow pending (s :: rest)) (proper : s ≠ Symbol.empty)
    (vanishes : InFirst g s Symbol.empty) : g.BeginsBelow pending rest := by
  rintro before x after rfl hx hbefore
  exact h (s :: before) x after rfl hx (.tail proper vanishes hbefore)

theorem Grammar.beginsBelow_rhs {pending : List Symbol} {p : Production}
    (h : g.CornerOfAll pending p.lhs) (member : p ∈ g.productionList)
    (expandable : g.isToken p.lhs = false) : g.BeginsBelow (p.lhs :: pending) p.rhs := by
  intro before x after hrhs hx hbefore
  exact h.cons ⟨p, member, rfl, expandable, hx, before, after, hrhs, hbefore⟩

namespace Analysis

/-- The search for the First set of a sequence, by one that finds the First sets of its symbols. -/
theorem firstOfSequence?_spec {find : Finder} {pending : List Symbol} (rhs : List Symbol)
    (found : SymbolSet) (m : Memo)
    (finds : ∀ x ∈ rhs, ∀ m₁ : Memo, m.first.Extends m₁.first → FindsFirst g find pending x m₁) :
    ∃ result m', firstOfSequence? find rhs found m = some (result, m') ∧
      m.first.Extends m'.first ∧ m'.follow = m.follow ∧
      (g.Plain → m.FirstHolds g pending → g.BeginsBelow pending rhs →
        m'.FirstHolds g pending ∧
          ((Symbol.empty ∈ rhs → rhs = [Symbol.empty]) → FirstGathered g rhs found result)) := by
  induction rhs generalizing found m with
  | nil =>
      refine ⟨found.insert Symbol.empty, m, rfl, .refl _, rfl, fun _ holds _ => ⟨holds, fun _ => ?_⟩⟩
      refine ⟨fun t ht => SymbolSet.mem_insert.2 (.inr ht), ?_, ?_⟩
      · intro t ht
        rcases SymbolSet.mem_insert.1 ht with rfl | ht
        · exact .inr .nil
        · exact .inl ht
      · intro _ t ht
        exact SymbolSet.mem_insert.2 (.inl (inFirstOf_nil_iff.1 ht))
  | cons s rest ih =>
      by_cases hs : s = Symbol.empty
      · -- the search stops at the empty symbol, behind which nothing stands if it stands alone
        subst hs
        refine ⟨found.insert Symbol.empty, m, ?_, .refl _, rfl, fun _ holds _ =>
          ⟨holds, fun alone => ?_⟩⟩
        · rw [firstOfSequence?, if_pos rfl]
        · rw [alone List.mem_cons_self]
          exact firstGathered_empty found
      · obtain ⟨first, m₁, hfind, answered, keeps⟩ := finds s List.mem_cons_self m (.refl _)
        have complete : g.Plain → m.FirstHolds g pending → g.BeginsBelow pending (s :: rest) →
            g.IsLeftRecursionFree → ∀ t, InFirst g s t → t ∈ first := fun plain holds below free =>
          (keeps plain holds (below.head hs)).complete free s first ((below.head hs).not_mem free)
            answered.entry
        by_cases hempty : Symbol.empty ∈ first
        · -- the symbol can vanish, so the search goes on behind it
          obtain ⟨result, m', hrest, kept, follow, spec⟩ :=
            ih (found ∪ first.erase Symbol.empty) m₁ fun x hx m₂ hm₂ =>
              finds x (List.mem_cons_of_mem _ hx) m₂ (answered.kept.trans hm₂)
          refine ⟨result, m', ?_, answered.kept.trans kept, follow.trans answered.follow, ?_⟩
          · rw [firstOfSequence?, if_neg hs, hfind]
            simp only [if_pos hempty]
            exact hrest
          · intro plain holds below
            have holds₁ := keeps plain holds (below.head hs)
            have sound := holds₁.sound s first answered.entry
            obtain ⟨holds', gathered⟩ := spec plain holds₁ (below.tail hs (sound _ hempty))
            refine ⟨holds', fun alone => ?_⟩
            refine .cons hs sound (complete plain holds below) hempty (gathered fun hrest' => ?_)
            have := alone (List.mem_cons_of_mem _ hrest')
            exact absurd (List.cons.inj this).1 hs
        · -- the symbol hides the rest
          refine ⟨found ∪ first.erase Symbol.empty, m₁, ?_, answered.kept, answered.follow, ?_⟩
          · rw [firstOfSequence?, if_neg hs, hfind]
            simp only [if_neg hempty]
          · intro plain holds below
            have holds₁ := keeps plain holds (below.head hs)
            exact ⟨holds₁, fun _ => firstGathered_of_not_mem hs (holds₁.sound s first answered.entry)
              (complete plain holds below) hempty⟩

/-- The search for the First set of a right-hand side. -/
theorem firstOfRhs?_spec {find : Finder} {pending : List Symbol} (rhs : List Symbol) (m : Memo)
    (finds : ∀ x ∈ rhs, ∀ m₁ : Memo, m.first.Extends m₁.first → FindsFirst g find pending x m₁) :
    ∃ result m', firstOfRhs? find rhs m = some (result, m') ∧
      m.first.Extends m'.first ∧ m'.follow = m.follow ∧
      (g.Plain → m.FirstHolds g pending → g.BeginsBelow pending rhs →
        m'.FirstHolds g pending ∧
          (rhs ≠ [] → (Symbol.empty ∈ rhs → rhs = [Symbol.empty]) →
            FirstGathered g rhs ∅ result)) := by
  -- an empty right-hand side is not searched at all
  by_cases hrhs : rhs = []
  · refine ⟨∅, m, ?_, .refl _, rfl, fun _ holds _ => ⟨holds, fun hne => absurd hrhs hne⟩⟩
    rw [firstOfRhs?, if_pos hrhs]
  · obtain ⟨result, m', hseq, kept, follow, spec⟩ := firstOfSequence?_spec rhs ∅ m finds
    refine ⟨result, m', ?_, kept, follow, ?_⟩
    · rw [firstOfRhs?, if_neg hrhs]
      exact hseq
    · intro plain holds below
      obtain ⟨holds', gathered⟩ := spec plain holds below
      exact ⟨holds', fun _ => gathered⟩

/-! ## The productions of a symbol -/

/-- New members of the entry of a pending symbol keep the memo true. -/
theorem firstHolds_addFirst {pending : List Symbol} {s : Symbol} {found : SymbolSet} {m : Memo}
    (holds : m.FirstHolds g pending) (hs : s ∈ pending) (sound : ∀ t ∈ found, InFirst g s t) :
    (m.addFirst s found).FirstHolds g pending where
  sound k set hk t ht := by
    rcases Memo.mem_of_get?_addFirst hk ht with ⟨old, hold, ht⟩ | ⟨rfl, ht⟩
    · exact holds.sound k old hold t ht
    · exact sound t ht
  complete free k set hp hk := by
    rw [Memo.get?_addFirst, if_neg fun h : s = k => hp (h ▸ hs)] at hk
    exact holds.complete free k set hp hk

/-- Gathering the First sets of right-hand sides of `s`: the entry of `s` grows by all of them. -/
theorem gatherFirst?_spec {find : Finder} {pending : List Symbol} {s : Symbol}
    (expandable : g.isToken s = false) (ps : List Production) (m : Memo)
    (hps : ∀ p ∈ ps, p ∈ g.productionList ∧ p.lhs = s)
    (finds : ∀ p ∈ ps, ∀ x ∈ p.rhs, ∀ m₁ : Memo, m.first.ExtendsOff s m₁.first →
      FindsFirst g find (s :: pending) x m₁) :
    ∃ m', gatherFirst? find s ps m = some m' ∧ m.first.ExtendsOff s m'.first ∧
      m'.follow = m.follow ∧
      (g.Plain → m.FirstHolds g (s :: pending) → g.CornerOfAll pending s →
        m'.FirstHolds g (s :: pending) ∧ (∀ t ∈ m.firstAt s, t ∈ m'.firstAt s) ∧
          (g.IsLeftRecursionFree → ∀ p ∈ ps, ∀ t, InFirstOf g p.rhs t → t ∈ m'.firstAt s)) := by
  induction ps generalizing m with
  | nil =>
      exact ⟨m, rfl, .refl s _, rfl, fun _ holds _ => ⟨holds, fun _ ht => ht, by simp⟩⟩
  | cons p ps ih =>
      -- one right-hand side goes into the entry, then those of the other productions
      obtain ⟨member, hlhs⟩ := hps p List.mem_cons_self
      obtain ⟨first, m₁, hfirst, kept, follow, spec⟩ :=
        firstOfRhs?_spec p.rhs m fun x hx m₁ hm₁ => finds p List.mem_cons_self x hx m₁ (hm₁.off s)
      -- the entry of `s` is the only one that changes
      have off : m.first.ExtendsOff s (m₁.addFirst s first).first :=
        (kept.off s).trans (OrderedMap.extendsOff_insert _ _ _)
      obtain ⟨m', hrest, off', follow', spec'⟩ := ih (m₁.addFirst s first)
        (fun q hq => hps q (List.mem_cons_of_mem _ hq))
        fun q hq x hx m₂ hm₂ => finds q (List.mem_cons_of_mem _ hq) x hx m₂ (off.trans hm₂)
      refine ⟨m', ?_, off.trans off', follow'.trans follow, ?_⟩
      · rw [gatherFirst?, hfirst]
        exact hrest
      · intro plain holds corner
        have below : g.BeginsBelow (s :: pending) p.rhs :=
          hlhs ▸ Grammar.beginsBelow_rhs (hlhs.symm ▸ corner) member (hlhs.symm ▸ expandable)
        obtain ⟨holds₁, gathered⟩ := spec plain holds below
        have gathered := gathered (plain p member).2.1 (plain p member).2.2
        have sound : ∀ t ∈ first, InFirst g s t := by
          intro t ht
          rcases gathered.sound t ht with ht | ht
          · exact absurd ht (SymbolSet.not_mem_empty t)
          · exact hlhs ▸ .production member (hlhs.symm ▸ expandable) ht
        obtain ⟨holds', grows, complete⟩ := spec' plain
          (firstHolds_addFirst holds₁ List.mem_cons_self sound) corner
        have hentry : (m₁.addFirst s first).firstAt s = m₁.firstAt s ∪ first :=
          Memo.firstAt_eq (by rw [Memo.get?_addFirst, if_pos rfl])
        refine ⟨holds', fun t ht => grows t ?_, fun free q hq t ht => ?_⟩
        · -- the search for the right-hand side left the entry of `s` as it was
          obtain ⟨old, hold, ht⟩ := Memo.exists_of_mem_firstAt ht
          rw [hentry, SymbolSet.mem_union, Memo.firstAt_eq (kept s old hold)]
          exact .inl ht
        · rcases List.mem_cons.1 hq with rfl | hq
          · refine grows t ?_
            rw [hentry, SymbolSet.mem_union]
            exact .inr (gathered.complete free t ht)
          · exact complete free q hq t ht

/-! ## The whole search -/

theorem firstOf?_of_entry {s : Symbol} {m : Memo} {found : SymbolSet} (depth : Nat)
    (h : m.first.get? s = some found) : firstOf? g depth s m = some (found, m) := by
  cases depth with
  | zero => rw [firstOf?, h]
  | succ depth => rw [firstOf?, h]

/-- A search that meets an entry. -/
theorem findsFirst_of_entry {find : Finder} {pending : List Symbol} {s : Symbol} {m : Memo}
    {found : SymbolSet} (entry : m.first.get? s = some found)
    (h : find s m = some (found, m)) : FindsFirst g find pending s m :=
  ⟨found, m, h, ⟨.refl _, rfl, entry⟩, fun _ holds _ => holds⟩

/-- The entry of a token, made in a true memo, is true. -/
theorem firstHolds_addFirst_token {pending : List Symbol} {s : Symbol} {m : Memo}
    (holds : m.FirstHolds g pending) (absent : m.first.get? s = none) (hs : g.isToken s = true) :
    (m.addFirst s (SymbolSet.singleton s)).FirstHolds g pending := by
  have hentry : m.firstAt s = ∅ := by rw [Memo.firstAt, absent, Option.getD_none]
  refine ⟨fun k set hk t ht => ?_, fun free k set hp hk t ht => ?_⟩
  all_goals
    rw [Memo.get?_addFirst] at hk
    by_cases h : s = k
  · rw [if_pos h, Option.some.injEq, hentry] at hk
    subst h hk
    simp only [SymbolSet.mem_union, SymbolSet.not_mem_empty, SymbolSet.mem_singleton,
      false_or] at ht
    rw [ht]
    exact .token hs
  · rw [if_neg h] at hk
    exact holds.sound k set hk t ht
  · rw [if_pos h, Option.some.injEq, hentry] at hk
    subst h hk
    cases ht with
    | token _ => simp
    | production _ expandable _ =>
        -- productions of a token do not count
        rw [expandable] at hs
        exact absurd hs (by simp)
  · rw [if_neg h] at hk
    exact holds.complete free k set hp hk t ht

/-- The search for a token makes its entry. -/
theorem findsFirst_token {pending : List Symbol} {s : Symbol} {m : Memo} (depth : Nat)
    (absent : m.first.get? s = none) (token : g.isToken s = true) :
    FindsFirst g (firstOf? g (depth + 1)) pending s m := by
  have entry : (m.addFirst s (SymbolSet.singleton s)).first.get? s =
      some (m.firstAt s ∪ SymbolSet.singleton s) := by
    rw [Memo.get?_addFirst, if_pos rfl]
  refine ⟨_, m.addFirst s (SymbolSet.singleton s), ?_,
    ⟨OrderedMap.extends_insert _ absent, rfl, entry⟩, fun _ holds _ => ?_⟩
  · rw [firstOf?, absent]
    simp only [token, if_true]
    rw [Memo.firstAt_eq entry]
  · exact firstHolds_addFirst_token holds absent token

/-- The entry with which the search for a symbol begins keeps the memo true. -/
theorem firstHolds_addFirst_empty {pending : List Symbol} {s : Symbol} {m : Memo}
    (holds : m.FirstHolds g pending) : (m.addFirst s ∅).FirstHolds g (s :: pending) := by
  have widened : m.FirstHolds g (s :: pending) := by
    refine ⟨holds.sound, ?_⟩
    intro free k found hp
    exact holds.complete free k found fun hk => hp (List.mem_cons_of_mem _ hk)
  apply firstHolds_addFirst widened List.mem_cons_self
  intro t ht
  exact absurd ht (SymbolSet.not_mem_empty t)

/-- That entry makes room for the searches below. -/
theorem unmet_le_of_addFirst {s : Symbol} {found : SymbolSet} {m m₁ : Memo} {p : Production}
    {depth : Nat} (hdepth : unmet g.symbols m.first ≤ depth + 1) (absent : m.first.get? s = none)
    (hp : p ∈ g.productionsFor s)
    (later : (m.addFirst s found).first.ExtendsOff s m₁.first) :
    unmet g.symbols m₁.first ≤ depth := by
  obtain ⟨member, rfl⟩ := Grammar.mem_productionsFor.1 hp
  have hlt : unmet g.symbols (m.addFirst p.lhs found).first < unmet g.symbols m.first :=
    unmet_insert_lt _ (Grammar.lhs_mem_symbols member) absent
  have hle : unmet g.symbols m₁.first ≤ unmet g.symbols (m.addFirst p.lhs found).first :=
    unmet_le_of_keys fun _ _ => later.keys
  omega

/-- When all right-hand sides of a pending symbol are gathered, it is pending no longer. -/
theorem firstHolds_of_gathered {pending : List Symbol} {s : Symbol} {m : Memo}
    (holds : m.FirstHolds g (s :: pending)) (expandable : g.isToken s = false)
    (complete : g.IsLeftRecursionFree → ∀ p ∈ g.productionsFor s, ∀ t, InFirstOf g p.rhs t →
      t ∈ m.firstAt s) : m.FirstHolds g pending := by
  refine ⟨holds.sound, ?_⟩
  intro free k found hp hk t ht
  rcases Classical.em (k = s) with rfl | hks
  · cases ht with
    | token hk' =>
        rw [expandable] at hk'
        exact absurd hk' (by simp)
    | production member _ h =>
        rw [← Memo.firstAt_eq hk]
        exact complete free _ (Grammar.mem_productionsFor.2 ⟨member, rfl⟩) t h
  · exact holds.complete free k found (by simp [hks, hp]) hk t ht

/-- The search down to a depth finds the First set of a symbol when no more symbols of the grammar
than that are without an entry. -/
theorem findsFirst_firstOf? (g : Grammar) (depth : Nat) (pending : List Symbol) (s : Symbol)
    (m : Memo) (hdepth : unmet g.symbols m.first ≤ depth) (hs : s ∈ g.symbols ∨ 0 < depth) :
    FindsFirst g (firstOf? g depth) pending s m := by
  induction depth generalizing pending s m with
  | zero =>
      cases hentry : m.first.get? s with
      | some found => exact findsFirst_of_entry hentry (firstOf?_of_entry _ hentry)
      | none =>
          -- no symbol of the grammar lacks an entry
          have := unmet_pos (hs.resolve_right (Nat.lt_irrefl 0)) hentry
          omega
  | succ depth ih =>
      cases hentry : m.first.get? s with
      | some found => exact findsFirst_of_entry hentry (firstOf?_of_entry _ hentry)
      | none =>
          by_cases htoken : g.isToken s = true
          · exact findsFirst_token depth hentry htoken
          · have expandable : g.isToken s = false := by simpa using htoken
            have room : ∀ p ∈ g.productionsFor s, ∀ x ∈ p.rhs, ∀ m₁ : Memo,
                (m.addFirst s ∅).first.ExtendsOff s m₁.first →
                FindsFirst g (firstOf? g depth) (s :: pending) x m₁ := by
              intro p hp x hx m₁ hm₁
              have member := (Grammar.mem_productionsFor.1 hp).1
              apply ih (s :: pending) x m₁
              · exact unmet_le_of_addFirst hdepth hentry hp hm₁
              · exact .inl (Grammar.mem_symbols_of_mem_rhs member hx)
            obtain ⟨m', hgather, off, follow, spec⟩ := gatherFirst?_spec expandable
              (g.productionsFor s) (m.addFirst s ∅)
              (fun p hp => Grammar.mem_productionsFor.1 hp) room
            obtain ⟨found, hfound⟩ := off.2 _ (by rw [Memo.get?_addFirst, if_pos rfl])
            have kept : m.first.Extends m'.first :=
              ((OrderedMap.extendsOff_insert m.first s _).trans off).extends hentry
            refine ⟨found, m', ?_, ⟨kept, follow, hfound⟩, ?_⟩
            · rw [firstOf?, hentry]
              simp only [expandable, Bool.false_eq_true, if_false, hgather]
              rw [Memo.firstAt_eq hfound]
            · -- the search is over, so the symbol is pending no longer
              intro plain holds corner
              obtain ⟨holds', -, complete⟩ := spec plain (firstHolds_addFirst_empty holds) corner
              exact firstHolds_of_gathered holds' expandable complete

/-- The search down to the depth of the grammar ends from every memo. -/
theorem findsFirst_depth (g : Grammar) (pending : List Symbol) (s : Symbol) (m : Memo) :
    FindsFirst g (firstOf? g g.depth) pending s m := by
  have hle : unmet g.symbols m.first ≤ g.symbols.length := List.countP_le_length
  refine findsFirst_firstOf? g g.depth pending s m ?_ (.inr ?_)
  all_goals
    rw [Grammar.depth_eq]
    omega

/-- What a query for the First set of a symbol gives and leaves. -/
theorem firstOf_spec (g : Grammar) (s : Symbol) (m : Memo) :
    FirstAnswered s m (firstOf g s m).1 (firstOf g s m).2 ∧
      (g.Plain → m.FirstHolds g [] → (firstOf g s m).2.FirstHolds g []) := by
  obtain ⟨found, m', hfind, answered, keeps⟩ := findsFirst_depth g [] s m
  rw [firstOf, hfind, Option.getD_some]
  exact ⟨answered, fun plain holds => keeps plain holds (g.cornerOfAll_nil s)⟩

/-- What a query for the First set of a sequence gives and leaves. -/
theorem firstOfRhs_spec (g : Grammar) (rhs : List Symbol) (m : Memo) :
    m.first.Extends (firstOfRhs g rhs m).2.first ∧ (firstOfRhs g rhs m).2.follow = m.follow ∧
      (g.Plain → m.FirstHolds g [] →
        (firstOfRhs g rhs m).2.FirstHolds g [] ∧
          (rhs ≠ [] → (Symbol.empty ∈ rhs → rhs = [Symbol.empty]) →
            FirstGathered g rhs ∅ (firstOfRhs g rhs m).1)) := by
  have finds : ∀ x ∈ rhs, ∀ m₁ : Memo, m.first.Extends m₁.first →
      FindsFirst g (firstOf? g g.depth) [] x m₁ := fun x _ m₁ _ => findsFirst_depth g [] x m₁
  obtain ⟨result, m', hfind, kept, follow, spec⟩ := firstOfRhs?_spec rhs m finds
  rw [firstOfRhs, hfind, Option.getD_some]
  exact ⟨kept, follow, fun plain holds => spec plain holds fun _ x _ _ _ _ => g.cornerOfAll_nil x⟩

end Analysis

end Predictive
