import Predictive.Proofs.FollowClosed

/-!
# Histories of queries

What a query for a Follow set finds depends on the queries before it, through the entries that they
left. If each single query to a new analysis leaves a closed memo (`Grammar.QueriesClose`), then every
history of queries does (`Query.followClosed_runAll`).

The proof runs the search for one symbol twice, from a new memo and from a closed one. The two go
along beside each other, in memos that agree beyond the old entries (`AgreeBeyond`). Where the second
search meets an old entry, the first one searches among the symbols of old entries only, and the set
that it finds is complete, since its memo is closed in the end. So it is the set of the old entry.
-/

set_option autoImplicit false

namespace Predictive

open Analysis

variable {g : Grammar}

/-! ## Memos that agree beyond old entries -/

/-- The second memo has the entries of `base`, and for all other symbols what the first memo has. -/
structure AgreeBeyond (base fresh warm : Memo) : Prop where
  kept : base.follow.Extends warm.follow
  same : ∀ y, base.follow.get? y = none → warm.follow.get? y = fresh.follow.get? y

namespace AgreeBeyond

variable {base fresh fresh' warm warm' : Memo} {s : Symbol}

/-- A memo agrees with a new one beyond its own entries. -/
theorem start (base : Memo) : AgreeBeyond base .empty base := by
  refine ⟨.refl _, ?_⟩
  intro y absent
  rw [absent]
  rfl

/-- The entry of one symbol may change in the same way in both memos. -/
theorem of_others (agree : AgreeBeyond base fresh warm) (absent : base.follow.get? s = none)
    (hfresh : ∀ y, y ≠ s → fresh'.follow.get? y = fresh.follow.get? y)
    (hwarm : ∀ y, y ≠ s → warm'.follow.get? y = warm.follow.get? y)
    (hs : warm'.follow.get? s = fresh'.follow.get? s) : AgreeBeyond base fresh' warm' := by
  constructor
  · intro y found hy
    -- the base has an entry for `y` and none for `s`
    have hne : y ≠ s := by
      rintro rfl
      rw [absent] at hy
      exact absurd hy (by simp)
    rw [hwarm y hne]
    exact agree.kept y found hy
  · intro y hy
    by_cases hne : y = s
    · rw [hne]
      exact hs
    · rw [hwarm y hne, hfresh y hne]
      exact agree.same y hy

theorem followAt_eq (agree : AgreeBeyond base fresh warm) (absent : base.follow.get? s = none) :
    warm.followAt s = fresh.followAt s := by
  rw [Memo.followAt, Memo.followAt, agree.same s absent]

theorem addFollow (agree : AgreeBeyond base fresh warm) (absent : base.follow.get? s = none)
    (found : SymbolSet) :
    AgreeBeyond base (fresh.addFollow s found) (warm.addFollow s found) := by
  refine agree.of_others absent (fun y hy => ?_) (fun y hy => ?_) ?_
  · rw [Memo.get?_addFollow, if_neg (Ne.symm hy)]
  · rw [Memo.get?_addFollow, if_neg (Ne.symm hy)]
  · rw [Memo.get?_addFollow, Memo.get?_addFollow, if_pos rfl, if_pos rfl, agree.followAt_eq absent]

end AgreeBeyond

/-- The entries of the memo, but those of pending symbols, are still there in the last memo. -/
def Memo.StaysBut (pending : List Symbol) (m last : Memo) : Prop :=
  ∀ y found, y ∉ pending → m.follow.get? y = some found → last.follow.get? y = some found

theorem FollowGrown.staysBut {pending : List Symbol} {s : Symbol} {m m' last : Memo}
    (grown : FollowGrown s m m') (stays : m'.StaysBut (s :: pending) last) :
    m.StaysBut (s :: pending) last := by
  intro y found hy entry
  have hne : y ≠ s := fun h => hy (h ▸ List.mem_cons_self)
  exact stays y found hy (grown.kept.1 y found hne entry)

/-- The symbols that are needed for old entries have old entries themselves. -/
theorem Memo.FollowHolds.get?_of_needed {m : Memo} (holds : m.FollowHolds g [])
    (free : g.IsLeftRecursionFree) {s y : Symbol} {found : SymbolSet}
    (entry : m.follow.get? s = some found) (needed : Relation.ReflTransGen (NeedsFollow g) s y) :
    ∃ follow, m.follow.get? y = some follow := by
  induction needed with
  | refl => exact ⟨found, entry⟩
  | @tail x y _ hxy ih =>
      obtain ⟨follow, hfollow⟩ := ih
      obtain ⟨found', hfound', -⟩ := holds.needs free x follow (by simp) hfollow y hxy
      exact ⟨found', hfound'⟩

namespace Analysis

/-! ## Searches beside each other -/

/-- Beside the search from the first memo, whose entries stay until the last one, the search from a
memo that agrees with it beyond the old entries finds the same set. -/
def FindsAlike (g : Grammar) (base last : Memo) (find : Finder) (pending : List Symbol) (s : Symbol)
    (fresh : Memo) : Prop :=
  ∀ warm found fresh', AgreeBeyond base fresh warm → fresh.FollowHolds g pending →
    warm.FirstHolds g [] → g.NeededByAll pending s → find s fresh = some (found, fresh') →
    fresh'.StaysBut pending last →
    ∃ warm', find s warm = some (found, warm') ∧ AgreeBeyond base fresh' warm' ∧
      warm'.FirstHolds g []

section Alike

variable {base last fresh fresh' warm : Memo} {findFollow : Finder} {pending : List Symbol}
  {s : Symbol} {p : Production}

/-- What has grown by all that can begin a sequence. -/
theorem RestGathered.mem_followAt (free : g.IsLeftRecursionFree) {rest : List Symbol}
    {vanishes : Bool} {m m' : Memo} (gathered : RestGathered g s rest vanishes m m')
    (grown : FollowGrown s m m') (t : Symbol) :
    t ∈ m'.followAt s ↔ t ∈ m.followAt s ∨ (InFirstOf g rest t ∧ t ≠ Symbol.empty) := by
  constructor
  · exact gathered.sound t
  · rintro (ht | ⟨ht, visible⟩)
    · exact grown.grows t ht
    · exact gathered.complete free t ht visible

theorem RestGathered.vanishes_iff (free : g.IsLeftRecursionFree) {rest : List Symbol}
    {vanishes : Bool} {m m' : Memo} (gathered : RestGathered g s rest vanishes m m') :
    vanishes = true ↔ InFirstOf g rest Symbol.empty :=
  ⟨gathered.vanishing, gathered.vanishes_of free⟩

/-- First sets do not depend on the memo, so what comes after a use is gathered alike. -/
theorem gatherRest?_alike (plain : g.Plain) (free : g.IsLeftRecursionFree)
    (absent : base.follow.get? s = none) (entry : ∃ v, fresh.follow.get? s = some v)
    (agree : AgreeBeyond base fresh warm) (hfresh : fresh.FirstHolds g [])
    (hwarm : warm.FirstHolds g []) {rest : List Symbol} {vanishes : Bool}
    (run : gatherRest? (firstOf? g g.depth) s rest fresh = some (vanishes, fresh')) :
    ∃ warm', gatherRest? (firstOf? g g.depth) s rest warm = some (vanishes, warm') ∧
      AgreeBeyond base fresh' warm' ∧ warm'.FirstHolds g [] := by
  obtain ⟨v, f, hf, grown, others, spec⟩ := gatherRest?_spec g s rest fresh
  obtain ⟨rfl, rfl⟩ := Prod.mk.injEq .. ▸ Option.some.inj (hf.symm.trans run)
  obtain ⟨w, warm', hw, grown', others', spec'⟩ := gatherRest?_spec g s rest warm
  obtain ⟨-, gathered⟩ := spec plain hfresh
  obtain ⟨hwarm', gathered'⟩ := spec' plain hwarm
  -- both tell whether the rest can vanish, and gather its First set
  obtain rfl : v = w := by
    rw [Bool.eq_iff_iff, gathered.vanishes_iff free, gathered'.vanishes_iff free]
  have hsame : warm'.followAt s = f.followAt s := by
    ext t
    rw [gathered.mem_followAt free grown, gathered'.mem_followAt free grown',
      agree.followAt_eq absent]
  refine ⟨warm', hw, agree.of_others absent others others' ?_, hwarm'⟩
  obtain ⟨v₀, entry⟩ := entry
  obtain ⟨v₁, h₁⟩ := grown.kept.2 v₀ entry
  obtain ⟨v₂, h₂⟩ := grown'.kept.2 v₀ (agree.same s absent ▸ entry)
  rw [h₁, h₂, ← Memo.followAt_eq h₁, ← Memo.followAt_eq h₂, hsame]

/-- The uses in one right-hand side are gathered alike if the searches for the left-hand side are. -/
theorem gatherUses?_alike (plain : g.Plain) (free : g.IsLeftRecursionFree)
    (absent : base.follow.get? s = none) (member : p ∈ g.productionList)
    (needed : g.NeededByAll pending s) (rests : List (List Symbol))
    (used : ∀ rest ∈ rests, ∃ before, p.rhs = before ++ s :: rest)
    (entry : ∃ v, fresh.follow.get? s = some v)
    (finds : ∀ m : Memo, fresh.follow.ExtendsOff s m.follow →
      FindsFollow g findFollow (s :: pending) p.lhs m ∧
        FindsAlike g base last findFollow (s :: pending) p.lhs m)
    (agree : AgreeBeyond base fresh warm) (holds : fresh.FollowHolds g (s :: pending))
    (hwarm : warm.FirstHolds g [])
    (run : gatherUses? (firstOf? g g.depth) findFollow s p.lhs rests fresh = some fresh')
    (stays : fresh'.StaysBut (s :: pending) last) :
    ∃ warm', gatherUses? (firstOf? g g.depth) findFollow s p.lhs rests warm = some warm' ∧
      AgreeBeyond base fresh' warm' ∧ warm'.FirstHolds g [] := by
  induction rests generalizing fresh warm with
  | nil =>
      obtain rfl : fresh = fresh' := Option.some.inj run
      exact ⟨warm, rfl, agree, hwarm⟩
  | cons rest rests ih =>
      have hrests : ∀ r ∈ rests, ∃ before, p.rhs = before ++ s :: r := fun r hr =>
        used r (List.mem_cons_of_mem _ hr)
      obtain ⟨before, hrest⟩ := used rest List.mem_cons_self
      obtain ⟨vanishes, m₁, hgather, grown₁, others, spec⟩ := gatherRest?_spec g s rest fresh
      obtain ⟨first₁, gathered⟩ := spec plain holds.first
      have holds₁ := gathered.followHolds member hrest grown₁ others first₁ holds
      obtain ⟨warm₁, hgather', agree₁, hwarm₁⟩ :=
        gatherRest?_alike plain free absent entry agree holds.first hwarm hgather
      by_cases hend : vanishes = false ∨ p.lhs = s
      · -- neither gathering takes another Follow set in
        rw [gatherUses?_skip hgather hend] at run
        rw [gatherUses?_skip hgather' hend]
        exact ih hrests (entry.elim fun _ => grown₁.kept.2 _)
          (fun m hm => finds m (grown₁.kept.trans hm)) agree₁ holds₁ hwarm₁ run
      · -- both take that of the left-hand side in, which the searches find alike
        obtain ⟨hvanishes, hl⟩ := not_or.1 hend
        obtain rfl : vanishes = true := by simpa using hvanishes
        obtain ⟨⟨follow, m₂, hfind, answered, keeps⟩, alike⟩ := finds m₁ grown₁.kept
        rw [gatherUses?_flow hgather hl hfind] at run
        have needs : NeedsFollow g s p.lhs :=
          ⟨hl, p, member, rfl, before, rest, hrest, gathered.vanishing rfl⟩
        have grown₂ : FollowGrown s fresh (m₂.addFollow s follow) :=
          (grown₁.trans (.of_extends answered.first answered.kept)).trans (.addFollow m₂ s follow)
        have entry₂ : ∃ v, (m₂.addFollow s follow).follow.get? s = some v :=
          entry.elim fun _ => grown₂.kept.2 _
        have finds₂ : ∀ m : Memo, (m₂.addFollow s follow).follow.ExtendsOff s m.follow →
            FindsFollow g findFollow (s :: pending) p.lhs m ∧
              FindsAlike g base last findFollow (s :: pending) p.lhs m := fun m hm =>
          finds m (grown₂.kept.trans hm)
        obtain ⟨holds₂, -⟩ := gathers_flow member ⟨before, hrest⟩ hl entry grown₁ others spec
          answered keeps plain holds needed
        -- what the search has found stays, since the rest of the gathering changes the entry of `s` only
        obtain ⟨m', hmore, grown', -⟩ := gatherUses?_spec member rests (m₂.addFollow s follow) hrests
          entry₂ fun m hm => (finds₂ m hm).1
        obtain rfl : m' = fresh' := Option.some.inj (hmore.symm.trans run)
        obtain ⟨warm₂, hfind', agree₂, hwarm₂⟩ := alike warm₁ follow m₂ agree₁ holds₁ hwarm₁
          (needed.cons needs) hfind (((FollowGrown.addFollow m₂ s follow).trans grown').staysBut stays)
        rw [gatherUses?_flow hgather' hl hfind']
        exact ih hrests entry₂ finds₂ (agree₂.addFollow absent follow) holds₂
          (Memo.firstHolds_of_first_eq hwarm₂ rfl) run

/-- The uses in productions are gathered alike if the searches for their left-hand sides are. -/
theorem gatherFollow?_alike (plain : g.Plain) (free : g.IsLeftRecursionFree)
    (absent : base.follow.get? s = none) (needed : g.NeededByAll pending s) (ps : List Production)
    (members : ∀ p ∈ ps, p ∈ g.productionList) (entry : ∃ v, fresh.follow.get? s = some v)
    (finds : ∀ p ∈ ps, ∀ m : Memo, fresh.follow.ExtendsOff s m.follow →
      FindsFollow g findFollow (s :: pending) p.lhs m ∧
        FindsAlike g base last findFollow (s :: pending) p.lhs m)
    (agree : AgreeBeyond base fresh warm) (holds : fresh.FollowHolds g (s :: pending))
    (hwarm : warm.FirstHolds g [])
    (run : gatherFollow? (firstOf? g g.depth) findFollow s ps fresh = some fresh')
    (stays : fresh'.StaysBut (s :: pending) last) :
    ∃ warm', gatherFollow? (firstOf? g g.depth) findFollow s ps warm = some warm' ∧
      AgreeBeyond base fresh' warm' ∧ warm'.FirstHolds g [] := by
  induction ps generalizing fresh warm with
  | nil =>
      obtain rfl : fresh = fresh' := Option.some.inj run
      exact ⟨warm, rfl, agree, hwarm⟩
  | cons p ps ih =>
      have member := members p List.mem_cons_self
      have hps : ∀ q ∈ ps, q ∈ g.productionList := fun q hq => members q (List.mem_cons_of_mem _ hq)
      obtain ⟨m₁, huses, grown₁, gathers₁⟩ := gatherUses?_spec member (restsAfter s p.rhs) fresh
        (fun _ => mem_restsAfter.1) entry fun m hm => (finds p List.mem_cons_self m hm).1
      have entry₁ : ∃ v, m₁.follow.get? s = some v := entry.elim fun _ => grown₁.kept.2 _
      have finds₁ : ∀ q ∈ ps, ∀ m : Memo, m₁.follow.ExtendsOff s m.follow →
          FindsFollow g findFollow (s :: pending) q.lhs m ∧
            FindsAlike g base last findFollow (s :: pending) q.lhs m := fun q hq m hm =>
        finds q (List.mem_cons_of_mem _ hq) m (grown₁.kept.trans hm)
      -- the later productions only add, so what stays to the end stays up to here
      rw [gatherFollow?, huses] at run
      obtain ⟨m', hmore, grown', -⟩ := gatherFollow?_spec ps m₁ hps entry₁
        fun q hq m hm => (finds₁ q hq m hm).1
      obtain rfl : m' = fresh' := Option.some.inj (hmore.symm.trans run)
      obtain ⟨warm₁, huses', agree₁, hwarm₁⟩ := gatherUses?_alike plain free absent member needed
        (restsAfter s p.rhs) (fun _ => mem_restsAfter.1) entry (finds p List.mem_cons_self) agree
        holds hwarm huses (grown'.staysBut stays)
      rw [gatherFollow?, huses']
      exact ih hps entry₁ finds₁ agree₁ (gathers₁ plain holds needed).1 hwarm₁ run

end Alike

/-! ## The whole search -/

variable {base last : Memo}

/-- Where the second search meets an old entry, the first one passes symbols of old entries only, and
finds what the old entry holds, if that stays and is complete in the end. -/
theorem findsAlike_of_entry (plain : g.Plain) (free : g.IsLeftRecursionFree)
    (holds : base.FollowHolds g []) (complete : base.FollowComplete g)
    (hlast : last.FollowComplete g) {find : Finder} {pending : List Symbol} {s : Symbol}
    {fresh : Memo} {old : SymbolSet} (entry : base.follow.get? s = some old)
    (outside : ∀ y ∈ pending, base.follow.get? y = none)
    (finds : FindsFollow g find pending s fresh)
    (meets : ∀ m : Memo, m.follow.get? s = some old → find s m = some (old, m)) :
    FindsAlike g base last find pending s fresh := by
  intro warm found fresh' agree hfresh hwarm needed run stays
  obtain ⟨found', m', hfind, answered, keeps⟩ := finds
  obtain ⟨rfl, rfl⟩ := Prod.mk.injEq .. ▸ Option.some.inj (hfind.symm.trans run)
  have harvested := (keeps plain hfresh needed).2 free
  -- the search is over, so its entry stays until the last memo, which is complete
  have hpending : s ∉ pending := by
    intro h
    rw [outside s h] at entry
    exact absurd entry (by simp)
  have hsame : old = found' := by
    ext t
    rw [complete s old entry t, hlast s found' (stays s found' hpending answered.entry) t]
  refine ⟨warm, hsame ▸ meets warm (agree.kept s old entry), ⟨agree.kept, fun y hy => ?_⟩, hwarm⟩
  rw [agree.same y hy]
  cases before : fresh.follow.get? y with
  | some v => exact (answered.kept y v before).symm
  | none =>
      cases after : m'.follow.get? y with
      | none => rfl
      | some v =>
          -- a symbol with a new entry is needed for `s`, so it has an old entry as well
          obtain ⟨follow, hfollow⟩ :=
            holds.get?_of_needed free entry (harvested y v before after).reached
          rw [hy] at hfollow
          exact absurd hfollow (by simp)

/-- Both searches meet the same entry of a symbol without an old one. -/
theorem findsAlike_of_fresh {pending : List Symbol} {s : Symbol} {fresh : Memo} {entry : SymbolSet}
    (depth : Nat) (absent : base.follow.get? s = none) (hentry : fresh.follow.get? s = some entry) :
    FindsAlike g base last (followOf? g depth) pending s fresh := by
  intro warm found fresh' agree _ hwarm _ run _
  rw [followOf?_of_entry depth hentry, Option.some.injEq, Prod.mk.injEq] at run
  obtain ⟨rfl, rfl⟩ := run
  have hentry' : warm.follow.get? s = some entry := (agree.same s absent).trans hentry
  exact ⟨warm, followOf?_of_entry depth hentry', agree, hwarm⟩

/-- Both searches make an entry for a symbol without any, and gather what its uses give. -/
theorem findsAlike_of_absent (plain : g.Plain) (free : g.IsLeftRecursionFree)
    {pending : List Symbol} {s : Symbol} {fresh : Memo} {depth : Nat}
    (absent : base.follow.get? s = none) (hentry : fresh.follow.get? s = none)
    (finds : ∀ p ∈ g.productionsWith s, ∀ m : Memo,
      (fresh.addFollow s (initialFollow g s)).follow.ExtendsOff s m.follow →
      FindsFollow g (followOf? g depth) (s :: pending) p.lhs m ∧
        FindsAlike g base last (followOf? g depth) (s :: pending) p.lhs m) :
    FindsAlike g base last (followOf? g (depth + 1)) pending s fresh := by
  intro warm found fresh' agree hfresh hwarm needed run stays
  have hentry' : warm.follow.get? s = none := (agree.same s absent).trans hentry
  rw [followOf?, hentry] at run
  cases hgather : gatherFollow? (firstOf? g g.depth) (followOf? g depth) s
      (g.productionsWith s) (fresh.addFollow s (initialFollow g s)) with
  | none =>
      simp only [hgather] at run
      exact absurd run (by simp)
  | some m' =>
      simp only [hgather, Option.some.injEq, Prod.mk.injEq] at run
      obtain ⟨rfl, rfl⟩ := run
      -- the set of `s` is under way, so it is not asked to stay
      have staysBut : m'.StaysBut (s :: pending) last := by
        intro y found hy entry
        exact stays y found (fun h => hy (List.mem_cons_of_mem _ h)) entry
      obtain ⟨warm', hgather', agree', hwarm'⟩ := gatherFollow?_alike plain free absent needed
        (g.productionsWith s) (fun p hp => (Grammar.mem_productionsWith.1 hp).1)
        ⟨_, by rw [Memo.get?_addFollow, if_pos rfl]⟩ finds
        (agree.addFollow absent (initialFollow g s)) (followHolds_addFollow_initial hfresh hentry)
        (Memo.firstHolds_of_first_eq hwarm rfl) hgather staysBut
      refine ⟨warm', ?_, agree', hwarm'⟩
      rw [followOf?, hentry']
      simp only [hgather']
      rw [agree'.followAt_eq absent]

/-- Searches down to a depth go along beside each other if the depth is enough for the first one. -/
theorem findsAlike_followOf? (plain : g.Plain) (free : g.IsLeftRecursionFree)
    (holds : base.FollowHolds g []) (complete : base.FollowComplete g)
    (hlast : last.FollowComplete g) (depth : Nat) (pending : List Symbol) (s : Symbol)
    (fresh : Memo) (hdepth : unmet g.symbols fresh.follow ≤ depth) (hs : s ∈ g.symbols ∨ 0 < depth)
    (outside : ∀ y ∈ pending, base.follow.get? y = none) :
    FindsAlike g base last (followOf? g depth) pending s fresh := by
  induction depth generalizing pending s fresh with
  | zero =>
      cases hbase : base.follow.get? s with
      | some old =>
          exact findsAlike_of_entry plain free holds complete hlast hbase outside
            (findsFollow_followOf? g 0 pending s fresh hdepth hs)
            fun _ entry => followOf?_of_entry 0 entry
      | none =>
          cases hentry : fresh.follow.get? s with
          | some found => exact findsAlike_of_fresh 0 hbase hentry
          | none =>
              have := unmet_pos (hs.resolve_right (Nat.lt_irrefl 0)) hentry
              omega
  | succ depth ih =>
      cases hbase : base.follow.get? s with
      | some old =>
          exact findsAlike_of_entry plain free holds complete hlast hbase outside
            (findsFollow_followOf? g (depth + 1) pending s fresh hdepth hs)
            fun _ entry => followOf?_of_entry _ entry
      | none =>
          cases hentry : fresh.follow.get? s with
          | some found => exact findsAlike_of_fresh _ hbase hentry
          | none =>
              -- neither memo has an entry, so both searches go into the productions
              apply findsAlike_of_absent plain free hbase hentry
              intro p hp m hm
              have member := (Grammar.mem_productionsWith.1 hp).1
              have room := unmet_le_of_addFollow hdepth hentry hp hm
              have known : p.lhs ∈ g.symbols ∨ 0 < depth := .inl (Grammar.lhs_mem_symbols member)
              have outside' : ∀ y ∈ s :: pending, base.follow.get? y = none := by
                intro y hy
                rcases List.mem_cons.1 hy with rfl | hy
                · exact hbase
                · exact outside y hy
              exact ⟨findsFollow_followOf? g depth (s :: pending) p.lhs m room known,
                ih (s :: pending) p.lhs m room known outside'⟩

/-- A search from a closed memo leaves a closed memo, if the search for the symbol from a new one
does. -/
theorem followClosed_followOf (plain : g.Plain) (free : g.IsLeftRecursionFree) {m : Memo}
    (holds : m.FollowHolds g []) (closed : m.FollowClosed g) (s : Symbol)
    (single : (followOf g s .empty).2.FollowClosed g) : (followOf g s m).2.FollowClosed g := by
  have holds₀ := (followOf_advances g s .empty).holds plain (Memo.followHolds_empty g)
  have complete := holds.followComplete free closed
  have complete₀ := holds₀.followComplete free single
  have hle : unmet g.symbols Memo.empty.follow ≤ g.symbols.length := List.countP_le_length
  have hdepth := g.depth_eq
  obtain ⟨found, fresh, hfind, -⟩ := findsFollow_followOf? g g.depth [] s .empty (by omega)
    (.inr (by omega))
  have hfresh : followOf g s .empty = (found, fresh) := by
    rw [followOf, hfind, Option.getD_some]
  rw [hfresh] at complete₀
  obtain ⟨warm, hwarm, agree, -⟩ := findsAlike_followOf? plain free holds complete complete₀ g.depth
    [] s .empty (by omega) (.inr (by omega)) (by simp) m found fresh (.start m)
    (Memo.followHolds_empty g) holds.first (g.neededByAll_nil s) hfind fun _ _ _ => id
  have hresult : followOf g s m = (found, warm) := by
    rw [followOf, hwarm, Option.getD_some]
  rw [hresult]
  -- each entry is an old one or one that the search from the new memo has made
  have complete' : warm.FollowComplete g := by
    intro y follow entry
    cases hy : m.follow.get? y with
    | some old =>
        rw [Option.some.inj (entry.symm.trans (agree.kept y old hy))]
        exact complete y old hy
    | none => exact complete₀ y follow ((agree.same y hy).symm.trans entry)
  exact complete'.closed

end Analysis

/-! ## All queries -/

/-- Each query for one Follow set leaves the memo of a new analysis closed. -/
def Grammar.QueriesClose (g : Grammar) : Prop := ∀ s, (followOf g s .empty).2.FollowClosed g

/-- The memo is true and closed. -/
structure Memo.Settled (g : Grammar) (m : Memo) : Prop where
  holds : m.FollowHolds g []
  closed : m.FollowClosed g

theorem Memo.settled_empty (g : Grammar) : Memo.empty.Settled g where
  holds := Memo.followHolds_empty g
  closed _ _ _ h := absurd h (by simp [empty, OrderedMap.contains])

/-- Other First sets keep a memo closed. -/
theorem Memo.FollowClosed.of_follow_eq {m m' : Memo} (closed : m.FollowClosed g)
    (e : m'.follow = m.follow) : m'.FollowClosed g := by
  intro s l hl hs t ht
  rw [Memo.followAt, e] at ht ⊢
  rw [e] at hs
  exact closed s l hl hs t ht

/-- A search for the First set of a sequence keeps a memo settled. -/
theorem Memo.Settled.firstOfRhs {m : Memo} (settled : m.Settled g) (plain : g.Plain)
    (rhs : List Symbol) : (firstOfRhs g rhs m).2.Settled g where
  holds := (firstOfRhs_advances g rhs m).holds plain settled.holds
  closed := settled.closed.of_follow_eq (firstOfRhs_spec g rhs m).2.1

/-- If single queries leave closed memos, each search keeps a memo settled. -/
theorem Grammar.QueriesClose.keptBySearches (closes : g.QueriesClose) (plain : g.Plain)
    (free : g.IsLeftRecursionFree) : KeptBySearches g (Memo.Settled g) where
  firstOf s m h := ⟨(firstOf_advances g s m).holds plain h.holds,
    h.closed.of_follow_eq (firstOf_spec g s m).1.follow⟩
  firstOfRhs rhs _ h := h.firstOfRhs plain rhs
  followOf s m h := ⟨(followOf_advances g s m).holds plain h.holds,
    followClosed_followOf plain free h.holds h.closed s (closes s)⟩

/-- Then the memo is closed after any queries to a new analysis. -/
theorem Query.followClosed_runAll (closes : g.QueriesClose) (plain : g.Plain)
    (free : g.IsLeftRecursionFree) (queries : List Query) :
    (Query.runAll g queries .empty).FollowClosed g :=
  ((closes.keptBySearches plain free).runAll queries (Memo.settled_empty g)).closed

/-- A symbol that no right-hand side uses needs no other one, so only queries for symbols that are used
count. -/
theorem Grammar.queriesClose_of_used (plain : g.Plain) (free : g.IsLeftRecursionFree)
    (h : ∀ p ∈ g.productionList, ∀ s ∈ p.rhs, (followOf g s .empty).2.FollowClosed g) :
    g.QueriesClose := by
  intro s
  by_cases used : ∃ p ∈ g.productionList, s ∈ p.rhs
  · obtain ⟨p, member, hs⟩ := used
    exact h p member s hs
  · -- a symbol that no right-hand side uses needs nobody, so its search opens no other one
    have needsNone : ∀ l, ¬ NeedsFollow g s l := by
      rintro l ⟨-, p, member, -, before, after, hrhs, -⟩
      refine used ⟨p, member, ?_⟩
      rw [hrhs]
      exact List.mem_append_right _ List.mem_cons_self
    have harvested := ((followOf_spec g s .empty).2 plain (Memo.followHolds_empty g)).2 free
    intro y l hl hy
    obtain ⟨found, entry⟩ := OrderedMap.contains_iff.1 hy
    rcases Relation.ReflTransGen.cases_head (harvested y found rfl entry).reached with
      rfl | ⟨x, hx, -⟩
    · exact absurd hl (needsNone l)
    · exact absurd hx (needsNone x)

/-- Single queries leave closed memos if no symbol needs itself over others. -/
theorem Grammar.queriesClose_of_acyclic (plain : g.Plain) (free : g.IsLeftRecursionFree)
    (acyclic : ∀ s, ¬ Relation.TransGen (NeedsFollow g) s s) : g.QueriesClose := fun s =>
  followClosed_of_acyclic ((followOf_advances g s .empty).holds plain (Memo.followHolds_empty g))
    free acyclic

end Predictive
