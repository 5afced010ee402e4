import Predictive.Analysis.Predict
import Predictive.Proofs.FirstSearch

/-!
# The search for Follow sets

The rules for Follow sets say what a symbol has of its own (`OwnFollow`), and whose Follow set is to
flow into its own (`NeedsFollow`). `FindsFollow` says what the search for the Follow set of one symbol
does: it ends, it leaves the entries that were there before as they are, and it keeps the memo true
(`Memo.FollowHolds`). In a true memo every entry whose search is over holds what the symbol has of its
own, and for each symbol that it needs, an entry that flowed into it, unless that symbol needs it in
turn: the search may have read an entry then that was not complete yet.

A search gathers what all entries that it makes have of their own, and what they need of the older
ones, in the entry of the symbol it was made for (`Harvested`).
-/

set_option autoImplicit false

namespace Predictive

variable {g : Grammar}

/-! ## The rules as a flow -/

/-- What the Follow set of a symbol holds by the rules that do not read Follow sets. -/
inductive OwnFollow (g : Grammar) : Symbol → Symbol → Prop
  | start : OwnFollow g g.start Symbol.endMarker
  | next {p : Production} {s t : Symbol} {before after : List Symbol}
      (member : p ∈ g.productionList) (used : p.rhs = before ++ s :: after)
      (h : InFirstOf g after t) (visible : t ≠ Symbol.empty) : OwnFollow g s t

/-- A production of another symbol `l` uses `s`, and all that comes after it can vanish: the Follow set
of `l` flows into that of `s`. -/
def NeedsFollow (g : Grammar) (s l : Symbol) : Prop :=
  l ≠ s ∧ ∃ p ∈ g.productionList, p.lhs = l ∧
    ∃ before after, p.rhs = before ++ s :: after ∧ InFirstOf g after Symbol.empty

theorem NeedsFollow.inFollow {s l t : Symbol} (h : NeedsFollow g s l) (ht : InFollow g l t) :
    InFollow g s t := by
  obtain ⟨-, p, member, rfl, before, after, used, vanishes⟩ := h
  exact .last member used vanishes ht

/-- Follow sets are what the symbols have of their own, carried along by the flow. -/
theorem follow_induction {P : Symbol → Symbol → Prop} (own : ∀ s t, OwnFollow g s t → P s t)
    (flow : ∀ s l t, NeedsFollow g s l → InFollow g l t → P l t → P s t) {s t : Symbol}
    (h : InFollow g s t) : P s t := by
  induction h with
  | start => exact own _ _ .start
  | next member used h visible => exact own _ _ (.next member used h visible)
  | @last p s t before after member used vanishes h ih =>
      by_cases hl : p.lhs = s
      · exact hl ▸ ih
      · exact flow s p.lhs t ⟨hl, p, member, rfl, before, after, used, vanishes⟩ h ih

/-! ## True memos -/

/-- The entries hold members of the least sets only. Without left recursion, each entry but those of
pending symbols holds what the symbol has of its own; and the symbols that it needs have entries,
which flowed into it or belong to symbols that need the symbol in turn. -/
structure Memo.FollowHolds (g : Grammar) (pending : List Symbol) (m : Memo) : Prop where
  first : m.FirstHolds g []
  sound : ∀ s found, m.follow.get? s = some found → ∀ t ∈ found, InFollow g s t
  own : g.IsLeftRecursionFree → ∀ s found, s ∉ pending → m.follow.get? s = some found →
    ∀ t, OwnFollow g s t → t ∈ found
  needs : g.IsLeftRecursionFree → ∀ s found, s ∉ pending → m.follow.get? s = some found →
    ∀ l, NeedsFollow g s l → ∃ follow, m.follow.get? l = some follow ∧
      (Relation.ReflTransGen (NeedsFollow g) l s ∨ (l ∉ pending ∧ ∀ t ∈ follow, t ∈ found))

theorem Memo.followHolds_empty (g : Grammar) : Memo.empty.FollowHolds g [] where
  first := ⟨fun _ _ h => absurd h (by simp [empty]), fun _ _ _ _ h => absurd h (by simp [empty])⟩
  sound _ _ h := absurd h (by simp [empty])
  own _ _ _ _ h := absurd h (by simp [empty])
  needs _ _ _ _ h := absurd h (by simp [empty])

theorem Memo.followAt_addFollow (m : Memo) (s : Symbol) (found : SymbolSet) :
    (m.addFollow s found).followAt s = m.followAt s ∪ found :=
  followAt_eq (by rw [get?_addFollow, if_pos rfl])

/-- What a search under way for the Follow set of `s` leaves of a memo: all entries, but that of `s`
may have grown. -/
structure FollowGrown (s : Symbol) (m m' : Memo) : Prop where
  first : m.first.Extends m'.first
  kept : m.follow.ExtendsOff s m'.follow
  grows : ∀ t ∈ m.followAt s, t ∈ m'.followAt s

namespace FollowGrown

variable {s : Symbol} {m m₁ m' : Memo}

theorem refl (s : Symbol) (m : Memo) : FollowGrown s m m := ⟨.refl _, .refl s _, fun _ ht => ht⟩

theorem trans (h : FollowGrown s m m₁) (k : FollowGrown s m₁ m') : FollowGrown s m m' :=
  ⟨h.first.trans k.first, h.kept.trans k.kept, fun t ht => k.grows t (h.grows t ht)⟩

theorem addFollow (m : Memo) (s : Symbol) (found : SymbolSet) :
    FollowGrown s m (m.addFollow s found) where
  first := .refl _
  kept := OrderedMap.extendsOff_insert _ _ _
  grows t ht := by
    rw [Memo.followAt_addFollow, SymbolSet.mem_union]
    exact .inl ht

theorem of_extends (first : m.first.Extends m'.first) (kept : m.follow.Extends m'.follow) :
    FollowGrown s m m' where
  first := first
  kept := kept.off s
  grows t ht := by
    obtain ⟨found, hfound, ht⟩ := Memo.exists_of_mem_followAt ht
    rw [Memo.followAt_eq (kept s found hfound)]
    exact ht

end FollowGrown

/-- A memo in which only the entry of a pending symbol has grown is as true. -/
theorem Memo.FollowHolds.of_others {pending : List Symbol} {s : Symbol} {m m' : Memo}
    (holds : m.FollowHolds g pending) (hs : s ∈ pending) (grown : FollowGrown s m m')
    (others : ∀ y, y ≠ s → m'.follow.get? y = m.follow.get? y) (first : m'.FirstHolds g [])
    (sound : ∀ t ∈ m'.followAt s, InFollow g s t) : m'.FollowHolds g pending := by
  have ne : ∀ {k : Symbol}, k ∉ pending → k ≠ s := fun hk h => hk (h ▸ hs)
  refine ⟨first, ?_, ?_, ?_⟩
  · intro k found hk t ht
    by_cases h : k = s
    · subst h
      exact sound t (followAt_eq hk ▸ ht)
    · exact holds.sound k found (others k h ▸ hk) t ht
  · intro free k found hp hk
    exact holds.own free k found hp (others k (ne hp) ▸ hk)
  · intro free k found hp hk l hl
    obtain ⟨follow, hfollow, flow⟩ := holds.needs free k found hp (others k (ne hp) ▸ hk) l hl
    -- a symbol on a cycle has an entry still, and any other one is not under way, so its set is the same
    rcases flow with back | ⟨hlp, flow⟩
    · obtain ⟨follow', hfollow'⟩ := grown.kept.keys hfollow
      exact ⟨follow', hfollow', .inl back⟩
    · exact ⟨follow, (others l (ne hlp)).trans hfollow, .inr ⟨hlp, flow⟩⟩

/-- Other First sets keep the Follow sets true. -/
theorem Memo.FollowHolds.of_follow_eq {pending : List Symbol} {m m' : Memo}
    (holds : m.FollowHolds g pending) (first : m'.FirstHolds g [])
    (e : m'.follow = m.follow) : m'.FollowHolds g pending := by
  refine ⟨first, ?_, ?_, ?_⟩
  · rw [e]
    exact holds.sound
  · rw [e]
    exact holds.own
  · rw [e]
    exact holds.needs

/-! ## What comes after one use -/

namespace Analysis

theorem mem_restsAfter {s : Symbol} {rhs rest : List Symbol} :
    rest ∈ restsAfter s rhs ↔ ∃ before, rhs = before ++ s :: rest := by
  induction rhs with
  | nil => simp [restsAfter]
  | cons x xs ih =>
      have split : (∃ before, x :: xs = before ++ s :: rest) ↔
          (x = s ∧ rest = xs) ∨ ∃ before, xs = before ++ s :: rest := by
        constructor
        · rintro ⟨before, h⟩
          cases before with
          | nil =>
              obtain ⟨rfl, rfl⟩ := List.cons.inj h
              exact .inl ⟨rfl, rfl⟩
          | cons y before => exact .inr ⟨before, (List.cons.inj h).2⟩
        · rintro (⟨rfl, rfl⟩ | ⟨before, rfl⟩)
          · exact ⟨[], rfl⟩
          · exact ⟨x :: before, rfl⟩
      rw [split, ← ih, restsAfter]
      by_cases hx : x = s
      · simp [hx]
      · simp [hx]

/-- The entry of `s` has grown by the First set of what comes after it. -/
structure RestGathered (g : Grammar) (s : Symbol) (rest : List Symbol) (vanishes : Bool)
    (m m' : Memo) : Prop where
  sound : ∀ t ∈ m'.followAt s, t ∈ m.followAt s ∨ (InFirstOf g rest t ∧ t ≠ Symbol.empty)
  vanishing : vanishes = true → InFirstOf g rest Symbol.empty
  complete : g.IsLeftRecursionFree → ∀ t, InFirstOf g rest t → t ≠ Symbol.empty →
    t ∈ m'.followAt s
  vanishes_of : g.IsLeftRecursionFree → InFirstOf g rest Symbol.empty → vanishes = true

theorem RestGathered.empty_cons {s : Symbol} {rest : List Symbol} {vanishes : Bool} {m m' : Memo}
    (h : RestGathered g s rest vanishes m m') :
    RestGathered g s (Symbol.empty :: rest) vanishes m m' := by
  obtain ⟨sound, vanishing, complete, vanishes_of⟩ := h
  have skip : ∀ t, InFirstOf g (Symbol.empty :: rest) t ↔ InFirstOf g rest t := fun _ =>
    inFirstOf_empty_cons
  simp only [← skip] at sound vanishing complete vanishes_of
  exact ⟨sound, vanishing, complete, vanishes_of⟩

theorem restGathered_of_not_mem {s x : Symbol} {rest : List Symbol} {first : SymbolSet}
    {m m₁ : Memo} (proper : x ≠ Symbol.empty) (follow : m₁.follow = m.follow)
    (sound : ∀ t ∈ first, InFirst g x t)
    (complete : g.IsLeftRecursionFree → ∀ t, InFirst g x t → t ∈ first)
    (hempty : Symbol.empty ∉ first) :
    RestGathered g s (x :: rest) false m (m₁.addFollow s (first.erase Symbol.empty)) where
  sound t ht := by
    rw [Memo.followAt_addFollow, SymbolSet.mem_union, Memo.followAt, follow] at ht
    rcases ht with ht | ht
    · exact .inl ht
    · obtain ⟨ht, visible⟩ := SymbolSet.mem_erase.1 ht
      exact .inr ⟨.head proper (sound t ht) visible, visible⟩
  vanishing h := absurd h (by simp)
  complete free t ht visible := by
    rw [Memo.followAt_addFollow, SymbolSet.mem_union, SymbolSet.mem_erase]
    rcases (inFirstOf_cons_of_ne proper).1 ht with ⟨ht, -⟩ | ⟨vanishes, -⟩
    · exact .inr ⟨complete free t ht, visible⟩
    · exact absurd (complete free _ vanishes) hempty
  vanishes_of free h := by
    rcases (inFirstOf_cons_of_ne proper).1 h with ⟨-, visible⟩ | ⟨vanishes, -⟩
    · exact absurd rfl visible
    · exact absurd (complete free _ vanishes) hempty

theorem RestGathered.cons {s x : Symbol} {rest : List Symbol} {first : SymbolSet}
    {vanishes : Bool} {m m₁ m' : Memo} (proper : x ≠ Symbol.empty)
    (follow : m₁.follow = m.follow) (sound : ∀ t ∈ first, InFirst g x t)
    (complete : g.IsLeftRecursionFree → ∀ t, InFirst g x t → t ∈ first)
    (hempty : Symbol.empty ∈ first)
    (grown : FollowGrown s (m₁.addFollow s (first.erase Symbol.empty)) m')
    (h : RestGathered g s rest vanishes (m₁.addFollow s (first.erase Symbol.empty)) m') :
    RestGathered g s (x :: rest) vanishes m m' where
  sound t ht := by
    rcases h.sound t ht with ht | ⟨ht, visible⟩
    · rw [Memo.followAt_addFollow, SymbolSet.mem_union, Memo.followAt, follow] at ht
      rcases ht with ht | ht
      · exact .inl ht
      · obtain ⟨ht, visible⟩ := SymbolSet.mem_erase.1 ht
        exact .inr ⟨.head proper (sound t ht) visible, visible⟩
    · exact .inr ⟨.tail proper (sound _ hempty) ht, visible⟩
  vanishing hv := .tail proper (sound _ hempty) (h.vanishing hv)
  complete free t ht visible := by
    -- what the symbol itself begins with was added before the rest was gone through
    rcases (inFirstOf_cons_of_ne proper).1 ht with ⟨ht, -⟩ | ⟨-, ht⟩
    · refine grown.grows t ?_
      rw [Memo.followAt_addFollow, SymbolSet.mem_union, SymbolSet.mem_erase]
      exact .inr ⟨complete free t ht, visible⟩
    · exact h.complete free t ht visible
  vanishes_of free ht := by
    rcases (inFirstOf_cons_of_ne proper).1 ht with ⟨-, visible⟩ | ⟨-, ht⟩
    · exact absurd rfl visible
    · exact h.vanishes_of free ht

/-- The memo stays true when the entry of `s` grows by what comes after one of its uses. -/
theorem RestGathered.followHolds {pending : List Symbol} {p : Production} {s : Symbol}
    {before rest : List Symbol} {vanishes : Bool} {m m' : Memo}
    (gathered : RestGathered g s rest vanishes m m') (member : p ∈ g.productionList)
    (used : p.rhs = before ++ s :: rest) (grown : FollowGrown s m m')
    (others : ∀ y, y ≠ s → m'.follow.get? y = m.follow.get? y) (first : m'.FirstHolds g [])
    (holds : m.FollowHolds g (s :: pending)) : m'.FollowHolds g (s :: pending) := by
  refine holds.of_others List.mem_cons_self grown others first fun t ht => ?_
  rcases gathered.sound t ht with ht | ⟨ht, visible⟩
  · obtain ⟨found, hfound, ht⟩ := Memo.exists_of_mem_followAt ht
    exact holds.sound s found hfound t ht
  · exact .next member used ht visible

/-- Gathering what can begin the sequence after one use of `s`. -/
theorem gatherRest?_spec (g : Grammar) (s : Symbol) (rest : List Symbol) (m : Memo) :
    ∃ vanishes m', gatherRest? (firstOf? g g.depth) s rest m = some (vanishes, m') ∧
      FollowGrown s m m' ∧ (∀ y, y ≠ s → m'.follow.get? y = m.follow.get? y) ∧
      (g.Plain → m.FirstHolds g [] →
        m'.FirstHolds g [] ∧ RestGathered g s rest vanishes m m') := by
  induction rest generalizing m with
  | nil =>
      -- nothing comes after the use, or all of it has vanished
      refine ⟨true, m, rfl, .refl s m, fun _ _ => rfl, fun _ holds => ⟨holds, ?_⟩⟩
      exact ⟨fun t ht => .inl ht, fun _ => .nil,
        fun _ t ht visible => absurd (inFirstOf_nil_iff.1 ht) visible, fun _ _ => rfl⟩
  | cons x rest ih =>
      by_cases hx : x = Symbol.empty
      · subst hx
        obtain ⟨vanishes, m', hrest, grown, others, spec⟩ := ih m
        refine ⟨vanishes, m', ?_, grown, others, ?_⟩
        · rw [gatherRest?, if_pos rfl]
          exact hrest
        · intro plain holds
          obtain ⟨holds', gathered⟩ := spec plain holds
          exact ⟨holds', gathered.empty_cons⟩
      · obtain ⟨first, m₁, hfind, answered, keeps⟩ := findsFirst_depth g [] x m
        have grown₁ : FollowGrown s m (m₁.addFollow s (first.erase Symbol.empty)) :=
          (FollowGrown.of_extends answered.kept (answered.follow ▸ .refl _)).trans
            (.addFollow m₁ s _)
        have others₁ : ∀ y, y ≠ s →
            (m₁.addFollow s (first.erase Symbol.empty)).follow.get? y = m.follow.get? y := by
          intro y hy
          rw [Memo.get?_addFollow, if_neg (Ne.symm hy), answered.follow]
        by_cases hempty : Symbol.empty ∈ first
        · -- the symbol can vanish, so what stands behind it counts too
          obtain ⟨vanishes, m', hrest, grown, others, spec⟩ :=
            ih (m₁.addFollow s (first.erase Symbol.empty))
          refine ⟨vanishes, m', ?_, grown₁.trans grown,
            fun y hy => (others y hy).trans (others₁ y hy), fun plain holds => ?_⟩
          · rw [gatherRest?, if_neg hx, hfind]
            simp only [if_pos hempty]
            exact hrest
          · have holds₁ := keeps plain holds (g.cornerOfAll_nil x)
            obtain ⟨holds', gathered⟩ := spec plain (Memo.firstHolds_of_first_eq holds₁ rfl)
            exact ⟨holds', .cons hx answered.follow (holds₁.sound x first answered.entry)
              (fun free => holds₁.complete free x first (by simp) answered.entry) hempty grown
              gathered⟩
        · -- the symbol cannot vanish, and the gathering stops there
          refine ⟨false, m₁.addFollow s (first.erase Symbol.empty), ?_, grown₁, others₁, ?_⟩
          · rw [gatherRest?, if_neg hx, hfind]
            simp only [if_neg hempty]
          · intro plain holds
            have holds₁ := keeps plain holds (g.cornerOfAll_nil x)
            exact ⟨Memo.firstHolds_of_first_eq holds₁ rfl, restGathered_of_not_mem hx answered.follow
              (holds₁.sound x first answered.entry)
              (fun free => holds₁.complete free x first (by simp) answered.entry) hempty⟩

end Analysis

/-! ## The search for one symbol -/

/-- What a search leaves of a memo: all entries. The set that is found is an entry then. -/
structure FollowAnswered (s : Symbol) (m : Memo) (found : SymbolSet) (m' : Memo) : Prop where
  first : m.first.Extends m'.first
  kept : m.follow.Extends m'.follow
  entry : m'.follow.get? s = some found

/-- The symbol `y` is needed for the Follow set of `s`, and what it has of its own and needs of the
older entries is in the entry of `s`. -/
structure Harvest (g : Grammar) (s y : Symbol) (m m' : Memo) : Prop where
  reached : Relation.ReflTransGen (NeedsFollow g) s y
  own : ∀ t, OwnFollow g y t → t ∈ m'.followAt s
  needs : ∀ l old, NeedsFollow g y l → m.follow.get? l = some old → ∀ t ∈ old, t ∈ m'.followAt s

/-- All symbols with new entries are harvested in the entry of `s`. -/
def Harvested (g : Grammar) (s : Symbol) (m m' : Memo) : Prop :=
  ∀ y found, m.follow.get? y = none → m'.follow.get? y = some found → Harvest g s y m m'

theorem harvested_of_keys {s : Symbol} {m m' : Memo}
    (h : ∀ y, m.follow.get? y = none → m'.follow.get? y = none) : Harvested g s m m' := by
  intro y found absent present
  rw [h y absent] at present
  exact absurd present (by simp)

theorem Harvested.trans {s : Symbol} {m m₁ m' : Memo} (h : Harvested g s m m₁)
    (grown : FollowGrown s m m₁) (k : Harvested g s m₁ m') (grown' : FollowGrown s m₁ m') :
    Harvested g s m m' := by
  intro y found absent present
  cases hy : m₁.follow.get? y with
  | some early =>
      -- the first part has made the entry, and the entry of `s` has only grown since
      obtain ⟨reached, own, needs⟩ := h y early absent hy
      exact ⟨reached, fun t ht => grown'.grows t (own t ht),
        fun l old hl hold t ht => grown'.grows t (needs l old hl hold t ht)⟩
  | none =>
      obtain ⟨reached, own, needs⟩ := k y found hy present
      refine ⟨reached, own, ?_⟩
      intro l old hl hold t ht
      -- an older entry is as it was when the second part began, but for that of `s` itself
      by_cases hls : l = s
      · subst hls
        exact grown'.grows t (grown.grows t (Memo.followAt_eq hold ▸ ht))
      · exact needs l old hl (grown.kept.1 l old hls hold) t ht

/-- Every pending symbol needs the Follow set of the symbol, over others or at once. -/
def Grammar.NeededByAll (g : Grammar) (pending : List Symbol) (s : Symbol) : Prop :=
  ∀ u ∈ pending, Relation.ReflTransGen (NeedsFollow g) u s

theorem Grammar.neededByAll_nil (g : Grammar) (s : Symbol) : g.NeededByAll [] s := by
  simp [NeededByAll]

theorem Grammar.NeededByAll.cons {pending : List Symbol} {s l : Symbol}
    (h : g.NeededByAll pending s) (hl : NeedsFollow g s l) : g.NeededByAll (s :: pending) l := by
  intro u hu
  rcases List.mem_cons.1 hu with rfl | hu
  · exact .single hl
  · exact (h u hu).tail hl

/-- The search finds the Follow set of the symbol from the memo, keeps it true while the searches for
the pending symbols are under way, and harvests all that it finds. -/
def FindsFollow (g : Grammar) (find : Finder) (pending : List Symbol) (s : Symbol) (m : Memo) :
    Prop :=
  ∃ found m', find s m = some (found, m') ∧ FollowAnswered s m found m' ∧
    (g.Plain → m.FollowHolds g pending → g.NeededByAll pending s →
      m'.FollowHolds g pending ∧ (g.IsLeftRecursionFree → Harvested g s m m'))

/-! ## The uses of a symbol -/

/-- What one use of `s` gives is in the entry of `s`. -/
structure UseGathered (g : Grammar) (s lhs : Symbol) (rest : List Symbol) (m : Memo) : Prop where
  next : ∀ t, InFirstOf g rest t → t ≠ Symbol.empty → t ∈ m.followAt s
  last : InFirstOf g rest Symbol.empty → lhs ≠ s →
    ∃ follow, m.follow.get? lhs = some follow ∧ ∀ t ∈ follow, t ∈ m.followAt s

theorem UseGathered.mono {s lhs : Symbol} {rest : List Symbol} {m m' : Memo}
    (h : UseGathered g s lhs rest m) (grown : FollowGrown s m m') :
    UseGathered g s lhs rest m' := by
  refine ⟨fun t ht visible => grown.grows t (h.next t ht visible), ?_⟩
  intro vanishes hl
  obtain ⟨follow, hfollow, flow⟩ := h.last vanishes hl
  exact ⟨follow, grown.kept.1 lhs follow hl hfollow, fun t ht => grown.grows t (flow t ht)⟩

/-- What gathering in the entry of `s` achieves for some of its uses, and what it preserves. -/
def Gathers (g : Grammar) (pending : List Symbol) (s : Symbol) (uses : Symbol → List Symbol → Prop)
    (m m' : Memo) : Prop :=
  g.Plain → m.FollowHolds g (s :: pending) → g.NeededByAll pending s →
    m'.FollowHolds g (s :: pending) ∧
      (g.IsLeftRecursionFree →
        (∀ lhs rest, uses lhs rest → UseGathered g s lhs rest m') ∧ Harvested g s m m')

theorem gathers_none {pending : List Symbol} {s : Symbol} {uses : Symbol → List Symbol → Prop}
    (h : ∀ lhs rest, ¬ uses lhs rest) (m : Memo) : Gathers g pending s uses m m :=
  fun _ holds _ =>
    ⟨holds, fun _ => ⟨fun lhs rest hu => absurd hu (h lhs rest), harvested_of_keys fun _ => id⟩⟩

theorem Gathers.trans {pending : List Symbol} {s : Symbol}
    {uses uses₁ uses₂ : Symbol → List Symbol → Prop} {m m₁ m' : Memo}
    (h : Gathers g pending s uses₁ m m₁) (grown : FollowGrown s m m₁)
    (k : Gathers g pending s uses₂ m₁ m') (grown' : FollowGrown s m₁ m')
    (split : ∀ lhs rest, uses lhs rest → uses₁ lhs rest ∨ uses₂ lhs rest) :
    Gathers g pending s uses m m' := by
  intro plain holds needed
  obtain ⟨holds₁, spec₁⟩ := h plain holds needed
  obtain ⟨holds', spec'⟩ := k plain holds₁ needed
  refine ⟨holds', ?_⟩
  intro free
  obtain ⟨gathered₁, harvested₁⟩ := spec₁ free
  obtain ⟨gathered', harvested'⟩ := spec' free
  refine ⟨?_, harvested₁.trans grown harvested' grown'⟩
  intro lhs rest hu
  rcases split lhs rest hu with hu | hu
  · exact (gathered₁ lhs rest hu).mono grown'
  · exact gathered' lhs rest hu

namespace Analysis

section Uses

variable {findFollow : Finder} {pending : List Symbol} {s : Symbol} {p : Production}

/-- Gathering what one use of `s` gives. -/
theorem gathers_use {rest : List Symbol} {vanishes : Bool} {m m₁ : Memo}
    (member : p ∈ g.productionList) (used : ∃ before, p.rhs = before ++ s :: rest)
    (entry : ∃ v, m.follow.get? s = some v) (grown : FollowGrown s m m₁)
    (others : ∀ y, y ≠ s → m₁.follow.get? y = m.follow.get? y)
    (spec : g.Plain → m.FirstHolds g [] →
      m₁.FirstHolds g [] ∧ RestGathered g s rest vanishes m m₁)
    (hend : vanishes = false ∨ p.lhs = s) :
    Gathers g pending s (fun lhs after => lhs = p.lhs ∧ after = rest) m m₁ := by
  intro plain holds _
  obtain ⟨before, used⟩ := used
  obtain ⟨first, gathered⟩ := spec plain holds.first
  refine ⟨gathered.followHolds member used grown others first holds, fun free => ⟨?_, ?_⟩⟩
  · rintro lhs after ⟨rfl, rfl⟩
    refine ⟨gathered.complete free, ?_⟩
    intro vanishing hl
    -- nothing is carried on to the head: the rest does not vanish, or the head is `s` itself
    rcases hend with hend | hend
    · exact absurd ((gathered.vanishes_of free vanishing).symm.trans hend) (by simp)
    · exact absurd hend hl
  · refine harvested_of_keys fun y absent => ?_
    obtain ⟨v, hv⟩ := entry
    rw [others y fun h => by rw [h, hv] at absent; exact absurd absent (by simp)]
    exact absent

/-- Gathering what one use of `s` gives when the Follow set of the left-hand side flows in. -/
theorem gathers_flow {rest : List Symbol} {follow : SymbolSet} {m m₁ m₂ : Memo}
    (member : p ∈ g.productionList) (used : ∃ before, p.rhs = before ++ s :: rest)
    (hl : p.lhs ≠ s) (entry : ∃ v, m.follow.get? s = some v) (grown : FollowGrown s m m₁)
    (others : ∀ y, y ≠ s → m₁.follow.get? y = m.follow.get? y)
    (spec : g.Plain → m.FirstHolds g [] → m₁.FirstHolds g [] ∧ RestGathered g s rest true m m₁)
    (answered : FollowAnswered p.lhs m₁ follow m₂)
    (keeps : g.Plain → m₁.FollowHolds g (s :: pending) → g.NeededByAll (s :: pending) p.lhs →
      m₂.FollowHolds g (s :: pending) ∧ (g.IsLeftRecursionFree → Harvested g p.lhs m₁ m₂)) :
    Gathers g pending s (fun lhs after => lhs = p.lhs ∧ after = rest) m (m₂.addFollow s follow) := by
  intro plain holds needed
  obtain ⟨before, used⟩ := used
  obtain ⟨first, gathered⟩ := spec plain holds.first
  have holds₁ := gathered.followHolds member used grown others first holds
  have needs : NeedsFollow g s p.lhs :=
    ⟨hl, p, member, rfl, before, rest, used, gathered.vanishing rfl⟩
  obtain ⟨holds₂, harvested⟩ := keeps plain holds₁ (needed.cons needs)
  have grown₂ : FollowGrown s m₁ m₂ := .of_extends answered.first answered.kept
  have grown₃ : FollowGrown s m₂ (m₂.addFollow s follow) := .addFollow m₂ s follow
  have flow : ∀ t ∈ follow, t ∈ (m₂.addFollow s follow).followAt s := by
    intro t ht
    rw [Memo.followAt_addFollow, SymbolSet.mem_union]
    exact .inr ht
  refine ⟨holds₂.of_others List.mem_cons_self grown₃ ?_ (Memo.firstHolds_of_first_eq holds₂.first
    rfl) ?_, fun free => ⟨?_, ?_⟩⟩
  · intro y hy
    rw [Memo.get?_addFollow, if_neg (Ne.symm hy)]
  · intro t ht
    rw [Memo.followAt_addFollow, SymbolSet.mem_union] at ht
    rcases ht with ht | ht
    · obtain ⟨found, hfound, ht⟩ := Memo.exists_of_mem_followAt ht
      exact holds₂.sound s found hfound t ht
    · exact needs.inFollow (holds₂.sound p.lhs follow answered.entry t ht)
  · rintro lhs after ⟨rfl, rfl⟩
    refine ⟨?_, fun _ _ => ⟨follow, ?_, flow⟩⟩
    · intro t ht visible
      exact grown₃.grows t (grown₂.grows t (gathered.complete free t ht visible))
    · rw [Memo.get?_addFollow, if_neg (Ne.symm hl)]
      exact answered.entry
  · -- the new entries come from the search for the left-hand side
    obtain ⟨v, hv⟩ := entry
    intro y found absent present
    have hy : y ≠ s := fun h => by rw [h, hv] at absent; exact absurd absent (by simp)
    rw [Memo.get?_addFollow, if_neg (Ne.symm hy)] at present
    obtain ⟨reached, own, old⟩ := harvested free y found ((others y hy).trans absent) present
    rw [Memo.followAt_eq answered.entry] at own old
    refine ⟨.head needs reached, fun t ht => flow t (own t ht), ?_⟩
    intro l value hyl hvalue t ht
    by_cases hls : l = s
    · subst hls
      exact grown₃.grows t (grown₂.grows t (grown.grows t (Memo.followAt_eq hvalue ▸ ht)))
    · exact flow t (old l value hyl ((others l hls).trans hvalue) t ht)

/-- A use behind which not all can vanish, or in a production of the symbol itself, needs no other
Follow set. -/
theorem gatherUses?_skip {findFirst : Finder} {lhs : Symbol} {rest : List Symbol}
    {rests : List (List Symbol)} {vanishes : Bool} {m m₁ : Memo}
    (h : gatherRest? findFirst s rest m = some (vanishes, m₁))
    (hend : vanishes = false ∨ lhs = s) :
    gatherUses? findFirst findFollow s lhs (rest :: rests) m =
      gatherUses? findFirst findFollow s lhs rests m₁ := by
  rw [gatherUses?, h]
  cases vanishes with
  | false => rfl
  | true => simp only [if_pos (hend.resolve_left (by simp))]

/-- Any other use takes the Follow set of the left-hand side in. -/
theorem gatherUses?_flow {findFirst : Finder} {lhs : Symbol} {rest : List Symbol}
    {rests : List (List Symbol)} {follow : SymbolSet} {m m₁ m₂ : Memo}
    (h : gatherRest? findFirst s rest m = some (true, m₁)) (hl : lhs ≠ s)
    (hfind : findFollow lhs m₁ = some (follow, m₂)) :
    gatherUses? findFirst findFollow s lhs (rest :: rests) m =
      gatherUses? findFirst findFollow s lhs rests (m₂.addFollow s follow) := by
  rw [gatherUses?, h]
  simp only [if_neg hl, hfind]

/-- Gathering what the uses of `s` in one right-hand side give. -/
theorem gatherUses?_spec (member : p ∈ g.productionList) (rests : List (List Symbol)) (m : Memo)
    (used : ∀ rest ∈ rests, ∃ before, p.rhs = before ++ s :: rest)
    (entry : ∃ v, m.follow.get? s = some v)
    (finds : ∀ m₁ : Memo, m.follow.ExtendsOff s m₁.follow →
      FindsFollow g findFollow (s :: pending) p.lhs m₁) :
    ∃ m', gatherUses? (firstOf? g g.depth) findFollow s p.lhs rests m = some m' ∧
      FollowGrown s m m' ∧
      Gathers g pending s (fun lhs rest => lhs = p.lhs ∧ rest ∈ rests) m m' := by
  induction rests generalizing m with
  | nil => exact ⟨m, rfl, .refl s m, gathers_none (by simp) m⟩
  | cons rest rests ih =>
      have hrest := used rest List.mem_cons_self
      have hrests : ∀ r ∈ rests, ∃ before, p.rhs = before ++ s :: r := fun r hr =>
        used r (List.mem_cons_of_mem _ hr)
      have split : ∀ lhs r, (lhs = p.lhs ∧ r ∈ rest :: rests) →
          (lhs = p.lhs ∧ r = rest) ∨ (lhs = p.lhs ∧ r ∈ rests) := by
        rintro lhs r ⟨hl, hr⟩
        rcases List.mem_cons.1 hr with hr | hr
        · exact .inl ⟨hl, hr⟩
        · exact .inr ⟨hl, hr⟩
      obtain ⟨vanishes, m₁, hgather, grown₁, others, spec⟩ := gatherRest?_spec g s rest m
      by_cases hend : vanishes = false ∨ p.lhs = s
      · -- no other Follow set flows in
        obtain ⟨m', hmore, grown', gathers'⟩ := ih m₁ hrests (entry.elim fun _ => grown₁.kept.2 _)
          fun m₂ hm₂ => finds m₂ (grown₁.kept.trans hm₂)
        exact ⟨m', (gatherUses?_skip hgather hend).trans hmore, grown₁.trans grown',
          (gathers_use member hrest entry grown₁ others spec hend).trans grown₁ gathers' grown'
            split⟩
      · -- the Follow set of the left-hand side is searched and flows in
        obtain ⟨hvanishes, hl⟩ := not_or.1 hend
        obtain rfl : vanishes = true := by simpa using hvanishes
        obtain ⟨follow, m₂, hfind, answered, keeps⟩ := finds m₁ grown₁.kept
        have grown₂ : FollowGrown s m (m₂.addFollow s follow) :=
          (grown₁.trans (.of_extends answered.first answered.kept)).trans (.addFollow m₂ s follow)
        obtain ⟨m', hmore, grown', gathers'⟩ := ih (m₂.addFollow s follow) hrests
          (entry.elim fun _ => grown₂.kept.2 _) fun m₃ hm₃ => finds m₃ (grown₂.kept.trans hm₃)
        exact ⟨m', (gatherUses?_flow hgather hl hfind).trans hmore, grown₂.trans grown',
          (gathers_flow member hrest hl entry grown₁ others spec answered keeps).trans grown₂
            gathers' grown' split⟩

/-- Gathering what the uses of `s` in productions give. -/
theorem gatherFollow?_spec (ps : List Production) (m : Memo)
    (members : ∀ p ∈ ps, p ∈ g.productionList) (entry : ∃ v, m.follow.get? s = some v)
    (finds : ∀ p ∈ ps, ∀ m₁ : Memo, m.follow.ExtendsOff s m₁.follow →
      FindsFollow g findFollow (s :: pending) p.lhs m₁) :
    ∃ m', gatherFollow? (firstOf? g g.depth) findFollow s ps m = some m' ∧ FollowGrown s m m' ∧
      Gathers g pending s (fun lhs rest => ∃ p ∈ ps, lhs = p.lhs ∧ rest ∈ restsAfter s p.rhs) m
        m' := by
  induction ps generalizing m with
  | nil => exact ⟨m, rfl, .refl s m, gathers_none (by simp) m⟩
  | cons p ps ih =>
      -- the uses in the first production, then those in the others, from the memo that the first ones leave
      obtain ⟨m₁, huses, grown₁, gathers₁⟩ := gatherUses?_spec (members p List.mem_cons_self)
        (restsAfter s p.rhs) m (fun _ => mem_restsAfter.1) entry (finds p List.mem_cons_self)
      obtain ⟨m', hmore, grown', gathers'⟩ := ih m₁
        (fun q hq => members q (List.mem_cons_of_mem _ hq)) (entry.elim fun _ => grown₁.kept.2 _)
        fun q hq m₂ hm₂ => finds q (List.mem_cons_of_mem _ hq) m₂ (grown₁.kept.trans hm₂)
      refine ⟨m', ?_, grown₁.trans grown', gathers₁.trans grown₁ gathers' grown' ?_⟩
      · rw [gatherFollow?, huses]
        exact hmore
      · rintro lhs rest ⟨q, hq, hl, hr⟩
        rcases List.mem_cons.1 hq with rfl | hq
        · exact .inl ⟨hl, hr⟩
        · exact .inr ⟨q, hq, hl, hr⟩

end Uses

/-! ## The whole search -/

theorem followOf?_of_entry {s : Symbol} {m : Memo} {found : SymbolSet} (depth : Nat)
    (h : m.follow.get? s = some found) : followOf? g depth s m = some (found, m) := by
  cases depth with
  | zero => rw [followOf?, h]
  | succ depth => rw [followOf?, h]

/-- A search that meets an entry. -/
theorem findsFollow_of_entry {find : Finder} {pending : List Symbol} {s : Symbol} {m : Memo}
    {found : SymbolSet} (entry : m.follow.get? s = some found)
    (h : find s m = some (found, m)) : FindsFollow g find pending s m :=
  ⟨found, m, h, ⟨.refl _, .refl _, entry⟩,
    fun _ holds _ => ⟨holds, fun _ => harvested_of_keys fun _ => id⟩⟩

/-- The entry with which a search begins keeps the memo true. -/
theorem followHolds_addFollow_initial {pending : List Symbol} {s : Symbol} {m : Memo}
    (holds : m.FollowHolds g pending) (absent : m.follow.get? s = none) :
    (m.addFollow s (initialFollow g s)).FollowHolds g (s :: pending) := by
  have widened : m.FollowHolds g (s :: pending) := by
    refine ⟨holds.first, holds.sound, fun free k found hp => holds.own free k found
      fun h => hp (List.mem_cons_of_mem _ h), fun free k found hp hk l hl => ?_⟩
    obtain ⟨follow, hfollow, flow⟩ :=
      holds.needs free k found (fun h => hp (List.mem_cons_of_mem _ h)) hk l hl
    refine ⟨follow, hfollow, flow.imp_right fun ⟨hlp, hflow⟩ => ⟨fun h => ?_, hflow⟩⟩
    -- `s` had no entry, so none that is over has taken its set in
    rcases List.mem_cons.1 h with rfl | h
    · rw [absent] at hfollow
      exact absurd hfollow (by simp)
    · exact hlp h
  refine widened.of_others List.mem_cons_self (.addFollow m s _) (fun y hy => ?_)
    (Memo.firstHolds_of_first_eq holds.first rfl) fun t ht => ?_
  · rw [Memo.get?_addFollow, if_neg (Ne.symm hy)]
  · rw [Memo.followAt_addFollow, Memo.followAt, absent, initialFollow] at ht
    by_cases hs : s = g.start
    · subst hs
      simp only [Option.getD_none, if_true, SymbolSet.mem_union, SymbolSet.not_mem_empty,
        SymbolSet.mem_singleton, false_or] at ht
      exact ht ▸ .start
    · simp [hs] at ht

section Finish

variable {pending : List Symbol} {s : Symbol} {m m' : Memo}

/-- What a symbol has of its own is in its entry when all its uses are gathered. -/
theorem own_of_gathered (grown : FollowGrown s (m.addFollow s (initialFollow g s)) m')
    (gathered : ∀ lhs rest, (∃ p ∈ g.productionsWith s, lhs = p.lhs ∧ rest ∈ restsAfter s p.rhs) →
      UseGathered g s lhs rest m') {t : Symbol} (h : OwnFollow g s t) : t ∈ m'.followAt s := by
  cases h with
  | start =>
      refine grown.grows _ ?_
      rw [Memo.followAt_addFollow, SymbolSet.mem_union, initialFollow, if_pos rfl]
      exact .inr (SymbolSet.mem_singleton.2 rfl)
  | @next p _ _ before after member used h visible =>
      refine (gathered p.lhs after ⟨p, Grammar.mem_productionsWith.2 ⟨member, ?_⟩, rfl,
        mem_restsAfter.2 ⟨before, used⟩⟩).next t h visible
      rw [used]
      exact List.mem_append_right _ List.mem_cons_self

/-- The symbols that a symbol needs have flowed into its entry when all its uses are gathered. -/
theorem needs_of_gathered
    (gathered : ∀ lhs rest, (∃ p ∈ g.productionsWith s, lhs = p.lhs ∧ rest ∈ restsAfter s p.rhs) →
      UseGathered g s lhs rest m') {l : Symbol} (h : NeedsFollow g s l) :
    ∃ follow, m'.follow.get? l = some follow ∧ ∀ t ∈ follow, t ∈ m'.followAt s := by
  obtain ⟨hl, p, member, rfl, before, after, used, vanishes⟩ := h
  refine (gathered p.lhs after ⟨p, Grammar.mem_productionsWith.2 ⟨member, ?_⟩, rfl,
    mem_restsAfter.2 ⟨before, used⟩⟩).last vanishes hl
  rw [used]
  exact List.mem_append_right _ List.mem_cons_self

/-- When all uses of a symbol are gathered, its search is over. -/
theorem followHolds_of_gathered (needed : g.NeededByAll pending s)
    (holds : m'.FollowHolds g (s :: pending))
    (grown : FollowGrown s (m.addFollow s (initialFollow g s)) m')
    (gathered : g.IsLeftRecursionFree → ∀ lhs rest,
      (∃ p ∈ g.productionsWith s, lhs = p.lhs ∧ rest ∈ restsAfter s p.rhs) →
        UseGathered g s lhs rest m') : m'.FollowHolds g pending := by
  refine ⟨holds.first, holds.sound, fun free k found hp hk t ht => ?_,
    fun free k found hp hk l hl => ?_⟩
  all_goals by_cases hks : k = s
  · subst hks
    rw [← Memo.followAt_eq hk]
    exact own_of_gathered grown (gathered free) ht
  · exact holds.own free k found (by simp [hks, hp]) hk t ht
  · subst hks
    obtain ⟨follow, hfollow, flow⟩ := needs_of_gathered (gathered free) hl
    refine ⟨follow, hfollow, ?_⟩
    -- a pending symbol needs `s` in turn, and its set may still grow
    by_cases hlp : l ∈ pending
    · exact .inl (needed l hlp)
    · exact .inr ⟨hlp, Memo.followAt_eq hk ▸ flow⟩
  · obtain ⟨follow, hfollow, flow⟩ := holds.needs free k found (by simp [hks, hp]) hk l hl
    exact ⟨follow, hfollow, flow.imp_right fun ⟨hlp, hflow⟩ =>
      ⟨fun h => hlp (List.mem_cons_of_mem _ h), hflow⟩⟩

/-- The entry of a symbol whose uses are gathered holds the whole harvest of its search. -/
theorem harvested_of_gathered (absent : m.follow.get? s = none)
    (grown : FollowGrown s (m.addFollow s (initialFollow g s)) m')
    (gathered : ∀ lhs rest, (∃ p ∈ g.productionsWith s, lhs = p.lhs ∧ rest ∈ restsAfter s p.rhs) →
      UseGathered g s lhs rest m')
    (harvested : Harvested g s (m.addFollow s (initialFollow g s)) m') : Harvested g s m m' := by
  intro y found hy present
  have older : ∀ l old, m.follow.get? l = some old →
      (m.addFollow s (initialFollow g s)).follow.get? l = some old :=
    OrderedMap.extends_insert _ absent
  by_cases hys : y = s
  · subst hys
    refine ⟨.refl, fun t => own_of_gathered grown gathered, ?_⟩
    intro l old hl hold
    obtain ⟨follow, hfollow, flow⟩ := needs_of_gathered gathered hl
    -- the entry that has flowed in is still the old one
    have hsame := (grown.kept.1 l old hl.1 (older l old hold)).symm.trans hfollow
    rw [Option.some.inj hsame]
    exact flow
  · have hy' : (m.addFollow s (initialFollow g s)).follow.get? y = none := by
      rw [Memo.get?_addFollow, if_neg (Ne.symm hys)]
      exact hy
    obtain ⟨reached, own, needs⟩ := harvested y found hy' present
    exact ⟨reached, own, fun l old hl hold => needs l old hl (older l old hold)⟩

end Finish

/-- The entry with which the search for a symbol begins makes room for the searches below. -/
theorem unmet_le_of_addFollow {s : Symbol} {found : SymbolSet} {m m₁ : Memo} {p : Production}
    {depth : Nat} (hdepth : unmet g.symbols m.follow ≤ depth + 1)
    (absent : m.follow.get? s = none) (hp : p ∈ g.productionsWith s)
    (later : (m.addFollow s found).follow.ExtendsOff s m₁.follow) :
    unmet g.symbols m₁.follow ≤ depth := by
  obtain ⟨member, hsp⟩ := Grammar.mem_productionsWith.1 hp
  have hlt : unmet g.symbols (m.addFollow s found).follow < unmet g.symbols m.follow :=
    unmet_insert_lt _ (Grammar.mem_symbols_of_mem_rhs member hsp) absent
  have hle : unmet g.symbols m₁.follow ≤ unmet g.symbols (m.addFollow s found).follow :=
    unmet_le_of_keys fun _ _ => later.keys
  omega

/-- The search down to a depth finds the Follow set of a symbol when no more symbols of the grammar
than that are without an entry. -/
theorem findsFollow_followOf? (g : Grammar) (depth : Nat) (pending : List Symbol) (s : Symbol)
    (m : Memo) (hdepth : unmet g.symbols m.follow ≤ depth) (hs : s ∈ g.symbols ∨ 0 < depth) :
    FindsFollow g (followOf? g depth) pending s m := by
  induction depth generalizing pending s m with
  | zero =>
      cases hentry : m.follow.get? s with
      | some found => exact findsFollow_of_entry hentry (followOf?_of_entry _ hentry)
      | none =>
          -- no symbol of the grammar lacks an entry
          have := unmet_pos (hs.resolve_right (Nat.lt_irrefl 0)) hentry
          omega
  | succ depth ih =>
      cases hentry : m.follow.get? s with
      | some found => exact findsFollow_of_entry hentry (followOf?_of_entry _ hentry)
      | none =>
          have room : ∀ p ∈ g.productionsWith s, ∀ m₁ : Memo,
              (m.addFollow s (initialFollow g s)).follow.ExtendsOff s m₁.follow →
              FindsFollow g (followOf? g depth) (s :: pending) p.lhs m₁ := by
            intro p hp m₁ hm₁
            have member := (Grammar.mem_productionsWith.1 hp).1
            exact ih (s :: pending) p.lhs m₁ (unmet_le_of_addFollow hdepth hentry hp hm₁)
              (.inl (Grammar.lhs_mem_symbols member))
          obtain ⟨m', hgather, grown, gathers⟩ := gatherFollow?_spec
            (g.productionsWith s) (m.addFollow s (initialFollow g s))
            (fun p hp => (Grammar.mem_productionsWith.1 hp).1)
            ⟨_, by rw [Memo.get?_addFollow, if_pos rfl]⟩ room
          obtain ⟨found, hfound⟩ := grown.kept.2 _ (by rw [Memo.get?_addFollow, if_pos rfl])
          have kept : m.follow.Extends m'.follow :=
            ((OrderedMap.extendsOff_insert m.follow s _).trans grown.kept).extends hentry
          refine ⟨found, m', ?_, ⟨grown.first, kept, hfound⟩, ?_⟩
          · rw [followOf?, hentry]
            simp only [hgather]
            rw [Memo.followAt_eq hfound]
          · intro plain holds needed
            obtain ⟨holds', spec⟩ :=
              gathers plain (followHolds_addFollow_initial holds hentry) needed
            refine ⟨followHolds_of_gathered needed holds' grown fun free => (spec free).1,
              fun free => ?_⟩
            exact harvested_of_gathered hentry grown (spec free).1 (spec free).2

/-- The search down to the depth of the grammar ends from every memo. -/
theorem findsFollow_depth (g : Grammar) (pending : List Symbol) (s : Symbol) (m : Memo) :
    FindsFollow g (followOf? g g.depth) pending s m := by
  have hle : unmet g.symbols m.follow ≤ g.symbols.length := List.countP_le_length
  have hdepth := g.depth_eq
  exact findsFollow_followOf? g g.depth pending s m (by omega) (.inr (by omega))

/-- What a query for the Follow set of a symbol gives and leaves. -/
theorem followOf_spec (g : Grammar) (s : Symbol) (m : Memo) :
    FollowAnswered s m (followOf g s m).1 (followOf g s m).2 ∧
      (g.Plain → m.FollowHolds g [] → (followOf g s m).2.FollowHolds g [] ∧
        (g.IsLeftRecursionFree → Harvested g s m (followOf g s m).2)) := by
  obtain ⟨found, m', hfind, answered, keeps⟩ := findsFollow_depth g [] s m
  rw [followOf, hfind, Option.getD_some]
  exact ⟨answered, fun plain holds => keeps plain holds (g.neededByAll_nil s)⟩

end Analysis

end Predictive
