import Predictive.Proofs.SearchRuns

/-!
# Searches without embedded empty symbols

The empty symbol stands for nothing, so a grammar should be searched like the one without it among
other symbols (`Grammar.erased`). The rules for Follow sets pass over the symbol. Those for First sets
stop at it instead, which makes no difference where nothing but empty symbols stands behind it, or where
the search does not come that far because what stands before it cannot vanish (`Grammar.Shelters`). If
all empty symbols are of these kinds, each run of a search is also a run for the other grammar, with the
same searches, the same entries and the same outcome (`Runs.erased`). This takes a memo by which only
those symbols vanish that can, and runs leave such a memo (`Memo.VanishSound`).
-/

set_option autoImplicit false

namespace Predictive

open Analysis

variable {g : Grammar}

/-! ## Sequences without the empty symbol -/

/-- The symbols of a sequence but for the empty one. -/
def properSymbols (symbols : List Symbol) : List Symbol :=
  symbols.filter (· ≠ Symbol.empty)

/-- A right-hand side without the empty symbol among others. -/
def erasedRhs (rhs : List Symbol) : List Symbol :=
  if properSymbols rhs = [] then [Symbol.empty] else properSymbols rhs

theorem Production.erased_rhs (p : Production) : p.erased.rhs = erasedRhs p.rhs := rfl

@[simp] theorem Production.erased_lhs (p : Production) : p.erased.lhs = p.lhs := rfl

@[simp] theorem Production.erased_number (p : Production) : p.erased.number = p.number := rfl

@[simp] theorem properSymbols_empty_cons (rest : List Symbol) :
    properSymbols (Symbol.empty :: rest) = properSymbols rest := by
  simp [properSymbols]

theorem properSymbols_cons {s : Symbol} (proper : s ≠ Symbol.empty) (rest : List Symbol) :
    properSymbols (s :: rest) = s :: properSymbols rest := by
  simp [properSymbols, proper]

theorem mem_properSymbols {s : Symbol} {symbols : List Symbol} :
    s ∈ properSymbols symbols ↔ s ∈ symbols ∧ s ≠ Symbol.empty := by
  simp [properSymbols]

theorem erasedRhs_of_eq_nil {rhs : List Symbol} (h : properSymbols rhs = []) :
    erasedRhs rhs = [Symbol.empty] := by
  rw [erasedRhs, if_pos h]

theorem erasedRhs_of_ne_nil {rhs : List Symbol} (h : properSymbols rhs ≠ []) :
    erasedRhs rhs = properSymbols rhs := by
  rw [erasedRhs, if_neg h]

theorem Production.isEmpty_erased {p : Production} :
    p.erased.isEmpty = true ↔ properSymbols p.rhs = [] := by
  rw [isEmpty, erased_rhs, beq_iff_eq]
  constructor
  · intro h
    apply Classical.byContradiction
    intro filled
    rw [erasedRhs_of_ne_nil filled] at h
    have among : Symbol.empty ∈ properSymbols p.rhs := by simp [h]
    exact (mem_properSymbols.1 among).2 rfl
  · exact erasedRhs_of_eq_nil

theorem Production.isEmpty_of_properSymbols {p : Production} (h : properSymbols p.rhs ≠ []) :
    p.isEmpty = false := by
  rw [isEmpty, beq_eq_false_iff_ne]
  intro hrhs
  rw [hrhs] at h
  exact h (properSymbols_empty_cons [])

theorem mem_erasedRhs {s : Symbol} (proper : s ≠ Symbol.empty) {rhs : List Symbol} :
    s ∈ erasedRhs rhs ↔ s ∈ rhs := by
  by_cases h : properSymbols rhs = []
  · have absent : s ∉ rhs := by
      intro hs
      have : s ∈ properSymbols rhs := mem_properSymbols.2 ⟨hs, proper⟩
      rw [h] at this
      exact absurd this List.not_mem_nil
    simp [erasedRhs_of_eq_nil h, proper, absent]
  · rw [erasedRhs_of_ne_nil h, mem_properSymbols]
    exact and_iff_left proper

namespace Analysis

theorem restsAfter_properSymbols {s : Symbol} (proper : s ≠ Symbol.empty) (symbols : List Symbol) :
    restsAfter s (properSymbols symbols) = (restsAfter s symbols).map properSymbols := by
  induction symbols with
  | nil => rfl
  | cons x xs ih =>
      by_cases hx : x = Symbol.empty
      · subst hx
        rw [properSymbols_empty_cons, ih, restsAfter, if_neg (Ne.symm proper)]
      · rw [properSymbols_cons hx, restsAfter, restsAfter, ih]
        split <;> rfl

/-- What comes after the uses of a symbol is the same but for empty symbols. -/
theorem restsAfter_erasedRhs {s : Symbol} (proper : s ≠ Symbol.empty) (rhs : List Symbol) :
    restsAfter s (erasedRhs rhs) = (restsAfter s rhs).map properSymbols := by
  by_cases h : properSymbols rhs = []
  · rw [erasedRhs_of_eq_nil h, ← restsAfter_properSymbols proper, h]
    simp [restsAfter, Ne.symm proper]
  · rw [erasedRhs_of_ne_nil h, restsAfter_properSymbols proper]

end Analysis

/-! ## The erased grammar -/

namespace Grammar

theorem productionList_erased (g : Grammar) :
    g.erased.productionList = g.productionList.map Production.erased := by
  simp [productionList, erased, OrderedMap.values, OrderedMap.map]

theorem productionsFor_erased (g : Grammar) (s : Symbol) :
    g.erased.productionsFor s = (g.productionsFor s).map Production.erased := by
  rw [productionsFor_eq, productionsFor_eq, productionList_erased, List.filter_map]
  rfl

theorem productionsWith_erased (g : Grammar) {s : Symbol} (proper : s ≠ Symbol.empty) :
    g.erased.productionsWith s = (g.productionsWith s).map Production.erased := by
  rw [productionsWith_eq, productionsWith_eq, productionList_erased, List.filter_map]
  congr 1
  refine List.filter_congr fun p _ => ?_
  simp only [Function.comp_apply, Production.erased_rhs, mem_erasedRhs proper]

theorem nonterminals_erased (g : Grammar) : g.erased.nonterminals = g.nonterminals := by
  unfold nonterminals
  rw [productionList_erased, List.map_map]
  rfl

theorem production?_erased (g : Grammar) (n : Int) :
    g.erased.production? n = (g.production? n).map Production.erased :=
  OrderedMap.get?_map _ _ _

/-! ## Sheltered empty symbols -/

/-- Where something stands behind the empty symbol in a sequence, what stands before it cannot vanish. -/
def Shelters (g : Grammar) (symbols : List Symbol) : Prop :=
  ∀ before after, symbols = before ++ Symbol.empty :: after → properSymbols after ≠ [] →
    ¬ InFirstOf g before Symbol.empty

theorem Shelters.properSymbols_eq_nil {rest : List Symbol}
    (h : g.Shelters (Symbol.empty :: rest)) : properSymbols rest = [] :=
  Classical.byContradiction fun behind => h [] rest rfl behind .nil

theorem Shelters.tail {s : Symbol} {rest : List Symbol} (h : g.Shelters (s :: rest))
    (proper : s ≠ Symbol.empty) (vanishes : InFirst g s Symbol.empty) : g.Shelters rest := by
  rintro before after rfl behind hbefore
  exact h (s :: before) after rfl behind (.tail proper vanishes hbefore)

/-- Behind a proper symbol that cannot vanish all empty symbols are sheltered. -/
theorem shelters_of_head {s : Symbol} {rest : List Symbol} (proper : s ≠ Symbol.empty)
    (stays : ¬ InFirst g s Symbol.empty) : g.Shelters (s :: rest) := by
  intro before after hsplit _ vanishes
  cases before with
  | nil => exact proper (List.cons.inj hsplit).1
  | cons x xs =>
      obtain rfl := (List.cons.inj hsplit).1
      rcases (inFirstOf_cons_of_ne proper).1 vanishes with ⟨-, visible⟩ | ⟨hs, -⟩
      · exact visible rfl
      · exact stays hs

theorem shelters_of_properSymbols_eq_nil {symbols : List Symbol} (h : properSymbols symbols = []) :
    g.Shelters symbols := by
  rintro before after rfl behind
  rw [properSymbols, List.filter_append, List.append_eq_nil_iff] at h
  refine absurd ?_ behind
  rw [← properSymbols_empty_cons]
  exact h.2

theorem not_inFirst_empty_of_isToken {s : Symbol} (token : g.isToken s = true)
    (proper : s ≠ Symbol.empty) : ¬ InFirst g s Symbol.empty := by
  intro h
  cases h with
  | token _ => exact proper rfl
  | production _ expandable _ => exact absurd (token.symm.trans expandable) (by simp)

/-- All empty symbols among others are sheltered. -/
def EmptySheltered (g : Grammar) : Prop :=
  ∀ p ∈ g.productionList, g.Shelters p.rhs

end Grammar

/-! ## Runs -/

/-- By the entries only those symbols vanish that can. -/
def Memo.VanishSound (g : Grammar) (m : Memo) : Prop :=
  ∀ s found, m.first.get? s = some found → Symbol.empty ∈ found → InFirst g s Symbol.empty

theorem Memo.vanishSound_empty (g : Grammar) : Memo.empty.VanishSound g :=
  fun _ _ h => absurd h (by simp [empty])

theorem Memo.VanishSound.addFirst {s : Symbol} {m : Memo} {found : SymbolSet}
    (sound : m.VanishSound g) (hfound : Symbol.empty ∈ found → InFirst g s Symbol.empty) :
    (m.addFirst s found).VanishSound g := by
  intro k set hk ht
  rcases Memo.mem_of_get?_addFirst hk ht with ⟨old, hold, ht⟩ | ⟨rfl, ht⟩
  · exact sound k old hold ht
  · exact hfound ht

theorem Memo.VanishSound.firstAt {s : Symbol} {m : Memo} (sound : m.VanishSound g)
    (h : Symbol.empty ∈ m.firstAt s) : InFirst g s Symbol.empty := by
  obtain ⟨found, hfound, ht⟩ := Memo.exists_of_mem_firstAt h
  exact sound s found hfound ht

namespace Job

/-- The part of the work that stands in the place of a job when the grammar has been erased. -/
def erased : Job → Job
  | .firstOfRhs rhs => .firstOfRhs (erasedRhs rhs)
  | .firstOfSequence rest found => .firstOfSequence (properSymbols rest) found
  | .gatherFirst s ps => .gatherFirst s (ps.map Production.erased)
  | .gatherRest s rest => .gatherRest s (properSymbols rest)
  | .gatherUses s lhs rests => .gatherUses s lhs (rests.map properSymbols)
  | .gatherFollow s ps => .gatherFollow s (ps.map Production.erased)
  | job => job

/-- The job comes up in searches for the sets of proper symbols, and its sequence is sheltered. -/
def Searches (g : Grammar) : Job → Prop
  | .firstOf _ => True
  | .firstOfRhs rhs => rhs ≠ [] ∧ g.Shelters rhs
  | .firstOfSequence rest _ => g.Shelters rest
  | .gatherFirst s ps => g.isToken s = false ∧ ∀ p ∈ ps, p ∈ g.productionList ∧ p.lhs = s
  | .followOf s => s ≠ Symbol.empty
  | .gatherRest _ _ => True
  | .gatherUses s lhs _ => s ≠ Symbol.empty ∧ lhs ≠ Symbol.empty
  | .gatherFollow s ps => s ≠ Symbol.empty ∧ ∀ p ∈ ps, p ∈ g.productionList
  | _ => False

/-- If the empty symbol comes out, the symbol or the sequence of the job can vanish. -/
def VanishSound (g : Grammar) : Job → Outcome → Prop
  | .firstOf s, .set found => Symbol.empty ∈ found → InFirst g s Symbol.empty
  | .firstOfRhs rhs, .set found => Symbol.empty ∈ found → InFirstOf g rhs Symbol.empty
  | .firstOfSequence rest before, .set found =>
      Symbol.empty ∈ found → Symbol.empty ∈ before ∨ InFirstOf g rest Symbol.empty
  | _, _ => True

end Job

/-- A run of a search from a sound memo is a run for the erased grammar, and leaves a sound memo. -/
theorem Runs.erased (wf : g.WellFormed) (noRule : g.EmptyHasNoRule) (sheltered : g.EmptySheltered)
    {job : Job} {m m' : Memo} {opened : List Search} {result : Outcome}
    (h : Runs g job m opened result m') (searches : job.Searches g) (sound : m.VanishSound g) :
    Runs g.erased job.erased m opened result m' ∧ m'.VanishSound g ∧ job.VanishSound g result := by
  -- Of a left-recursive grammar a memo may hold too little, but never the empty symbol for what cannot
  -- vanish. So a search comes past a symbol only if the symbol vanishes, and what is left of the
  -- sequence is sheltered like all of it.
  induction h with
  | @firstKnown s m found entry => exact ⟨.firstKnown entry, sound, sound s found entry⟩
  | @firstToken s m absent token =>
      have sound' : (m.addFirst s (.singleton s)).VanishSound g := by
        refine sound.addFirst fun hs => ?_
        obtain rfl := SymbolSet.mem_singleton.1 hs
        exact .token token
      exact ⟨.firstToken absent token, sound', sound'.firstAt⟩
  | @firstGathered s m m' opened absent expandable _ ih =>
      have members : ∀ p ∈ g.productionsFor s, p ∈ g.productionList ∧ p.lhs = s := fun p hp =>
        Grammar.mem_productionsFor.1 hp
      have started : (m.addFirst s ∅).VanishSound g :=
        sound.addFirst fun hs => absurd hs (SymbolSet.not_mem_empty _)
      obtain ⟨gather, sound', -⟩ := ih ⟨expandable, members⟩ started
      refine ⟨.firstGathered absent expandable ?_, sound', sound'.firstAt⟩
      rw [Grammar.productionsFor_erased]
      exact gather
  | gatherFirstEnd => exact ⟨.gatherFirstEnd, sound, trivial⟩
  | @gatherFirstNext s p ps first m m₁ m' opened opened' _ _ ih ih' =>
      obtain ⟨expandable, members⟩ := searches
      obtain ⟨member, hlhs⟩ := members p List.mem_cons_self
      obtain ⟨rhs, sound₁, vanishes⟩ := ih ⟨wf.filled p member, sheltered p member⟩ sound
      have sound₂ : (m₁.addFirst s first).VanishSound g := by
        refine sound₁.addFirst fun hs => ?_
        rw [← hlhs] at expandable ⊢
        exact .production member expandable (vanishes hs)
      obtain ⟨more, sound', -⟩ :=
        ih' ⟨expandable, fun q hq => members q (List.mem_cons_of_mem _ hq)⟩ sound₂
      exact ⟨.gatherFirstNext rhs more, sound', trivial⟩
  | rhsEmpty => exact absurd rfl searches.1
  | @rhsFilled rhs found m m' opened filled _ ih =>
      obtain ⟨run, sound', vanishes⟩ := ih searches.2 sound
      refine ⟨?_, sound', fun hs => (vanishes hs).resolve_left (SymbolSet.not_mem_empty _)⟩
      by_cases hnil : properSymbols rhs = []
      · -- the empty symbol alone gives what no symbols at all give
        rw [Job.erased, hnil] at run
        cases run
        rw [Job.erased, erasedRhs_of_eq_nil hnil]
        exact .rhsFilled (by simp) (.sequenceEmpty rfl)
      · rw [Job.erased, erasedRhs_of_ne_nil hnil]
        exact .rhsFilled hnil run
  | sequenceEnd => exact ⟨.sequenceEnd, sound, fun _ => .inr .nil⟩
  | @sequenceEmpty s rest found m empty =>
      subst empty
      -- what is left behind the empty symbol are empty symbols
      have behind : properSymbols rest = [] := searches.properSymbols_eq_nil
      refine ⟨?_, sound, fun _ => .inr ?_⟩
      · rw [Job.erased, properSymbols_empty_cons, behind]
        exact .sequenceEnd
      · have vanishes : InFirstOf g (properSymbols rest) Symbol.empty := by
          rw [behind]
          exact .nil
        exact .empty (inFirstOf_filter.1 vanishes)
  | @sequenceLast s rest found first m m' opened proper _ hides ih =>
      obtain ⟨head, sound', -⟩ := ih trivial sound
      refine ⟨?_, sound', fun hs => .inl ?_⟩
      · rw [Job.erased, properSymbols_cons proper]
        exact .sequenceLast proper head hides
      · simpa using hs
  | @sequenceNext s rest found first result m m₁ m' opened opened' proper _ vanishes _ ih ih' =>
      obtain ⟨head, sound₁, told⟩ := ih trivial sound
      have hs := told vanishes
      obtain ⟨tail, sound', told'⟩ := ih' (searches.tail proper hs) sound₁
      refine ⟨?_, sound', fun ht => ?_⟩
      · rw [Job.erased, properSymbols_cons proper]
        exact .sequenceNext proper head vanishes tail
      · refine (told' ht).imp (fun hfound => ?_) fun hrest => .tail proper hs hrest
        simpa using hfound
  | followKnown entry => exact ⟨.followKnown entry, sound, trivial⟩
  | @followGathered s m m' opened absent _ ih =>
      have members : ∀ p ∈ g.productionsWith s, p ∈ g.productionList := fun p hp =>
        (Grammar.mem_productionsWith.1 hp).1
      obtain ⟨gather, sound', -⟩ := ih ⟨searches, members⟩ sound
      refine ⟨.followGathered absent ?_, sound', trivial⟩
      rw [Grammar.productionsWith_erased g searches]
      exact gather
  | gatherFollowEnd => exact ⟨.gatherFollowEnd, sound, trivial⟩
  | @gatherFollowNext s p ps m m₁ m' opened opened' _ _ ih ih' =>
      obtain ⟨proper, members⟩ := searches
      have member := members p List.mem_cons_self
      obtain ⟨uses, sound₁, -⟩ := ih ⟨proper, noRule p member⟩ sound
      obtain ⟨more, sound', -⟩ :=
        ih' ⟨proper, fun q hq => members q (List.mem_cons_of_mem _ hq)⟩ sound₁
      refine ⟨.gatherFollowNext ?_ more, sound', trivial⟩
      rw [Production.erased_rhs, restsAfter_erasedRhs proper]
      exact uses
  | usesEnd => exact ⟨.usesEnd, sound, trivial⟩
  | usesSkip _ ends _ ih ih' =>
      obtain ⟨use, sound₁, -⟩ := ih trivial sound
      obtain ⟨more, sound', -⟩ := ih' searches sound₁
      exact ⟨.usesSkip use ends more, sound', trivial⟩
  | usesFlow _ other _ _ ih ih₁ ih' =>
      obtain ⟨use, sound₁, -⟩ := ih trivial sound
      obtain ⟨flow, sound₂, -⟩ := ih₁ searches.2 sound₁
      obtain ⟨more, sound', -⟩ := ih' searches sound₂
      exact ⟨.usesFlow use other flow more, sound', trivial⟩
  | restEnd => exact ⟨.restEnd, sound, trivial⟩
  | restEmpty empty _ ih =>
      obtain ⟨more, sound', -⟩ := ih trivial sound
      refine ⟨?_, sound', trivial⟩
      rw [Job.erased, empty, properSymbols_empty_cons]
      exact more
  | restLast proper _ hides ih =>
      obtain ⟨head, sound', -⟩ := ih trivial sound
      refine ⟨?_, sound', trivial⟩
      rw [Job.erased, properSymbols_cons proper]
      exact .restLast proper head hides
  | restNext proper _ vanishes _ ih ih' =>
      obtain ⟨head, sound₁, -⟩ := ih trivial sound
      obtain ⟨more, sound', -⟩ := ih' trivial sound₁
      refine ⟨?_, sound', trivial⟩
      rw [Job.erased, properSymbols_cons proper]
      exact .restNext proper head vanishes more
  | _ => exact searches.elim

end Predictive
