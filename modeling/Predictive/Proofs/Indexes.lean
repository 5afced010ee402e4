import Predictive.Proofs.PrintedRules
import Predictive.Proofs.Reloadability
import Predictive.Proofs.ValueAnswers
import Mathlib.Logic.Relation

/-!
# Indexes of a grammar

A grammar answers from indexes that are built once: the productions of a symbol and those that use
it, the terminals, the nonterminals and the names of lexical rules. They agree with searches through
the productions and the lexical rules (`AnyGrammar.indexes_agree`), in a grammar that was read and
in what is read of its archive any number of times: reading an archive keeps the productions
(`AnyGrammar.productions_of_reloaded`), and what a grammar answers about them depends on nothing
else (`AnyGrammar.indexes_of_parts`).

The lexical rules are kept too, unless some pattern is the key that marks a record. Then they are
taken for a production, and their names are lost: those of `marked` are.
-/

set_option autoImplicit false

namespace Predictive

open OrderedMap (lookupEntry)
open Unchecked.Grammar (productionDatum productionsDatum)
open Archive (recordKey revive plain numbered?_map)

/-! ## Lists of what occurs -/

section Once

variable {α : Type}

/-- The listed elements are those of the list, each once, in the order in which they first occur. -/
structure ListsOnce [DecidableEq α] (all listed : List α) : Prop where
  members : ∀ x, x ∈ listed ↔ x ∈ all
  /-- No place is that of two listed elements, so none of them is listed twice. -/
  ordered : listed.Pairwise fun x y => all.idxOf x < all.idxOf y

theorem listsOnce_distinct [DecidableEq α] (xs : List α) : ListsOnce xs (distinct xs) where
  members x := mem_distinct
  ordered := by
    induction xs using List.reverseRecOn with
    | nil => simp [distinct, distinctFrom]
    | append_singleton xs x ih =>
        -- what is listed stands in the front, where its places stay
        have front : (distinct xs).Pairwise fun y z =>
            (xs ++ [x]).idxOf y < (xs ++ [x]).idxOf z := by
          apply ih.imp_of_mem
          intro y z hy hz hyz
          rwa [List.idxOf_append_of_mem (mem_distinct.1 hy),
            List.idxOf_append_of_mem (mem_distinct.1 hz)]
        rw [distinct_concat]
        by_cases hx : x ∈ xs
        · rw [if_pos hx]
          exact front
        · rw [if_neg hx, List.pairwise_append]
          refine ⟨front, List.pairwise_singleton _ _, ?_⟩
          intro y hy z hz
          obtain rfl := List.mem_singleton.1 hz
          have hplace := List.idxOf_lt_length_of_mem (mem_distinct.1 hy)
          rw [List.idxOf_append_of_mem (mem_distinct.1 hy), List.idxOf_append_of_notMem hx]
          exact Nat.lt_add_right _ hplace

/-- Keys that cover a list, each once, part it into the groups of its elements. -/
theorem perm_flatMap_filter {κ : Type} [DecidableEq κ] (key : α → κ) {keys : List κ}
    {xs : List α} (once : keys.Nodup) (covered : ∀ x ∈ xs, key x ∈ keys) :
    (keys.flatMap fun k => xs.filter fun x => key x = k).Perm xs := by
  induction keys generalizing xs with
  | nil =>
      have hnil : xs = [] :=
        List.eq_nil_iff_forall_not_mem.2 fun x hx => List.not_mem_nil (covered x hx)
      rw [hnil]
      exact .refl _
  | cons k keys ih =>
      rw [List.nodup_cons] at once
      -- the groups of the other keys are those of the elements that remain
      have remaining : ∀ x ∈ xs.filter (fun x => !decide (key x = k)), key x ∈ keys := by
        intro x hx
        obtain ⟨hxs, hne⟩ := List.mem_filter.1 hx
        exact (List.mem_cons.1 (covered x hxs)).resolve_left (by simpa using hne)
      have same : (keys.flatMap fun l => (xs.filter fun x => !decide (key x = k)).filter
          fun x => key x = l) = keys.flatMap fun l => xs.filter fun x => key x = l := by
        apply List.flatMap_congr
        intro l hl
        have hne : l ≠ k := fun e => once.1 (e ▸ hl)
        rw [List.filter_filter]
        apply List.filter_congr
        intro x _
        by_cases hx : key x = l <;> simp [hx, hne]
      rw [List.flatMap_cons, ← same]
      exact ((ih once.2 remaining).append_left _).trans (List.filter_append_perm _ xs)

end Once

/-! ## Grammars of either kind -/

/-- The rules as productions, numbered from one in their order. -/
def numbered (rules : List Rule) : List Production :=
  rules.mapIdx fun i r => ⟨(i + 1 : Nat), r.lhs, r.rhs⟩

/-- The value that an input is read from. -/
def AnyInput.value? : AnyInput → Option Datum
  | .given (.value d) => some d
  | .given (.file text) => some (.text text)
  | _ => none

/-- The lines of the input describe these rules, in this order. -/
def AnyInput.Declares (input : AnyInput) (rules : List Rule) : Prop :=
  ∃ d source lines, input.value? = some d ∧ Grammar.sourceOfDatum d = .ok source ∧
    Grammar.ruleLines source.rules = .ok lines ∧
    RuleLine.Written none (RuleLine.visibleLines lines) rules

namespace AnyGrammar

/-- The values that a grammar is made of. -/
def parts : AnyGrammar → Unchecked.Grammar
  | .checked g => .ofChecked g
  | .unchecked g => g

/-- One grammar is what is read of the archive of the other one. -/
def Reloads (g g' : AnyGrammar) : Prop :=
  g.reload = .ok g'

/-- The grammar lists these productions, and gives those of them that are asked for. -/
structure Scans (g : AnyGrammar) (ps : List Production) : Prop where
  listed : g.productionList = .ok (ps.map productionDatum)
  counted : g.size = .ok ps.length
  found : ∀ n : Int, g.findProduction (.int n) =
    match ps.find? fun p => p.number = n with
    | some p => .ok (productionDatum p)
    | none => .error (.grammar (.noSuchProduction (.int n)))
  productionsFor : ∀ s, g.productionsFor s = .ok ((ps.filter fun p => p.lhs = s).map productionDatum)
  productionsWith : ∀ s,
    g.productionsWith s = .ok ((ps.filter fun p => s ∈ p.rhs).map productionDatum)

/-- The productions are numbered from one without gaps, the terminals and the nonterminals are those
that a search through them finds, and the productions of the nonterminals part them. -/
structure Indexes (g : AnyGrammar) (ps : List Production) : Prop extends Scans g ps where
  gapless : ps.map (·.number) = (List.range' 1 ps.length).map Int.ofNat
  terminals : ∃ ts, g.terminals = .ok (ts.map .text) ∧
    ListsOnce (ps.flatMap fun p => p.rhs.filter Symbol.isTerminal) ts
  nonterminals : ∃ (ns : List Symbol) (groups : List (List Production)),
    g.nonterminals = .ok (ns.map .text) ∧ ListsOnce (ps.map (·.lhs)) ns ∧
    ns.mapM (fun s => g.productionsFor s) = .ok (groups.map fun ps => ps.map productionDatum) ∧
    [] ∉ groups ∧ groups.flatten.Perm ps

/-- Of lexical rules with these entries, those names that are no terminals can be asked for in the
grammar itself, and in what is read of archives just when no pattern is the key that marks a record.
They are listed once each, in the order in which they first occur. -/
structure KeepsNames (g g' : AnyGrammar) (entries : List (Datum × Datum)) (names : List Symbol) :
    Prop where
  answers : (∃ vs, g'.lexicalVariables = .ok vs) ↔ g' = g ∨ .text recordKey ∉ entries.map (·.1)
  rules : ∀ vs, g'.lexicalVariables = .ok vs → g'.lexicalRules = .ok entries
  listed : ∀ vs, g'.lexicalVariables = .ok vs → ∃ vars : List Symbol, vs = vars.map .text ∧
    ListsOnce (names.filter fun s => !Symbol.isTerminal s) vars

variable {g g' : AnyGrammar} {m : OrderedMap Int Production}

/-! ## Answers about productions -/

theorem productionDatum_injective : Function.Injective productionDatum := by
  intro p q h
  have hp := Archive.production?_productionDatum p
  rw [h, Archive.production?_productionDatum] at hp
  exact (Option.some.inj hp).symm

theorem productionsDatum_injective {m m' : OrderedMap Int Production}
    (h : productionsDatum m = productionsDatum m') : m = m' := by
  have hentries := (numbered?_map m.entries).symm.trans
    ((congrArg Unchecked.Grammar.numbered? (Datum.dict.inj h)).trans (numbered?_map m'.entries))
  exact OrderedMap.eq_of_entries (Option.some.inj hentries)

/-- Productions under their own numbers are looked up as a search through them finds them. -/
theorem lookupEntry_eq_find? {es : List (Int × Production)}
    (own : ∀ e ∈ es, e.2.number = e.1) (n : Int) :
    lookupEntry n es = (es.map (·.2)).find? fun p => p.number = n := by
  induction es with
  | nil => rfl
  | cons e es ih =>
      rw [lookupEntry, List.map_cons, List.find?_cons, own e List.mem_cons_self,
        ih fun e' he' => own e' (List.mem_cons_of_mem e he')]
      by_cases hn : e.1 = n <;> simp [hn]

/-- A grammar of either kind gives those of its productions that a search finds. -/
theorem scans_of_parts (h : g.parts.productions = productionsDatum m)
    (own : ∀ e ∈ m.entries, e.2.number = e.1) : g.Scans m.values := by
  cases g with
  | checked g =>
      obtain rfl := productionsDatum_injective h
      exact {
        listed := rfl
        counted := by
          rw [size, Grammar.size, OrderedMap.size, OrderedMap.values, List.length_map]
        found := by
          intro n
          rw [OrderedMap.values, ← lookupEntry_eq_find? own, findProduction,
            Grammar.findProduction, if_pos (Datum.isKey_int n)]
          simp only [Datum.whole?, Option.bind_some, Grammar.production?, OrderedMap.get?]
          cases lookupEntry n g.productions.entries <;> rfl
        productionsFor := by
          intro s
          rw [productionsFor, Grammar.productionsFor_eq]
          rfl
        productionsWith := by
          intro s
          rw [productionsWith, Grammar.productionsWith_eq]
          rfl }
  | unchecked u =>
      exact {
        listed := Unchecked.Grammar.productionList_eq h
        counted := Unchecked.Grammar.size_eq h
        found := by
          intro n
          rw [OrderedMap.values, ← lookupEntry_eq_find? own]
          exact Unchecked.Grammar.findProduction_eq h n
        productionsFor := Unchecked.Grammar.productionsFor_eq h
        productionsWith := Unchecked.Grammar.productionsWith_eq h }

theorem terminals_of_parts (h : g.parts.productions = productionsDatum m) : g.terminals =
    .ok ((distinct (m.values.flatMap fun p => p.rhs.filter Symbol.isTerminal)).map .text) := by
  cases g with
  | checked g =>
      obtain rfl := productionsDatum_injective h
      rfl
  | unchecked u => exact Unchecked.Grammar.terminals_eq h

theorem nonterminals_of_parts (h : g.parts.productions = productionsDatum m) :
    g.nonterminals = .ok ((distinct (m.values.map (·.lhs))).map .text) := by
  cases g with
  | checked g =>
      obtain rfl := productionsDatum_injective h
      rfl
  | unchecked u => exact Unchecked.Grammar.nonterminals_eq h

/-- The indexes of a grammar depend on its productions only. -/
theorem indexes_of_parts (h : g.parts.productions = productionsDatum m)
    (own : ∀ e ∈ m.entries, e.2.number = e.1)
    (gapless : m.values.map (·.number) = (List.range' 1 m.values.length).map Int.ofNat) :
    g.Indexes m.values where
  toScans := scans_of_parts h own
  gapless := gapless
  terminals := ⟨_, terminals_of_parts h, listsOnce_distinct _⟩
  nonterminals := by
    have hfor := (scans_of_parts h own).productionsFor
    refine ⟨_, (distinct (m.values.map (·.lhs))).map fun s => m.values.filter fun p => p.lhs = s,
      nonterminals_of_parts h, listsOnce_distinct _, ?_, ?_, ?_⟩
    · rw [funext hfor, List.map_map]
      exact List.mapM_pure
    · -- a nonterminal is the left-hand side of some production
      intro hmem
      obtain ⟨s, hs, hnil⟩ := List.mem_map.1 hmem
      obtain ⟨p, hp, rfl⟩ := List.mem_map.1 (mem_distinct.1 hs)
      exact List.not_mem_nil (hnil ▸ List.mem_filter.2 ⟨hp, by simp⟩)
    · rw [← List.flatMap_def]
      apply perm_flatMap_filter _ (nodup_distinct _)
      intro p hp
      exact mem_distinct.2 (List.mem_map_of_mem hp)

/-! ## Grammars that are read -/

/-- The productions of rules that have right-hand sides are the rules with their numbers. -/
theorem map_snd_number {rules : List Rule} (written : ∀ r ∈ rules, r.rhs ≠ []) (first : Nat) :
    (Grammar.number first rules).map (·.2) =
      rules.mapIdx fun i r => ⟨(i + first : Nat), r.lhs, r.rhs⟩ := by
  induction rules generalizing first with
  | nil => rfl
  | cons r rules ih =>
      rw [Grammar.number, List.map_cons, List.mapIdx_cons, Production.of,
        if_neg (written r List.mem_cons_self), Nat.zero_add,
        ih fun r' hr' => written r' (List.mem_cons_of_mem r hr')]
      simp only [Nat.add_assoc, Nat.add_comm 1]

theorem gapless_numbered (rules : List Rule) :
    (numbered rules).map (·.number) = (List.range' 1 (numbered rules).length).map Int.ofNat := by
  apply List.ext_getElem (by simp)
  intro i hi hi'
  simp [numbered, Nat.add_comm]

/-- Entries of which some pattern or name is no text are no lexicon. -/
theorem ofValue?_of_read {d : Datum} {entries : List (Datum × Datum)}
    (h : Lexicon.read d = .ok (.untyped entries)) : Lexicon.ofValue? (.dict entries) = none := by
  have lines (ls : List (List Char)) : Lexicon.ofLines ls ≠ .ok (.untyped entries) := by
    rw [Lexicon.ofLines]
    split <;> simp
  have given (es : List (Datum × Datum)) (hes : Lexicon.rulesOf es = .untyped entries) :
      Lexicon.ofValue? (.dict entries) = none := by
    rw [Lexicon.rulesOf] at hes
    split at hes
    · exact absurd hes (by simp)
    · next hnone =>
        cases hes
        exact hnone
  -- one case for each form that lexical rules may be given in
  rw [Lexicon.read.eq_def] at h
  split at h
  · exact absurd (Except.ok.inj h) (by simp)
  · exact given _ (Except.ok.inj h)
  · exact absurd h (lines _)
  · exact absurd h (lines _)
  · exact absurd h (by simp)
  · split at h
    · exact absurd h (by simp)
    · split at h
      · exact absurd h (lines _)
      · split at h
        · exact given _ (Except.ok.inj h)
        · exact absurd h (by simp)

theorem declares_of_rulesOfDatum {input : AnyInput} {d : Datum} {source : Source}
    {rules : List Rule} (hvalue : input.value? = some d)
    (hsource : Grammar.sourceOfDatum d = .ok source)
    (hrules : Grammar.rulesOfDatum source.rules = .ok rules) : input.Declares rules := by
  obtain ⟨lines, hlines, hread⟩ := Grammar.rulesOfDatum_eq_ok_iff.1 hrules
  exact ⟨d, source, lines, hvalue, hsource, hlines, (RuleLine.readRules_eq_ok_iff.1 hread).2⟩

theorem written_of_declares {input : AnyInput} {rules : List Rule} (h : input.Declares rules) :
    ∀ r ∈ rules, r.rhs ≠ [] := by
  obtain ⟨d, source, lines, -, -, -, hwritten⟩ := h
  exact fun r hr => (Rule.readable_of_written hwritten r hr).written

/-- The lexical rules are no value, or a dictionary that stays as it is when it is checked. -/
def Settled (lexicon : Datum) : Prop :=
  (lexicon = .null ∨ ∃ entries, lexicon = .dict entries) ∧
    ∀ l, Lexicon.ofValue? lexicon = some l → l.toDatum = lexicon

theorem settled_toDatum (l : Lexicon) : Settled l.toDatum := by
  refine ⟨?_, ?_⟩
  · cases l with
    | inferred => exact .inl rfl
    | declared rules => exact .inr ⟨_, rfl⟩
  · intro l' hl'
    rw [Archive.ofValue?_toDatum] at hl'
    rw [Option.some.inj hl']

/-- A checked grammar that was read is made of the rules that were declared. -/
theorem exists_declared_of_ofDatum {input : AnyInput} {d : Datum} {g : Grammar}
    (hvalue : input.value? = some d) (h : Grammar.ofDatum d = .ok g) :
    ∃ rules, input.Declares rules ∧
      (checked g).parts.productions =
        productionsDatum (OrderedMap.ofList (Grammar.number 1 rules)) ∧
      Settled (checked g).parts.lexicon := by
  obtain ⟨source, hsource, h⟩ := exists_of_bind_eq_ok h
  obtain ⟨lexicon, -, h⟩ := exists_of_bind_eq_ok h
  obtain ⟨rules, hrules, h⟩ := exists_of_bind_eq_ok h
  obtain rfl := Except.ok.inj h
  exact ⟨rules, declares_of_rulesOfDatum hvalue hsource hrules, rfl, settled_toDatum lexicon⟩

/-- A grammar that was read, checked or not, is made of the rules that were declared. -/
theorem exists_declared_of_read {input : AnyInput} (h : read input = .ok g) :
    ∃ rules, input.Declares rules ∧
      g.parts.productions = productionsDatum (OrderedMap.ofList (Grammar.number 1 rules)) ∧
      Settled g.parts.lexicon := by
  -- only a value or a file is read; a finished grammar declares nothing
  match input, h with
  | .given (.value d), h =>
      obtain ⟨⟨g', log⟩, hmade, h⟩ := exists_of_bind_eq_ok h
      obtain rfl := Except.ok.inj h
      obtain ⟨source, hsource, hmade⟩ := exists_of_bind_eq_ok hmade
      obtain ⟨given, hgiven, hmade⟩ := exists_of_bind_eq_ok hmade
      cases given with
      | lexicon l =>
          obtain ⟨g, hg, hmade⟩ := exists_of_bind_eq_ok hmade
          obtain ⟨rfl, -⟩ := Prod.mk.inj (Except.ok.inj hmade)
          exact exists_declared_of_ofDatum rfl hg
      | untyped entries =>
          obtain ⟨rules, hrules, hmade⟩ := exists_of_bind_eq_ok hmade
          obtain ⟨warnings, -, hmade⟩ := exists_of_bind_eq_ok hmade
          obtain ⟨rfl, -⟩ := Prod.mk.inj (Except.ok.inj hmade)
          refine ⟨rules, declares_of_rulesOfDatum rfl hsource hrules, rfl, .inr ⟨entries, rfl⟩, ?_⟩
          intro l hl
          exact absurd ((ofValue?_of_read hgiven).symm.trans hl) (by simp)
  | .given (.file text), h =>
      obtain ⟨g', hread, h⟩ := exists_of_bind_eq_ok h
      obtain rfl := Except.ok.inj h
      exact exists_declared_of_ofDatum rfl hread
  | .given (.grammar g'), h => exact absurd h (by simp [read, Grammar.read, bind, Except.bind])
  | .unchecked u, h => exact absurd h (by simp [read])

/-! ## Grammars that are read from their archives -/

/-- A checked grammar is made of the values that were checked. -/
theorem of_checked? {v : Unchecked.Grammar} {c : Predictive.Grammar} (h : v.checked? = some c) :
    (∃ entries numbered, v.productions = .dict entries ∧
      Unchecked.Grammar.numbered? entries = some numbered ∧
      c.productions = OrderedMap.ofList numbered) ∧
    Lexicon.ofValue? v.lexicon = some c.lexicon := by
  rw [Unchecked.Grammar.checked?] at h
  split at h
  · next entries start hproductions hstart =>
      simp only [Option.bind_eq_bind, Option.bind_eq_some_iff] at h
      obtain ⟨numbered, hnumbered, lexicon, hlexicon, h⟩ := h
      obtain rfl := Option.some.inj h
      exact ⟨⟨entries, numbered, hproductions, hnumbered, rfl⟩, hlexicon⟩
  · exact absurd h (by simp)

/-- What is read of an archive has the productions that were written, and the lexical rules that can
be read of those that were written if they stay as they are when they are checked. -/
theorem Reloads.parts (h : g.Reloads g') :
    (∀ m, g.parts.productions = productionsDatum m → g'.parts.productions = productionsDatum m) ∧
      ∃ lexicon, revive true (plain g.parts.lexicon) = .ok lexicon ∧
        ((∀ l, Lexicon.ofValue? lexicon = some l → l.toDatum = lexicon) →
          g'.parts.lexicon = lexicon) := by
  have harchive : g.toArchive = Archive.ofUnchecked g.parts := by cases g <;> rfl
  rw [Reloads, reload, harchive] at h
  obtain ⟨d, hd, h⟩ := exists_of_bind_eq_ok h
  obtain ⟨-, rfl⟩ := Archive.ofUnchecked_eq_ok_iff.1 hd
  obtain ⟨v, hv, h⟩ := exists_of_bind_eq_ok h
  obtain ⟨hproductions, -, hlexicon, -, -⟩ := Archive.revive_of_toUnchecked hv
  obtain rfl := Except.ok.inj h
  have same (m) (hm : g.parts.productions = productionsDatum m) :
      v.productions = productionsDatum m := by
    rw [hm, Archive.revive_productionsDatum] at hproductions
    exact (Except.ok.inj hproductions).symm
  rw [ofUnchecked]
  -- parts that are well typed make a checked grammar again, which has the same parts
  cases hc : v.checked? with
  | none => exact ⟨same, v.lexicon, hlexicon, fun _ => rfl⟩
  | some c =>
      obtain ⟨⟨entries, numbered, hentries, hnumbered, hc⟩, hl⟩ := of_checked? hc
      refine ⟨?_, v.lexicon, hlexicon, fun settled => settled _ hl⟩
      intro m hm
      have hdict := hentries.symm.trans (same m hm)
      rw [Datum.dict.inj hdict, numbered?_map] at hnumbered
      obtain rfl := Option.some.inj hnumbered
      show productionsDatum c.productions = _
      rw [hc, Archive.ofList_entries]

/-- Reading again keeps the productions. -/
theorem productions_of_reloaded (h : Relation.ReflTransGen Reloads g g')
    (hm : g.parts.productions = productionsDatum m) :
    g'.parts.productions = productionsDatum m := by
  induction h with
  | refl => exact hm
  | tail _ step ih => exact step.parts.1 m ih

/-! ## Lexical rules -/

variable {entries : List (Datum × Datum)} {names : List Symbol}

theorem lookupEntry_text_eq_none_iff {key : String} :
    lookupEntry (.text key) entries = none ↔ .text key ∉ entries.map (·.1) := by
  induction entries with
  | nil => simp [lookupEntry]
  | cons e entries ih =>
      rw [lookupEntry, List.map_cons, List.mem_cons, not_or, ← ih]
      by_cases hkey : (e.1 == .text key) = true
      · rw [if_pos hkey]
        simp [Datum.beq_text_iff.1 hkey]
      · have hne : ¬ .text key = e.1 := fun h => hkey (Datum.beq_text_iff.2 h.symm)
        rw [if_neg hkey]
        exact (and_iff_right hne).symm

/-- Lexical rules whose names are texts are written as they are, and read as they were unless some
pattern is the key that marks a record. -/
theorem revive_texts (texts : entries.map (·.2) = names.map .text)
    (unmarked : .text recordKey ∉ entries.map (·.1)) :
    revive true (plain (.dict entries)) = .ok (.dict entries) := by
  have text {e : Datum × Datum} (he : e ∈ entries) : ∃ s, e.2 = .text s := by
    have hname : e.2 ∈ names.map Datum.text := texts ▸ List.mem_map_of_mem he
    obtain ⟨s, -, hs⟩ := List.mem_map.1 hname
    exact ⟨s, hs.symm⟩
  -- names are texts, so neither archiving nor reviving changes them
  have hplain : plain (.dict entries) = .dict entries := by
    rw [plain, Archive.plainEntries_eq_map]
    refine congrArg Datum.dict ((List.map_congr_left fun e he => ?_).trans (List.map_id _))
    obtain ⟨s, hs⟩ := text he
    rw [hs, plain, ← hs]
    rfl
  have hbare : Archive.bare (.dict entries) = true := by
    rw [Archive.bare, Bool.and_eq_true, Option.isNone_iff_eq_none, lookupEntry_text_eq_none_iff,
      Archive.bareEntries_iff]
    refine ⟨unmarked, fun e he => ?_⟩
    obtain ⟨s, hs⟩ := text he
    rw [hs]
    rfl
  exact (Archive.revive_plain_of_bare true hbare).2.trans (congrArg Except.ok hplain)

/-- The lexical rules were taken for a production. -/
def Mistaken (g : AnyGrammar) : Prop :=
  ∃ number lhs rhs, g.parts.lexicon = .production number lhs rhs

/-- What can only be read as a production makes lexical rules that are mistaken. -/
theorem Reloads.mistaken (h : g.Reloads g')
    (record : ∀ d, revive true (plain g.parts.lexicon) = .ok d →
      ∃ number lhs rhs, d = .production number lhs rhs) : g'.Mistaken := by
  obtain ⟨-, d, hd, hparts⟩ := h.parts
  obtain ⟨number, lhs, rhs, rfl⟩ := record d hd
  exact ⟨number, lhs, rhs, hparts fun l hl => absurd hl (by simp [Lexicon.ofValue?])⟩

theorem Mistaken.reloaded (h : g.Mistaken) (run : Relation.ReflTransGen Reloads g g') :
    g'.Mistaken := by
  induction run with
  | refl => exact h
  | tail _ step ih =>
      apply step.mistaken
      obtain ⟨number, lhs, rhs, hlexicon⟩ := ih
      intro d hd
      -- a production is written as a record
      rw [hlexicon, Archive.plain_production] at hd
      have hrecord := Archive.revive_dict_of_some
        (Archive.lookupEntry_productionEntries _ _ _) hd
      exact Archive.exists_of_production_eq_ok hrecord.2

/-- Lexical rules that were taken for a production have no names. -/
theorem Mistaken.lexicalVariables_ne (h : g.Mistaken) (vs : List Datum) :
    g.lexicalVariables ≠ .ok vs := by
  obtain ⟨number, lhs, rhs, hlexicon⟩ := h
  cases g with
  | checked g =>
      obtain ⟨productions, start, lexicon, source⟩ := g
      cases lexicon <;> cases hlexicon
  | unchecked u =>
      change u.lexicon = _ at hlexicon
      rw [lexicalVariables, Unchecked.Grammar.lexicalVariables, Unchecked.Grammar.lexicalRules,
        hlexicon]
      simp [Unchecked.values, Unchecked.entries, bind, Except.bind]

theorem lexicalRules_of_dict (h : g.parts.lexicon = .dict entries) :
    g.lexicalRules = .ok entries := by
  cases g with
  | checked g =>
      obtain ⟨productions, start, lexicon, source⟩ := g
      cases lexicon with
      | inferred => cases h
      | declared rules => exact congrArg Except.ok (Datum.dict.inj h)
  | unchecked u =>
      change u.lexicon = _ at h
      rw [lexicalRules, Unchecked.Grammar.lexicalRules, h]
      rfl

/-- Without lexical rules every terminal matches itself. -/
theorem lexicalRules_of_null (hm : g.parts.productions = productionsDatum m)
    (h : g.parts.lexicon = .null) : g.lexicalRules =
      .ok ((distinct (m.values.flatMap fun p => p.rhs.filter Symbol.isTerminal)).map fun t =>
        (.text t, .text t)) := by
  cases g with
  | checked g =>
      obtain ⟨productions, start, lexicon, source⟩ := g
      obtain rfl := productionsDatum_injective hm
      cases lexicon with
      | declared rules => cases h
      | inferred =>
          -- no terminal comes twice, so every one of them gets its own entry
          have once {ts : List Symbol} (hts : ts.Nodup) : (ts.map fun t => (t, t)).Pairwise
              fun x y => (x.1 == y.1) = false :=
            List.pairwise_map.2 (hts.imp fun h => beq_eq_false_iff_ne.2 h)
          have hentries := OrderedMap.entries_ofList (once (nodup_distinct
            (productions.values.flatMap fun p => p.rhs.filter Symbol.isTerminal)))
          refine congrArg Except.ok ((congrArg (List.map _) hentries).trans ?_)
          rw [List.map_map]
          rfl
  | unchecked u =>
      change u.lexicon = _ at h
      have hterminals : u.terminals = _ := terminals_of_parts hm
      rw [lexicalRules, Unchecked.Grammar.lexicalRules, h]
      simp only [hterminals, bind, Except.bind, Unchecked.entries, List.map_map]
      rfl

/-- The names that are no terminals are listed once each. -/
theorem lexicalVariables_of_texts (h : g.lexicalRules = .ok entries)
    (texts : entries.map (·.2) = names.map .text) : g.lexicalVariables =
      .ok ((distinct (names.filter fun s => !Symbol.isTerminal s)).map .text) := by
  cases g with
  | checked g =>
      rw [lexicalRules, Except.ok.injEq] at h
      have hnames : g.lexicalRules.values = names := by
        rw [← h, List.map_map] at texts
        apply List.map_injective_iff.2 fun s t hst => Datum.text.inj hst
        rw [← texts, OrderedMap.values, List.map_map]
        rfl
      rw [lexicalVariables, Grammar.lexicalVariables, hnames]
  | unchecked u =>
      apply Unchecked.Grammar.lexicalVariables_eq
      obtain ⟨d, hd, hentries⟩ := exists_of_bind_eq_ok h
      rw [hd, ← texts]
      show Unchecked.values d = _
      rw [Unchecked.values, hentries]
      rfl

/-- The lexical rules of a grammar that was read are those of the terminals or the entries that came
with it. -/
theorem exists_lexicalRules (hm : g.parts.productions = productionsDatum m)
    (settled : Settled g.parts.lexicon) : ∃ entries, g.lexicalRules = .ok entries ∧
      (g.parts.lexicon = .null ∧ .text recordKey ∉ entries.map (·.1) ∨
        g.parts.lexicon = .dict entries) := by
  rcases settled.1 with hnull | ⟨entries, hdict⟩
  · refine ⟨_, lexicalRules_of_null hm hnull, .inl ⟨hnull, ?_⟩⟩
    rw [List.map_map, List.mem_map]
    rintro ⟨t, ht, hkey⟩
    -- the key of a record is no terminal
    obtain ⟨p, -, hp⟩ := List.mem_flatMap.1 (mem_distinct.1 ht)
    have hterminal := (List.mem_filter.1 hp).2
    rw [Datum.text.inj hkey] at hterminal
    exact absurd hterminal (by decide)
  · exact ⟨entries, lexicalRules_of_dict hdict, .inr hdict⟩

/-- What can be read as it was written stays through all readings. -/
theorem lexicon_of_reloaded (run : Relation.ReflTransGen Reloads g g') {d : Datum}
    (hd : g.parts.lexicon = d) (settled : Settled d) (back : revive true (plain d) = .ok d) :
    g'.parts.lexicon = d := by
  induction run with
  | refl => exact hd
  | tail _ step ih =>
      obtain ⟨-, d', hd', hparts⟩ := step.parts
      rw [ih, back] at hd'
      obtain rfl := Except.ok.inj hd'
      exact hparts settled.2

/-- The lexical rules stay as they are unless some pattern is the key that marks a record; then they
are taken for a production when the archive is read. -/
theorem lexicalRules_of_reloaded (hm : g.parts.productions = productionsDatum m)
    (settled : Settled g.parts.lexicon) (h : g.lexicalRules = .ok entries)
    (texts : entries.map (·.2) = names.map .text) (run : Relation.ReflTransGen Reloads g g') :
    (.text recordKey ∉ entries.map (·.1) ∧ g'.lexicalRules = .ok entries) ∨
      (.text recordKey ∈ entries.map (·.1) ∧ (g' = g ∨ g'.Mistaken)) := by
  obtain ⟨entries', h', hlexicon⟩ := exists_lexicalRules hm settled
  obtain rfl := Except.ok.inj (h'.symm.trans h)
  have hm' := productions_of_reloaded run hm
  rcases hlexicon with ⟨hnull, unmarked⟩ | hdict
  · have hnull' := lexicon_of_reloaded run hnull (hnull ▸ settled) rfl
    refine .inl ⟨unmarked, ?_⟩
    rw [lexicalRules_of_null hm' hnull', ← lexicalRules_of_null hm hnull, h]
  · by_cases marked : .text recordKey ∈ entries'.map (·.1)
    · refine .inr ⟨marked, ?_⟩
      rcases run.cases_head with rfl | ⟨first, step, rest⟩
      · exact .inl rfl
      · refine .inr (Mistaken.reloaded (step.mistaken ?_) rest)
        intro d hd
        rw [hdict, plain] at hd
        -- the pattern is still among the keys when the rules are written
        have hisNone := Archive.lookupEntry_plainEntries_isNone (.text recordKey) entries'
        rw [Bool.eq_iff_iff, Option.isNone_iff_eq_none, Option.isNone_iff_eq_none] at hisNone
        obtain ⟨kind, hkind⟩ := Option.ne_none_iff_exists'.1 fun hnone =>
          lookupEntry_text_eq_none_iff.1 (hisNone.1 hnone) marked
        exact Archive.exists_of_production_eq_ok (Archive.revive_dict_of_some hkind hd).2
    · have hdict' := lexicon_of_reloaded run hdict (hdict ▸ settled) (revive_texts texts marked)
      exact .inl ⟨marked, lexicalRules_of_dict hdict'⟩

/-- Rules that stay as they are answer with their names, and mistaken ones do not answer. -/
theorem keepsNames_of_reloaded (hm : g.parts.productions = productionsDatum m)
    (settled : Settled g.parts.lexicon) (h : g.lexicalRules = .ok entries)
    (texts : entries.map (·.2) = names.map .text) (run : Relation.ReflTransGen Reloads g g') :
    g.KeepsNames g' entries names := by
  have kept (hkept : g' = g ∨ .text recordKey ∉ entries.map (·.1))
      (h' : g'.lexicalRules = .ok entries) : g.KeepsNames g' entries names := by
    have hvs := lexicalVariables_of_texts h' texts
    refine ⟨iff_of_true ⟨_, hvs⟩ hkept, fun _ _ => h', ?_⟩
    intro vs hvs'
    exact ⟨_, Except.ok.inj (hvs'.symm.trans hvs), listsOnce_distinct _⟩
  -- either the rules come back, or the mark among the patterns made a record of them
  rcases lexicalRules_of_reloaded hm settled h texts run with
    ⟨unmarked, h'⟩ | ⟨marked, hsame | mistaken⟩
  · exact kept (.inr unmarked) h'
  · exact kept (.inl hsame) (hsame ▸ h)
  · have hne := mistaken.lexicalVariables_ne
    have refused : ¬ (g' = g ∨ .text recordKey ∉ entries.map (·.1)) := by
      rintro (rfl | unmarked)
      · exact hne _ (lexicalVariables_of_texts h texts)
      · exact unmarked marked
    refine ⟨iff_of_false ?_ refused, fun vs hvs => absurd hvs (hne vs),
      fun vs hvs => absurd hvs (hne vs)⟩
    rintro ⟨vs, hvs⟩
    exact hne vs hvs

/-! ## Indexes and scans -/

/-- The indexes of a grammar made of declared rules agree with searches through the numbered rules. -/
theorem indexes_of_declared {input : AnyInput} {rules : List Rule} (declared : input.Declares rules)
    (h : g.parts.productions = productionsDatum (OrderedMap.ofList (Grammar.number 1 rules))) :
    g.Indexes (numbered rules) := by
  have hentries : (OrderedMap.ofList (Grammar.number 1 rules)).entries = Grammar.number 1 rules :=
    OrderedMap.entries_ofList (Grammar.pairwise_number 1 rules)
  have hvalues : (OrderedMap.ofList (Grammar.number 1 rules)).values = numbered rules := by
    rw [OrderedMap.values, hentries]
    exact map_snd_number (written_of_declares declared) 1
  rw [← hvalues]
  apply indexes_of_parts h
  · rw [hentries]
    exact fun e he => (Grammar.fst_mem_number he).2.1
  · rw [hvalues]
    exact gapless_numbered rules

/-- Whatever grammar is read and however often it is read again from its archive, its productions
are the declared rules, numbered from one in their order, and its indexes hold what searches through
them find. Where the names of its lexical rules are texts, they are kept unless some pattern is the
key that marks a record. -/
theorem indexes_agree {input : AnyInput} (made : read input = .ok g)
    (reloaded : Relation.ReflTransGen Reloads g g') :
    ∃ rules, input.Declares rules ∧ g'.Indexes (numbered rules) ∧
      ∃ entries, g.lexicalRules = .ok entries ∧
        ∀ names : List Symbol, entries.map (·.2) = names.map .text →
          g.KeepsNames g' entries names := by
  obtain ⟨rules, declared, hm, settled⟩ := exists_declared_of_read made
  obtain ⟨entries, h, -⟩ := exists_lexicalRules hm settled
  refine ⟨rules, declared, ?_, entries, h, ?_⟩
  · apply indexes_of_declared declared
    exact productions_of_reloaded reloaded hm
  · intro names texts
    exact keepsNames_of_reloaded hm settled h texts reloaded

/-! ## Grammars that come back and that do not -/

/-- A grammar given with lexical rules is made of its rules and of these. -/
theorem read_fields {d given : Datum} {l : Lexicon} {rules : List Rule}
    (hrules : Grammar.rulesOfDatum d = .ok rules) (hlexicon : Lexicon.read given = .ok (.lexicon l)) :
    read (.given (.value (.ofFields [("bnf", d), ("lex", given)]))) =
      .ok (.checked (.ofRules rules l ⟨d, given⟩)) := by
  have hgrammar : Grammar.ofDatum (.ofFields [("bnf", d), ("lex", given)]) =
      .ok (.ofRules rules l ⟨d, given⟩) := by
    refine Grammar.ofDatum_fields_eq_ok_iff.2 ⟨l, rules, ?_, hrules, rfl⟩
    rw [Lexicon.ofDatum, hlexicon]
    rfl
  rw [read, ofDatum, Grammar.sourceOfDatum_fields, hgrammar]
  simp only [bind, Except.bind, hlexicon]

/-- Rules of two nonterminals that are mixed, with symbols that are used more than once. -/
def mixedRules : List Rule :=
  [⟨"S", ["T", "n", "T"]⟩, ⟨"T", ["\"x\""]⟩, ⟨"S", ["n", "\"x\""]⟩]

/-- Lexical rules of which two have one name. -/
def mixedLexicon : Lexicon :=
  .declared (.ofList [("[0-9]+", "n"), ("x", "\"x\""), ("[a-f]+", "n")])

/-- The lines of the mixed rules. -/
def mixedLines : List Datum := [.text "S -> T n T", .text "T -> \"x\"", .text "S -> n \"x\""]

/-- The grammar of the mixed rules, with the collection that its lines came in. -/
def mixed (lines : Datum) : AnyGrammar :=
  .checked (.ofRules mixedRules mixedLexicon ⟨lines, mixedLexicon.toDatum⟩)

/-- The lines that it is read from come back as a list, and its indexes hold the same as before. -/
theorem indexes_agree_mixed :
    read (.given (.value (.ofFields
      [("bnf", .tuple mixedLines), ("lex", mixedLexicon.toDatum)]))) =
        .ok (mixed (.tuple mixedLines)) ∧
    (mixed (.tuple mixedLines)).Reloads (mixed (.list mixedLines)) ∧
    (mixed (.list mixedLines)).Indexes (numbered mixedRules) ∧
    ∃ vars, (mixed (.list mixedLines)).lexicalVariables = .ok (vars.map .text) ∧
      ListsOnce ["n", "n"] vars := by
  have hrules : Grammar.rulesOfDatum (.tuple mixedLines) = .ok mixedRules := by
    apply eq_ok_of_toOption
    decide
  have hlexicon : Lexicon.read mixedLexicon.toDatum = .ok (.lexicon mixedLexicon) := rfl
  have made := read_fields hrules hlexicon
  have hpatterns : recordKey ∉ mixedLexicon.patterns := by decide
  have reloads : (mixed (.tuple mixedLines)).Reloads (mixed (.list mixedLines)) :=
    Archive.reload_checked_iff.2 ⟨⟨rfl, rfl⟩, hpatterns, (Archive.revive_plain_of_bare true rfl).2,
      Archive.revive_lexicon_iff.2 hpatterns⟩
  obtain ⟨rules, -, indexes, entries, h, lexical⟩ := indexes_agree made (.single reloads)
  have hlisted : (mixed (.list mixedLines)).productionList =
      .ok ((numbered mixedRules).map productionDatum) := rfl
  have hsame := List.map_injective_iff.2 productionDatum_injective
    (Except.ok.inj (indexes.listed.symm.trans hlisted))
  have hentries := Except.ok.inj (h.symm.trans (lexicalRules_of_dict rfl))
  have unmarked : .text recordKey ∉ entries.map (·.1) := by
    intro hmem
    rw [hentries, List.map_map] at hmem
    obtain ⟨e, he, hkey⟩ := List.mem_map.1 hmem
    exact hpatterns (List.mem_map.2 ⟨e, he, Datum.text.inj hkey⟩)
  have names := lexical ["n", "\"x\"", "n"] (hentries ▸ rfl)
  obtain ⟨vs, hvs⟩ := names.answers.2 (.inr unmarked)
  obtain ⟨vars, rfl, once⟩ := names.listed vs hvs
  exact ⟨made, reloads, hsame ▸ indexes, vars, hvs, once⟩

/-- Lexical rules of which one has the key that marks a record for its pattern, and the others the
parts of a production. -/
def markedLexicon : Lexicon :=
  .declared (.ofList [(recordKey, "Production"), ("number", "x"), ("lhs", "y"), ("rhs", "z")])

/-- The lines of the marked lexical rules. -/
def markedLines : Datum := .text "__type__ : Production\nnumber : x\nlhs : y\nrhs : z"

/-- A grammar with the marked lexical rules. -/
def marked : AnyGrammar :=
  .checked (.ofRules [⟨"S", ["\"a\""]⟩] markedLexicon ⟨.text "S -> \"a\"", markedLines⟩)

/-- What is read of its archive: its lexical rules were taken for a production. -/
def mistaken : Unchecked.Grammar :=
  { marked.parts with lexicon := .production (.text "x") (.text "y") [.text "z"] }

theorem reloads_marked : marked.Reloads (.unchecked mistaken) := by
  have hrecord : revive true (plain markedLexicon.toDatum) =
      .ok (.production (.text "x") (.text "y") [.text "z"]) := by
    show revive true (plain (.dict [(.text recordKey, .text "Production"),
      (.text "number", .text "x"), (.text "lhs", .text "y"), (.text "rhs", .text "z")])) = _
    rw [plain, Archive.plainEntries_eq_map]
    simp [plain, revive, lookupEntry, recordKey, Archive.kindName, Archive.production,
      Archive.reviveEntries, Archive.reviveEntry, Archive.partOf, Archive.within, Datum.items?,
      Datum.isKey, Datum.areKeys, bind, Except.bind]
  have hread : Archive.toUnchecked (Archive.grammarRecord marked.parts) = .ok mistaken :=
    Archive.toUnchecked_grammarRecord_iff.2 ⟨rfl, rfl, hrecord, rfl, rfl⟩
  have harchive : marked.toArchive = .ok (Archive.grammarRecord marked.parts) :=
    Archive.ofGrammar_eq_ok_iff.2 ⟨⟨rfl, rfl⟩, rfl⟩
  rw [Reloads, reload, harchive]
  change ofArchive (Archive.grammarRecord marked.parts) = _
  rw [ofArchive, hread]
  rfl

/-- The names of lexical rules cannot always be asked for in what is read of an archive: those of
`marked` come back as one production. -/
theorem not_indexes_agree_marked :
    ¬ ∀ (input : AnyInput) (g g' : AnyGrammar) (entries : List (Datum × Datum))
      (names : List Symbol), read input = .ok g → g.Reloads g' → g.lexicalRules = .ok entries →
        entries.map (·.2) = names.map .text → ∃ vars : List Symbol,
          g'.lexicalVariables = .ok (vars.map .text) ∧
            ListsOnce (names.filter fun s => !Symbol.isTerminal s) vars := by
  intro agree
  have hrules : Grammar.rulesOfDatum (.text "S -> \"a\"") = .ok [⟨"S", ["\"a\""]⟩] := by
    apply eq_ok_of_toOption
    decide
  have hlexicon : Lexicon.read markedLines = .ok (.lexicon markedLexicon) := rfl
  obtain ⟨vars, hvars, -⟩ := agree _ _ _ _ ["Production", "x", "y", "z"]
    (read_fields hrules hlexicon) reloads_marked (lexicalRules_of_dict rfl) rfl
  have lost : (AnyGrammar.unchecked mistaken).Mistaken := ⟨_, _, _, rfl⟩
  exact lost.lexicalVariables_ne _ hvars

end AnyGrammar

end Predictive
