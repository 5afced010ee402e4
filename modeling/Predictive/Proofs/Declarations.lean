import Predictive.Proofs.Revival
import Predictive.Proofs.Texts
import Mathlib.Data.List.Forall2

/-!
# Declarations of lexical rules

Lexical rules are declared one after the other: by the lines of a text, by a list of lines or by a list
of pairs. `Lexicon.Declares` tells which rules a value declares, in their order and with those whose
patterns come again. Reading puts them into a map by their patterns, one after the other
(`Lexicon.ofDatum_of_declares`).
-/

set_option autoImplicit false

namespace Predictive

namespace LexicalRule

/-- The rule as an entry of a map. -/
def entry (r : LexicalRule) : String × Symbol := (r.pattern, r.name)

/-- The line, which has no blanks at its ends, declares the rule. -/
def WrittenAs (line : List Char) (r : LexicalRule) : Prop :=
  LexicalLine.split? line = some (r.pattern.toList, r.name.toList)

/-- The value is a pair of the pattern and the name of the rule. -/
def PairedAs (d : Datum) (r : LexicalRule) : Prop :=
  d = .tuple [.text r.pattern, .text r.name] ∨ d = .list [.text r.pattern, .text r.name]

end LexicalRule

/-! ## Lines -/

namespace LexicalLine

/-- A line that can be cut in two declares a rule. -/
theorem writtenAs_of_split {line pattern name : List Char} (h : split? line = some (pattern, name)) :
    LexicalRule.WrittenAs line ⟨String.ofList pattern, String.ofList name⟩ := by
  rw [LexicalRule.WrittenAs, h, String.toList_ofList, String.toList_ofList]

/-- Numbered lines can be read if each declares a rule, and the rules are put in one by one. -/
theorem readFrom_eq_ok_iff {m m' : OrderedMap String Symbol} {lines : List (Nat × List Char)} :
    readFrom m lines = .ok m' ↔ ∃ ds, List.Forall₂ LexicalRule.WrittenAs (lines.map (·.2)) ds ∧
      m' = ds.foldl (fun m r => m.insert r.pattern r.name) m := by
  induction lines generalizing m with
  | nil => simp [readFrom, eq_comm]
  | cons numbered lines ih =>
      obtain ⟨number, line⟩ := numbered
      rw [readFrom, List.map_cons]
      -- a line that cannot be split is written as no rule, so both sides fail
      cases hsplit : split? line with
      | none =>
          refine ⟨fun h => absurd h (by simp), ?_⟩
          rintro ⟨ds, hds, -⟩
          obtain ⟨r, rest, hr, -⟩ := List.forall₂_cons_left_iff.1 hds
          exact absurd (hsplit.symm.trans hr) (by simp)
      | some found =>
          obtain ⟨pattern, name⟩ := found
          constructor
          · intro h
            obtain ⟨ds, hds, rfl⟩ := ih.1 h
            exact ⟨_ :: ds, .cons (writtenAs_of_split hsplit) hds, rfl⟩
          · rintro ⟨ds, hds, rfl⟩
            obtain ⟨r, rest, hr, hrest, rfl⟩ := List.forall₂_cons_left_iff.1 hds
            obtain ⟨rfl, rfl⟩ := Prod.mk.inj (Option.some.inj (hsplit.symm.trans hr))
            simp only [String.ofList_toList]
            exact ih.2 ⟨rest, hrest, rfl⟩

end LexicalLine

/-! ## Values -/

namespace Lexicon

/-- The lexicon of rules that are declared one after the other. -/
def ofDeclarations (ds : List LexicalRule) : Lexicon :=
  .declared (OrderedMap.ofList (ds.map LexicalRule.entry))

theorem ofDeclarations_eq (ds : List LexicalRule) :
    ofDeclarations ds =
      .declared (ds.foldl (fun m r => m.insert r.pattern r.name) OrderedMap.empty) := by
  rw [ofDeclarations, OrderedMap.ofList, List.foldl_map]
  rfl

/-- The value declares the rules, in this order. -/
inductive Declares : Datum → List LexicalRule → Prop
  | text {s : String} {ds : List LexicalRule}
      (written : List.Forall₂ LexicalRule.WrittenAs
        (RuleLine.visibleLines (Text.lines s.toList)) ds) : Declares (.text s) ds
  | lines {d : Datum} {items : List Datum} {texts : List String} {ds : List LexicalRule}
      (collection : d = .list items ∨ d = .tuple items) (all : Datum.texts? items = some texts)
      (written : List.Forall₂ LexicalRule.WrittenAs
        (RuleLine.visibleLines (texts.map String.toList)) ds) : Declares d ds
  | pairs {d : Datum} {items : List Datum} {ds : List LexicalRule}
      (collection : d = .list items ∨ d = .tuple items)
      (paired : List.Forall₂ LexicalRule.PairedAs items ds) : Declares d ds

theorem readLexicalRules_eq_ok_iff {lines : List (List Char)} {m : OrderedMap String Symbol} :
    readLexicalRules lines = .ok m ↔
      ∃ ds, List.Forall₂ LexicalRule.WrittenAs (RuleLine.visibleLines lines) ds ∧
        Lexicon.declared m = ofDeclarations ds := by
  simp only [readLexicalRules, LexicalLine.readFrom_eq_ok_iff, RuleLine.map_numberFrom,
    ofDeclarations_eq, declared.injEq]

theorem ofLines_of_written {lines : List (List Char)} {ds : List LexicalRule}
    (h : List.Forall₂ LexicalRule.WrittenAs (RuleLine.visibleLines lines) ds) :
    ofLines lines = .ok (.lexicon (ofDeclarations ds)) := by
  rw [ofLines, readLexicalRules_eq_ok_iff.2 ⟨ds, h, rfl⟩]
  rfl

/-- A pair is put under its pattern, where the entries are texts. -/
theorem insertEntry_texts (k v : String) (es : List (String × Symbol)) :
    OrderedMap.insertEntry (Datum.text k) (Datum.text v)
        (es.map fun e => (Datum.text e.1, Datum.text e.2)) =
      (OrderedMap.insertEntry k v es).map fun e => (Datum.text e.1, Datum.text e.2) := by
  induction es with
  | nil => rfl
  | cons e es ih =>
      rw [List.map_cons, OrderedMap.insertEntry, OrderedMap.insertEntry, Datum.beq_text, ih]
      split <;> rfl

theorem pair?_of_paired {d : Datum} {r : LexicalRule} (h : r.PairedAs d) :
    pair? d = some (.text r.pattern, .text r.name) := by
  rcases h with rfl | rfl <;> rfl

theorem pairs?_of_paired {items : List Datum} {ds : List LexicalRule}
    (h : List.Forall₂ LexicalRule.PairedAs items ds) (m : OrderedMap String Symbol) :
    pairs? (m.entries.map fun e => (Datum.text e.1, Datum.text e.2)) items =
      some ((ds.foldl (fun m r => m.insert r.pattern r.name) m).entries.map
        fun e => (Datum.text e.1, Datum.text e.2)) := by
  induction h generalizing m with
  | nil => rfl
  | @cons item r items ds hr _ ih =>
      rw [pairs?, pair?_of_paired hr, List.foldl_cons, ← ih (m.insert r.pattern r.name)]
      simp only [Option.bind_eq_bind, Option.bind_some, insertEntry_texts]
      rfl

/-- A pair is no text, so pairs are not taken for lines. -/
theorem texts?_of_paired {items : List Datum} {ds : List LexicalRule}
    (h : List.Forall₂ LexicalRule.PairedAs items ds) (hne : ds ≠ []) :
    Datum.texts? items = none := by
  cases h with
  | nil => exact absurd rfl hne
  | cons hr _ => rcases hr with rfl | rfl <;> rfl

theorem rulesOf_texts (m : OrderedMap String Symbol) :
    rulesOf (m.entries.map fun e => (Datum.text e.1, Datum.text e.2)) = .lexicon (.declared m) := by
  rw [rulesOf, ofEntries?, Archive.textRules?_map, Option.map_some, Archive.ofList_entries]

theorem read_of_paired {items : List Datum} {ds : List LexicalRule}
    (h : List.Forall₂ LexicalRule.PairedAs items ds) {d : Datum}
    (collection : d = .list items ∨ d = .tuple items) :
    read d = .ok (.lexicon (ofDeclarations ds)) := by
  by_cases hne : ds = []
  · -- an empty list is a list of no lines as well
    subst hne
    obtain rfl := List.forall₂_nil_right_iff.1 h
    rcases collection with rfl | rfl <;> rfl
  · have hread : pairs? [] items = some _ := pairs?_of_paired h OrderedMap.empty
    have hlexicon := rulesOf_texts (ds.foldl (fun m r => m.insert r.pattern r.name) OrderedMap.empty)
    rcases collection with rfl | rfl <;>
      simp only [read, Datum.items?, texts?_of_paired h hne, hread, hlexicon, ofDeclarations_eq]

/-- Reading puts the declared rules into a map by their patterns. -/
theorem ofDatum_of_declares {d : Datum} {ds : List LexicalRule} (h : Declares d ds) :
    ofDatum d = .ok (ofDeclarations ds) := by
  have hread : read d = .ok (.lexicon (ofDeclarations ds)) := by
    cases h with
    | text written => exact ofLines_of_written written
    | lines collection all written =>
        rcases collection with rfl | rfl <;>
          simp only [read, Datum.items?, all, ofLines_of_written written]
    | pairs collection paired => exact read_of_paired paired collection
  rw [ofDatum, hread]
  rfl

end Lexicon

end Predictive
