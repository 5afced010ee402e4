import Predictive.Proofs.Scanning
import Predictive.Proofs.WellFormed
import Mathlib.Data.List.Forall2

/-!
# The rule of a token

The matchers of a lexer stand in the order of the rules that they are made of
(`Lexer.ofRules_eq_ok_iff`). So what a lexer makes of the characters at a place can be said of the rules
alone: the token comes from the first rule that finds something there, and it is the single character if
no rule does (`Lexer.BeginsAt.rule`).
-/

set_option autoImplicit false

namespace Predictive

namespace LexicalRule

/-- The rule has a match at a place that is not empty and ends within the text. -/
def Finds (compiler : PatternCompiler) (flags : Datum) (text : Array Char) (place stop : Nat)
    (r : LexicalRule) : Prop :=
  ∃ m, r.compile compiler flags = .ok m ∧ Lexer.Hits m text place stop

/-- The rule finds something at a place, and none of the rules before it does. -/
def FindsFirst (compiler : PatternCompiler) (flags : Datum) (text : Array Char) (place stop : Nat)
    (rules : List LexicalRule) (r : LexicalRule) : Prop :=
  ∃ front back, rules = front ++ r :: back ∧ r.Finds compiler flags text place stop ∧
    ∀ r' ∈ front, ∀ stop', ¬ r'.Finds compiler flags text place stop'

theorem name_of_compile {compiler : PatternCompiler} {flags : Datum} {r : LexicalRule} {m : Matcher}
    (h : r.compile compiler flags = .ok m) : m.name = r.name := by
  rw [compile] at h
  split at h
  · rw [← Except.ok.inj h]
  · exact absurd h (by simp)

end LexicalRule

namespace Lexer

variable {compiler : PatternCompiler} {flags : Datum} {rules : List LexicalRule} {lexer : Lexer}
variable {text : Array Char}

/-! ## Matchers and their rules -/

/-- The matchers of a lexer belong to its rules, one to each, in the same order. -/
theorem ofRules_eq_ok_iff :
    ofRules compiler flags rules = .ok lexer ↔
      List.Forall₂ (fun r m => LexicalRule.compile compiler flags r = .ok m) rules lexer := by
  induction rules generalizing lexer with
  | nil => simp [ofRules, eq_comm]
  | cons r rs ih =>
      rw [List.forall₂_cons_left_iff]
      constructor
      · intro h
        obtain ⟨m, hm, h⟩ := exists_of_bind_eq_ok h
        obtain ⟨ms, hms, h⟩ := exists_of_bind_eq_ok h
        exact ⟨m, ms, hm, ih.1 hms, (Except.ok.inj h).symm⟩
      · rintro ⟨m, ms, hm, hms, rfl⟩
        rw [ofRules, hm, ih.2 hms]
        rfl

/-- If every rule can be compiled, they make a lexer. -/
theorem exists_ofRules (h : ∀ r ∈ rules, ∃ m, r.compile compiler flags = .ok m) :
    ∃ lexer, ofRules compiler flags rules = .ok lexer := by
  induction rules with
  | nil => exact ⟨[], rfl⟩
  | cons r rs ih =>
      obtain ⟨m, hm⟩ := h r List.mem_cons_self
      obtain ⟨ms, hms⟩ := ih fun r' hr' => h r' (List.mem_cons_of_mem r hr')
      refine ⟨m :: ms, ?_⟩
      rw [ofRules, hm, hms]
      rfl

/-- Where one of the matchers has others before it and behind it, so has its rule. -/
theorem exists_rule_of_append {front back : Lexer} {m : Matcher}
    (h : ofRules compiler flags rules = .ok (front ++ m :: back)) :
    ∃ before r after, rules = before ++ r :: after ∧ r.compile compiler flags = .ok m ∧
      ofRules compiler flags before = .ok front := by
  rw [ofRules_eq_ok_iff] at h
  -- the rules are cut where the matchers are
  obtain ⟨before, others, hbefore, hothers, rfl⟩ : ∃ before others,
      List.Forall₂ (fun r m => LexicalRule.compile compiler flags r = .ok m) before front ∧
      List.Forall₂ (fun r m => LexicalRule.compile compiler flags r = .ok m) others (m :: back) ∧
      rules = before ++ others := by
    refine ⟨_, _, List.forall₂_take_append rules front (m :: back) h,
      List.forall₂_drop_append rules front (m :: back) h, ?_⟩
    rw [List.take_append_drop]
  obtain ⟨r, after, hm, -, rfl⟩ := List.forall₂_cons_right_iff.1 hothers
  exact ⟨before, r, after, rfl, hm, ofRules_eq_ok_iff.2 hbefore⟩

/-- Where no matcher has a match, no rule finds anything. -/
theorem not_finds_of_missed (built : ofRules compiler flags rules = .ok lexer) {place : Nat}
    (missed : ∀ m ∈ lexer, ∀ stop, ¬ Hits m text place stop) :
    ∀ r ∈ rules, ∀ stop, ¬ r.Finds compiler flags text place stop := by
  rw [ofRules_eq_ok_iff] at built
  induction built with
  | nil => simp
  | @cons r m rs ms hm _ ih =>
      intro r' hr' stop
      rcases List.mem_cons.1 hr' with rfl | hr'
      · rintro ⟨m', hm', hits⟩
        obtain rfl := Except.ok.inj (hm.symm.trans hm')
        exact missed m List.mem_cons_self stop hits
      · apply ih _ r' hr' stop
        intro m' hm'
        exact missed m' (List.mem_cons_of_mem m hm')

/-- The first matcher with a match belongs to the first rule that finds something. -/
theorem Leads.rule (built : ofRules compiler flags rules = .ok lexer) {place stop : Nat}
    {m : Matcher} (h : lexer.Leads text place stop m) :
    ∃ r : LexicalRule, m.name = r.name ∧ r.FindsFirst compiler flags text place stop rules := by
  rcases h with ⟨front, back, rfl, hits, missed⟩
  obtain ⟨before, r, after, hrules, hm, hbefore⟩ := exists_rule_of_append built
  exact ⟨r, LexicalRule.name_of_compile hm, before, after, hrules, ⟨m, hm, hits⟩,
    not_finds_of_missed hbefore missed⟩

/-! ## Tokens and their rules -/

/-- A token that begins at a character comes from the first rule that finds something there, or is the
character alone if no rule does. -/
theorem BeginsAt.rule (built : ofRules compiler flags rules = .ok lexer) {place : LineCounter}
    {t : Token} (h : lexer.BeginsAt text place t) :
    (∃ (r : LexicalRule) (stop : Nat), r.FindsFirst compiler flags text place.position stop rules ∧
      t = tokenAt r.name (valueOf r.name (piece text place.position stop)) place) ∨
    ((∀ r ∈ rules, ∀ stop, ¬ r.Finds compiler flags text place.position stop) ∧
      ∃ c, text[place.position]? = some c ∧
        t = tokenAt (String.singleton c) (String.singleton c) place) := by
  rcases h with ⟨⟨c, hc⟩, rfl⟩
  rcases tokenFrom_cases lexer hc with ⟨m, stop, leads, htoken⟩ | ⟨missed, htoken⟩
  · obtain ⟨r, hname, first⟩ := leads.rule built
    exact .inl ⟨r, stop, first, by rw [htoken, hname]⟩
  · exact .inr ⟨not_finds_of_missed built missed, c, hc, by rw [htoken]⟩

end Lexer

end Predictive
