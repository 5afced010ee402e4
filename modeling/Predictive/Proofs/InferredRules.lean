import Predictive.Proofs.FirstRule
import Predictive.Proofs.LiteralPatterns

/-!
# Rules of terminals

Without lexical rules every terminal of a grammar is a rule for itself. If double quotes stand at the
ends of its text only, with something else between, the rule finds this text and nothing else, so its
tokens have their name for their value. A text of double quotes alone is found together with the quotes
around it. Both kinds of rules can always be compiled (`Grammar.inferred_rules_match`), by the standard
compiler and by every other one that knows literal texts.

A double quote inside the text ends the quoted part, and what follows is a pattern: in `barred` the bar
between two terminals, with no blanks around it, gives one terminal that matches either of both texts.
-/

set_option autoImplicit false

namespace Predictive

/-! ## Terminals -/

namespace Symbol

/-- A terminal stands for the text between its quotes. -/
theorem exists_eq_terminal {s : Symbol} (h : isTerminal s = true) : ∃ w, s = terminal w := by
  rw [isTerminal, quotedChars.eq_def] at h
  -- the first character is a quote, and the last one of the others
  split at h
  · next cs hcs =>
      have hlast : cs.getLast? = some '"' := by simpa using h
      obtain ⟨inner, rfl⟩ := List.getLast?_eq_some_iff.1 hlast
      refine ⟨String.ofList inner, ?_⟩
      rw [← String.toList_inj, hcs, toList_terminal, String.toList_ofList]
      rfl
  · exact absurd h (by simp)

theorem terminal_injective {v w : String} (h : terminal v = terminal w) : v = w := by
  have hlists := congrArg String.toList h
  rw [toList_terminal, toList_terminal, List.append_left_inj, List.cons.injEq] at hlists
  exact String.toList_inj.1 hlists.2

end Symbol

namespace Grammar

/-- A symbol is among the terminals of a grammar if it is a terminal on some right-hand side. -/
theorem mem_terminals {g : Grammar} {s : Symbol} :
    s ∈ g.terminals ↔ ∃ p ∈ g.productionList, s ∈ p.rhs ∧ Symbol.isTerminal s = true := by
  simp [terminals]

/-- Without lexical rules every terminal is a rule that names itself. -/
theorem rulesOf_inferred {g : Grammar} (h : g.lexicon = .inferred) :
    Lexer.rulesOf g = g.terminals.map fun t => ⟨t, t⟩ := by
  have distinct : (g.terminals.map fun t => (t, t)).Pairwise
      fun x y => (x.1 == y.1) = false := by
    rw [List.pairwise_map]
    apply (nodup_distinct _).imp
    intro s t hne
    simpa using hne
  rw [Lexer.rulesOf, lexicalRules, h]
  simp only [OrderedMap.entries_ofList distinct, List.map_map, Function.comp_def]

/-- Each of these rules is for the text of a terminal. -/
theorem mem_rulesOf_inferred {g : Grammar} (h : g.lexicon = .inferred) {r : LexicalRule} :
    r ∈ Lexer.rulesOf g ↔ ∃ w, Symbol.terminal w ∈ g.terminals ∧
      r = ⟨Symbol.terminal w, Symbol.terminal w⟩ := by
  rw [rulesOf_inferred h, List.mem_map]
  constructor
  · rintro ⟨t, ht, rfl⟩
    obtain ⟨p, -, -, terminal⟩ := mem_terminals.1 ht
    obtain ⟨w, rfl⟩ := Symbol.exists_eq_terminal terminal
    exact ⟨w, ht, rfl⟩
  · rintro ⟨w, hw, rfl⟩
    exact ⟨_, hw, rfl⟩

end Grammar

namespace LexicalRule

/-- The rule of a terminal that holds double quotes alone, or nothing, finds the terminal itself. -/
theorem compile_quotes {c : PatternCompiler} {flags : Datum} (takes : c.TakesLiterals)
    (zero : flags.int? = some 0) (name : Symbol) {w : String} (h : ∀ c ∈ w.toList, c = '"') :
    ∃ m, (LexicalRule.mk (Symbol.terminal w) name).compile c flags = .ok m ∧ m.name = name ∧
      m.Spells (Symbol.terminal w).toList := by
  have hquotes : (Symbol.terminal w).toList = List.replicate (w.toList.length + 2) '"' := by
    rw [Symbol.toList_terminal, List.eq_replicate_of_mem h, List.length_replicate,
      ← List.replicate_succ, ← List.replicate_succ']
  apply compile_of_written takes zero
  rw [written, hquotes, Pattern.expandQuotes_quotes, Pattern.escapeLiteral_quotes]

end LexicalRule

/-! ## Inferred rules -/

namespace Grammar

/-- What a terminal of one of the two kinds is a rule for. -/
theorem spells_of_mem_lexer {g : Grammar} (h : g.lexicon = .inferred) {c : PatternCompiler}
    (takes : c.TakesLiterals) {flags : Datum} (zero : flags.int? = some 0) {lexer : Lexer}
    (built : Lexer.ofGrammar g c flags = .ok lexer) {m : Matcher} (hm : m ∈ lexer) :
    ∃ w, m.name = Symbol.terminal w ∧ Symbol.terminal w ∈ g.terminals ∧
      (Pattern.QuotesAtEnds w.toList → m.Spells w.toList) := by
  obtain ⟨front, back, rfl⟩ := List.append_of_mem hm
  obtain ⟨before, r, after, hrules, hcompile, -⟩ := Lexer.exists_rule_of_append built
  have hr : r ∈ Lexer.rulesOf g := by
    rw [hrules]
    simp
  -- the rule of the matcher is a terminal
  obtain ⟨w, ht, rfl⟩ := (mem_rulesOf_inferred h).1 hr
  refine ⟨w, LexicalRule.name_of_compile hcompile, ht, ?_⟩
  intro quotes
  obtain ⟨m', compiled, -, spells⟩ :=
    LexicalRule.compile_terminal takes zero (Symbol.terminal w) quotes
  obtain rfl : m' = m := Except.ok.inj (compiled.symm.trans hcompile)
  exact spells

/-- Without lexical rules every terminal of a grammar has a rule. It finds the text of the terminal
and nothing else, where double quotes stand only at the ends of the text with something else between,
and the terminal with its quotes, where it holds nothing else. If all terminals are of these kinds, the
grammar has a lexer. Whenever it has one, the tokens of a terminal of the first kind have their name
for their value. -/
theorem inferred_rules_match (g : Grammar) (h : g.lexicon = .inferred) (c : PatternCompiler)
    (known : (∃ names, c = Pattern.compiler names) ∨ c.TakesLiterals) (flags : Datum)
    (zero : flags.int? = some 0) :
    (∀ p ∈ g.productionList, ∀ t ∈ p.rhs, Symbol.isTerminal t = true →
      (⟨t, t⟩ : LexicalRule) ∈ Lexer.rulesOf g ∧ ∃ w, t = Symbol.terminal w ∧
        (Pattern.QuotesAtEnds w.toList → ∃ m : Matcher, m.name = t ∧ m.Spells w.toList ∧
          (⟨t, t⟩ : LexicalRule).compile c flags = .ok m) ∧
        ((∀ q ∈ w.toList, q = '"') → ∃ m : Matcher, m.name = t ∧ m.Spells t.toList ∧
          (⟨t, t⟩ : LexicalRule).compile c flags = .ok m)) ∧
    ((∀ w, Symbol.terminal w ∈ g.terminals →
        Pattern.QuotesAtEnds w.toList ∨ ∀ q ∈ w.toList, q = '"') →
      ∃ lexer, Lexer.ofGrammar g c flags = .ok lexer) ∧
    ∀ lexer, Lexer.ofGrammar g c flags = .ok lexer → ∀ text t, lexer.Matches text t →
      ∃ w, t.kind = Symbol.terminal w ∧ Symbol.terminal w ∈ g.terminals ∧
        (Pattern.QuotesAtEnds w.toList → t.value = t.kind) := by
  have takes := PatternCompiler.takesLiterals_of_known known
  refine ⟨?_, ?_, ?_⟩
  · intro p hp t ht terminal
    obtain ⟨w, rfl⟩ := Symbol.exists_eq_terminal terminal
    have hw : Symbol.terminal w ∈ g.terminals := mem_terminals.2 ⟨p, hp, ht, terminal⟩
    refine ⟨(mem_rulesOf_inferred h).2 ⟨w, hw, rfl⟩, w, rfl, ?_, ?_⟩
    · intro quotes
      obtain ⟨m, compiled, hname, spells⟩ := LexicalRule.compile_terminal takes zero _ quotes
      exact ⟨m, hname, spells, compiled⟩
    · intro quotes
      obtain ⟨m, compiled, hname, spells⟩ := LexicalRule.compile_quotes takes zero _ quotes
      exact ⟨m, hname, spells, compiled⟩
  · intro kinds
    apply Lexer.exists_ofRules
    intro r hr
    obtain ⟨w, hw, rfl⟩ := (mem_rulesOf_inferred h).1 hr
    rcases kinds w hw with quotes | quotes
    · obtain ⟨m, compiled, -⟩ := LexicalRule.compile_terminal takes zero (Symbol.terminal w) quotes
      exact ⟨m, compiled⟩
    · obtain ⟨m, compiled, -⟩ := LexicalRule.compile_quotes takes zero (Symbol.terminal w) quotes
      exact ⟨m, compiled⟩
  · rintro lexer built text t ⟨m, hm, place, stop, hits, rfl⟩
    obtain ⟨w, hname, hw, spells⟩ := spells_of_mem_lexer h takes zero built hm
    refine ⟨w, hname, hw, ?_⟩
    intro quotes
    -- the piece is the text of the terminal, and gets the quotes of the terminal again
    show Lexer.valueOf m.name (Lexer.piece text place.position stop) = m.name
    rw [(spells quotes).piece_eq hits, hname, Lexer.valueOf, if_pos (Symbol.isTerminal_terminal w),
      String.ofList_toList]

/-- A grammar of terminals whose characters mean something in patterns. -/
def starred : Grammar :=
  .ofRules [⟨"S", ["\"a*\"", "S"]⟩, ⟨"S", ["\"|\""]⟩] .inferred ⟨.null, .null⟩

/-- They stand for themselves nevertheless. -/
theorem inferred_rules_match_starred :
    starred.lexicon = .inferred ∧
    ∃ lexer, Lexer.ofGrammar starred (Pattern.compiler Pattern.nameless) (.int 0) = .ok lexer ∧
      (∃ m : Matcher, m.Spells "a*".toList ∧
        (⟨"\"a*\"", "\"a*\""⟩ : LexicalRule).compile (Pattern.compiler Pattern.nameless)
          (.int 0) = .ok m) ∧
      ∀ text t, lexer.Matches text t → t.value = t.kind := by
  have inferred : starred.lexicon = .inferred := rfl
  obtain ⟨rules, makes, values⟩ :=
    inferred_rules_match starred inferred (Pattern.compiler Pattern.nameless) (.inl ⟨_, rfl⟩)
      (.int 0) rfl
  have terminals : starred.terminals = [Symbol.terminal "a*", Symbol.terminal "|"] := by decide
  -- both terminals have their quotes at the ends only
  have quotes : ∀ w, Symbol.terminal w ∈ starred.terminals → Pattern.QuotesAtEnds w.toList := by
    intro w hw
    rw [terminals, List.mem_pair] at hw
    rcases hw with hw | hw <;> rw [Symbol.terminal_injective hw] <;>
      exact Pattern.quotesAtEnds_of_not_mem (by decide) (by decide)
  obtain ⟨lexer, built⟩ := makes fun w hw => .inl (quotes w hw)
  refine ⟨inferred, lexer, built, ?_, ?_⟩
  · obtain ⟨p, hp, ht, terminal⟩ := mem_terminals.1 (terminals ▸ List.mem_cons_self)
    obtain ⟨-, w, hw, finds, -⟩ := rules p hp _ ht terminal
    obtain rfl := Symbol.terminal_injective hw
    obtain ⟨m, -, spells, compiled⟩ := finds (quotes _ (terminals ▸ List.mem_cons_self))
    exact ⟨m, spells, compiled⟩
  · intro text t matched
    obtain ⟨w, -, hw, value⟩ := values lexer built text t matched
    exact value (quotes w hw)

/-- A grammar of one terminal, in which a bar stands between two quoted letters. -/
def barred : Grammar :=
  .ofRules [⟨"S", ["\"a\"|\"b\""]⟩] .inferred ⟨.text "S -> \"a\"|\"b\"", .null⟩

/-- The rule of this terminal matches the first letter, which is not the text of the terminal. -/
theorem not_inferred_rules_match_barred :
    Grammar.ofDatum (.text "S -> \"a\"|\"b\"") = .ok barred ∧
      Symbol.terminal "a\"|\"b" ∈ barred.terminals ∧
      ∃ lexer, Lexer.ofGrammar barred (Pattern.compiler Pattern.nameless) (.int 0) = .ok lexer ∧
        (∃ m ∈ lexer, m.name = Symbol.terminal "a\"|\"b" ∧
          ∃ stop, m.endAt "a".toList.toArray 0 = some stop ∧
            ¬ "a\"|\"b".toList <+: "a".toList.drop 0) ∧
        ∃ t ∈ lexer.tokens "a", t.kind = Symbol.terminal "a\"|\"b" ∧
          t.value = Symbol.terminal "a" := by
  have observed :
      (Lexer.ofGrammar barred (Pattern.compiler Pattern.nameless) (.int 0)).toOption.map
      (fun l => (l.map (fun m => (m.name, m.endAt "a".toList.toArray 0)), (l.tokens "a").head?)) =
        some ([(Symbol.terminal "a\"|\"b", some 1)],
          some (Lexer.tokenAt (Symbol.terminal "a\"|\"b") (Symbol.terminal "a") .start)) := by
    decide +kernel
  obtain ⟨lexer, built, found⟩ := exists_of_map_toOption observed
  obtain ⟨matchers, first⟩ := Prod.mk.inj found
  refine ⟨rfl, by decide, lexer, built, ?_, ?_⟩
  · obtain ⟨m, rfl, hm⟩ := List.map_eq_singleton_iff.1 matchers
    rw [Prod.mk.injEq] at hm
    exact ⟨m, List.mem_singleton_self m, hm.1, 1, hm.2, by decide⟩
  · exact ⟨_, List.mem_of_mem_head? first, rfl, rfl⟩

end Grammar

end Predictive
