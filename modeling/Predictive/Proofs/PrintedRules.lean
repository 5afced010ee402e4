import Predictive.Proofs.Revival
import Predictive.Proofs.RuleNotation

/-!
# Printed rules

A rule that was read is printed as one line, its left-hand side, an arrow and the symbols of its
right-hand side with single blanks between them. The words of the printed right-hand side are those of
its symbols, of which the terminal of one blank makes two, and they are put together to the same symbols
again (`RuleLine.symbols_printed`). The left-hand side ends at the first arrow of the line that leaves
something before it, so it comes back if it holds no arrow behind its first character itself
(`RuleLine.form?_printed`).

So the printed rules of a grammar can be read, and give the same rules, just when no left-hand side holds
such an arrow. A text and a list of lines without line feeds never give one, since their rules are cut at
the first arrow too; in `broken` a line feed inside a line lets the first arrow pass
(`Grammar.printed_rules_read_back`).
-/

set_option autoImplicit false

namespace Predictive

open Text (Visible isBlank words)

/-- The rule as a line. -/
def Rule.render (r : Rule) : String := Production.renderRule r.lhs r.rhs

namespace RuleLine

/-! ## Printed right-hand sides -/

/-- The words that a symbol makes in a line. -/
def wordsOf (w : List Char) : List (List Char) :=
  if w = blankTerminal then [loneQuote, loneQuote] else [w]

/-- Texts with single blanks between them. -/
def spaced (ws : List (List Char)) : List Char := [' '].intercalate ws

variable {w : List Char} {ws : List (List Char)}

theorem Joined.tail (h : Joined (w :: ws)) : Joined ws :=
  h.part (List.suffix_cons w ws).isInfix

theorem words_of_word (h : w = blankTerminal ∨ (w ≠ [] ∧ Visible w)) : words w = wordsOf w := by
  rcases h with rfl | ⟨hne, visible⟩
  · decide
  · have other : w ≠ blankTerminal := by
      rintro rfl
      exact not_visible_blankTerminal visible
    rw [Text.words_of_visible hne visible, wordsOf, if_neg other]

theorem spaced_cons_cons (w v : List Char) (ws : List (List Char)) :
    spaced (w :: v :: ws) = w ++ ' ' :: spaced (v :: ws) := by
  rw [spaced, List.intercalate_cons_cons, List.append_assoc]
  rfl

theorem spaced_singleton (w : List Char) : spaced [w] = w := by
  simp [spaced]

theorem words_spaced (h : Joined ws) : words (spaced ws) = ws.flatMap wordsOf := by
  induction ws with
  | nil => rfl
  | cons w ws ih =>
      have hw := words_of_word (h.word w List.mem_cons_self)
      cases ws with
      | nil => rw [spaced_singleton, hw, List.flatMap_singleton]
      | cons v ws =>
          rw [spaced_cons_cons, Text.words_append_blank (by decide), hw, ih h.tail]
          rfl

/-- The words of such a sequence are put together to the sequence again. -/
theorem joinQuotes_flatMap (h : Joined ws) : joinQuotes (ws.flatMap wordsOf) = ws := by
  induction ws with
  | nil => rfl
  | cons w ws ih =>
      have hrest := ih h.tail
      rw [List.flatMap_cons, wordsOf]
      by_cases hblank : w = blankTerminal
      · rw [if_pos hblank, List.cons_append, List.cons_append, joinQuotes_quotes, List.nil_append,
          hrest, hblank]
      · rw [if_neg hblank, List.singleton_append]
        by_cases hquote : w = loneQuote
        · cases ws with
          | nil => rfl
          | cons v ws =>
              -- a lone quote has nothing behind it that it could be put together with
              obtain ⟨hv, hv'⟩ := (List.isChain_cons_cons.1 h.apart).1 hquote
              rw [List.flatMap_cons, wordsOf, if_neg hv', List.singleton_append] at hrest ⊢
              rw [joinQuotes_cons_cons hv, hrest]
        · rw [joinQuotes_cons hquote, hrest]

/-- A word ends with a character that is no blank. -/
theorem exists_last_of_word (h : w = blankTerminal ∨ (w ≠ [] ∧ Visible w)) :
    ∃ front c, w = front ++ [c] ∧ isBlank c = false := by
  rcases h with rfl | ⟨hne, visible⟩
  · exact ⟨['"', ' '], '"', rfl, by decide⟩
  · obtain ⟨front, c, rfl⟩ := (List.eq_nil_or_concat' w).resolve_left hne
    exact ⟨front, c, rfl, visible c (by simp)⟩

theorem exists_last_of_spaced (h : Joined ws) (hne : ws ≠ []) :
    ∃ front c, spaced ws = front ++ [c] ∧ isBlank c = false := by
  induction ws with
  | nil => exact absurd rfl hne
  | cons w ws ih =>
      cases ws with
      | nil =>
          rw [spaced_singleton]
          exact exists_last_of_word (h.word w List.mem_cons_self)
      | cons v ws =>
          obtain ⟨front, c, hspaced, hc⟩ := ih h.tail (by simp)
          exact ⟨w ++ ' ' :: front, c, by rw [spaced_cons_cons, hspaced]; simp, hc⟩

theorem feed_not_mem_spaced (h : Joined ws) : '\n' ∉ spaced ws := by
  have hword : ∀ w, (w = blankTerminal ∨ (w ≠ [] ∧ Visible w)) → '\n' ∉ w := by
    rintro w (rfl | ⟨-, visible⟩)
    · decide
    · intro hmem
      exact absurd (visible '\n' hmem) (by decide)
  induction ws with
  | nil => simp [spaced]
  | cons w ws ih =>
      have hw := hword w (h.word w List.mem_cons_self)
      cases ws with
      | nil =>
          rw [spaced_singleton]
          exact hw
      | cons v ws =>
          rw [spaced_cons_cons, List.mem_append, List.mem_cons]
          rintro (hmem | hspace | hmem)
          · exact hw hmem
          · exact absurd hspace (by decide)
          · exact ih h.tail hmem

/-! ## Printed lines -/

variable {r : Rule}

theorem toList_render (r : Rule) :
    r.render.toList = r.lhs.toList ++ ' ' :: '-' :: '>' :: ' ' :: spaced (r.rhs.map String.toList) := by
  rw [Rule.render, Production.renderRule, Datum.joinWith, String.toList_append,
    String.toList_append, String.toList_intercalate, List.append_assoc]
  rfl

/-- The symbols of a printed right-hand side are those of the rule. -/
theorem symbols_printed (h : r.Readable) :
    symbols (' ' :: spaced (r.rhs.map String.toList)) = r.rhs := by
  rw [symbols, Text.words_cons_blank (by decide), words_spaced h.joined,
    joinQuotes_flatMap h.joined, Text.map_ofList_toList]

theorem rulesOf_printed (h : r.Readable) :
    rulesOf r.lhs (' ' :: spaced (r.rhs.map String.toList)) = [r] := by
  rw [rulesOf, symbols_printed h, alternatives, splitAtBars_of_not_mem h.unbarred,
    List.map_singleton, List.map_singleton, if_neg h.written]

/-- A left-hand side without inner arrows ends at the arrow that is printed behind it. -/
theorem headCut_printed {lhs rest : List Char} (hne : lhs ≠ [])
    (head : ∀ c ∈ lhs, isHeadChar c = true) (simple : ¬ InnerArrow lhs) (hfeed : '\n' ∉ rest) :
    HeadCut (lhs ++ ' ' :: '-' :: '>' :: rest) lhs rest := by
  induction lhs with
  | nil => exact absurd rfl hne
  | cons c lhs ih =>
      have hc := head c List.mem_cons_self
      cases lhs with
      | nil =>
          -- one blank comes before the arrow
          rw [List.cons_append, List.nil_append]
          apply HeadCut.here hc
          rw [afterArrow?_cons_blank (by decide)]
          exact (afterArrow?_eq_some_iff (by decide)).2 ⟨rfl, rfl, hfeed⟩
      | cons d lhs =>
          have hd := visible_of_isHeadChar (head d (by simp))
          have hrest : ∀ e ∈ d :: lhs, isHeadChar e = true :=
            fun e he => head e (List.mem_cons_of_mem c he)
          rw [List.cons_append]
          refine .later hc ?_ (ih (by simp) hrest fun inner => simple (inner.cons c))
          rw [List.cons_append]
          cases harrow : afterArrow? (d :: (lhs ++ ' ' :: '-' :: '>' :: rest)) with
          | none => rfl
          | some after =>
              -- an arrow that begins within the left-hand side ends there
              obtain ⟨rfl, hafter, -⟩ := (afterArrow?_eq_some_iff hd).1 harrow
              cases lhs with
              | nil => exact absurd hafter (by simp)
              | cons e lhs =>
                  obtain ⟨rfl, -⟩ := List.cons.inj hafter
                  exact absurd ⟨[c], lhs, rfl, by simp⟩ simple

/-- The left-hand side of a printed rule is cut off again. -/
theorem splitHead?_printed (h : r.Readable) (simple : ¬ InnerArrow r.lhs.toList) :
    splitHead? r.render.toList =
      some (r.lhs.toList, ' ' :: spaced (r.rhs.map String.toList)) := by
  have hfeed : '\n' ∉ ' ' :: spaced (r.rhs.map String.toList) := by
    rw [List.mem_cons]
    rintro (hspace | hmem)
    · exact absurd hspace (by decide)
    · exact feed_not_mem_spaced h.joined hmem
  rw [toList_render, splitHead?_eq_some_iff]
  exact headCut_printed h.named h.head simple hfeed

theorem form?_printed (h : r.Readable) (simple : ¬ InnerArrow r.lhs.toList) :
    form? r.render.toList =
      some (.rule r.lhs.toList (' ' :: spaced (r.rhs.map String.toList))) := by
  rw [form?.eq_def, splitHead?_printed h simple]

/-- A printed rule has no blanks at its ends. -/
theorem strip_printed (h : r.Readable) : Text.strip r.render.toList = r.render.toList := by
  rw [toList_render]
  -- a rule begins with its left-hand side and ends with a word, neither of them blank
  apply Text.strip_eq_self
  · obtain ⟨c, lhs, hlhs⟩ := List.exists_cons_of_ne_nil h.named
    intro d hd
    rw [hlhs, List.cons_append, List.head?_cons, Option.mem_some_iff] at hd
    rw [← hd]
    exact visible_of_isHeadChar (h.head c (by rw [hlhs]; simp))
  · have hne : r.rhs.map String.toList ≠ [] := by simpa using h.written
    obtain ⟨front, c, hspaced, hc⟩ := exists_last_of_spaced h.joined hne
    intro d hd
    have hlast : r.lhs.toList ++ ' ' :: '-' :: '>' :: ' ' :: spaced (r.rhs.map String.toList) =
        (r.lhs.toList ++ ' ' :: '-' :: '>' :: ' ' :: front) ++ [c] := by
      rw [hspaced]
      simp
    rw [hlast, List.getLast?_concat, Option.mem_some_iff] at hd
    rw [← hd]
    exact hc

theorem feed_not_mem_render (h : r.Readable) : '\n' ∉ r.render.toList := by
  rw [toList_render]
  simp only [List.mem_append, List.mem_cons]
  rintro (hmem | hspace | hdash | harrow | hspace | hmem)
  · exact absurd (visible_of_isHeadChar (h.head '\n' hmem)) (by decide)
  · exact absurd hspace (by decide)
  · exact absurd hdash (by decide)
  · exact absurd harrow (by decide)
  · exact absurd hspace (by decide)
  · exact feed_not_mem_spaced h.joined hmem

/-- Printed rules give the same rules again, whatever stands before them. -/
theorem written_printed {rules : List Rule} (h : ∀ r ∈ rules, r.Readable)
    (simple : ∀ r ∈ rules, ¬ InnerArrow r.lhs.toList) (current : Option Symbol) :
    Written current (visibleLines (rules.map fun r => r.render.toList)) rules := by
  induction rules generalizing current with
  | nil => exact .nil
  | cons r rules ih =>
      have hr := h r List.mem_cons_self
      have hsimple := simple r List.mem_cons_self
      have hne : r.render.toList ≠ [] := by
        rw [toList_render]
        simp
      have hrest := ih (fun r' hr' => h r' (List.mem_cons_of_mem r hr'))
        (fun r' hr' => simple r' (List.mem_cons_of_mem r hr')) (some (String.ofList r.lhs.toList))
      have whole : Written current _ _ := .rule (form?_printed hr hsimple) hrest
      rw [String.ofList_toList, rulesOf_printed hr, List.singleton_append] at whole
      rw [List.map_cons, visibleLines_cons, strip_printed hr, if_neg hne]
      exact whole

theorem readRules_printed {rules : List Rule} (hne : rules ≠ []) (h : ∀ r ∈ rules, r.Readable)
    (simple : ∀ r ∈ rules, ¬ InnerArrow r.lhs.toList) :
    readRules (rules.map fun r => r.render.toList) = .ok rules :=
  readRules_eq_ok_iff.2 ⟨hne, written_printed h simple none⟩

/-! ## Lines that are read -/

variable {lines : List (List Char)} {rules : List Rule}

theorem readable_of_readRules (h : readRules lines = .ok rules) : ∀ r ∈ rules, r.Readable :=
  Rule.readable_of_written (readRules_eq_ok_iff.1 h).2

/-- Lines without line feeds give left-hand sides without inner arrows. -/
theorem not_innerArrow_of_readRules (h : readRules lines = .ok rules)
    (whole : ∀ line ∈ lines, '\n' ∉ line) : ∀ r ∈ rules, ¬ InnerArrow r.lhs.toList := by
  refine Rule.not_innerArrow_of_written (readRules_eq_ok_iff.1 h).2 ?_
  intro line hline hfeed
  rw [visibleLines, List.mem_filter, List.mem_map] at hline
  obtain ⟨⟨raw, hraw, rfl⟩, -⟩ := hline
  exact whole raw hraw (Text.mem_of_mem_strip hfeed)

/-- Printed rules give the same rules again only where no left-hand side holds an inner arrow. -/
theorem readRules_printed_iff (h : readRules lines = .ok rules) :
    readRules (rules.map fun r => r.render.toList) = .ok rules ↔
      ∀ r ∈ rules, ¬ InnerArrow r.lhs.toList := by
  have readable := readable_of_readRules h
  constructor
  · intro again
    refine not_innerArrow_of_readRules again ?_
    intro line hline
    obtain ⟨r, hr, rfl⟩ := List.mem_map.1 hline
    exact feed_not_mem_render (readable r hr)
  · intro simple
    exact readRules_printed (readRules_eq_ok_iff.1 h).1 readable simple

end RuleLine

/-! ## Grammars -/

namespace Grammar

open RuleLine (InnerArrow)

theorem rulesOfDatum_eq_ok_iff {d : Datum} {rules : List Rule} :
    rulesOfDatum d = .ok rules ↔ ∃ lines, ruleLines d = .ok lines ∧ readRules lines = .ok rules := by
  rw [rulesOfDatum]
  cases ruleLines d with
  | error failure => simp [bind, Except.bind]
  | ok lines => cases hread : readRules lines <;> simp [bind, Except.bind, hread]

/-- The value is a text, or a collection of lines without line feeds. -/
def WholeLines (d : Datum) : Prop :=
  (∃ s, d = .text s) ∨ ∃ items lines, (d = .list items ∨ d = .tuple items) ∧
    Datum.texts? items = some lines ∧ ∀ s ∈ lines, '\n' ∉ s.toList

theorem feed_not_mem_ruleLines {d : Datum} {lines : List (List Char)} (whole : WholeLines d)
    (h : ruleLines d = .ok lines) : ∀ line ∈ lines, '\n' ∉ line := by
  rcases whole with ⟨s, rfl⟩ | ⟨items, texts, collection, all, hfeed⟩
  · rw [ruleLines, Except.ok.injEq] at h
    rw [← h]
    intro line hline
    exact Text.not_mem_of_mem_lines hline
  · have htexts : ruleLines d = .ok (texts.map String.toList) := by
      rcases collection with rfl | rfl <;> simp only [ruleLines, all]
    obtain rfl := Except.ok.inj (htexts.symm.trans h)
    intro line hline
    obtain ⟨s, hs, rfl⟩ := List.mem_map.1 hline
    exact hfeed s hs

/-- The lines of rules, as a list. -/
def printedList (rules : List Rule) : Datum := .list (rules.map fun r => .text r.render)

/-- The lines of rules, as a text. -/
def printedText (rules : List Rule) : Datum :=
  .text (Datum.joinWith "\n" (rules.map Rule.render))

/-- The lines of a list of texts. -/
theorem ruleLines_texts (ss : List String) :
    ruleLines (.list (ss.map .text)) = .ok (ss.map String.toList) := by
  simp only [ruleLines, Archive.texts?_text]

theorem ruleLines_printedList (rules : List Rule) :
    ruleLines (printedList rules) = .ok (rules.map fun r => r.render.toList) := by
  have htexts := ruleLines_texts (rules.map Rule.render)
  rw [List.map_map, List.map_map] at htexts
  exact htexts

theorem ruleLines_printedText {rules : List Rule} (hne : rules ≠ [])
    (h : ∀ r ∈ rules, r.Readable) :
    ruleLines (printedText rules) = .ok (rules.map fun r => r.render.toList) := by
  rw [printedText, ruleLines, Text.toList_joinWith_feed, Text.lines_unlines (by simpa using hne),
    List.map_map]
  · rfl
  · intro line hline
    rw [List.map_map] at hline
    obtain ⟨r, hr, rfl⟩ := List.mem_map.1 hline
    exact RuleLine.feed_not_mem_render (h r hr)

theorem sourceOfDatum_fields (d lexicon : Datum) :
    sourceOfDatum (.ofFields [("bnf", d), ("lex", lexicon)]) = .ok ⟨d, lexicon⟩ := by
  have hrules : (Datum.ofFields [("bnf", d), ("lex", lexicon)]).field? "bnf" = some d := by
    rw [Datum.ofFields, Datum.field?, OrderedMap.lookupEntry_text]
    rfl
  have hlexicon : (Datum.ofFields [("bnf", d), ("lex", lexicon)]).field? "lex" = some lexicon := by
    rw [Datum.ofFields, Datum.field?, OrderedMap.lookupEntry_text]
    rfl
  rw [Datum.ofFields] at hrules hlexicon ⊢
  simp only [sourceOfDatum, hrules, hlexicon, Option.getD_some]

/-- A grammar given with lexical rules is made of its rules and of these. -/
theorem ofDatum_fields_eq_ok_iff {d lexicon : Datum} {g : Grammar} :
    ofDatum (.ofFields [("bnf", d), ("lex", lexicon)]) = .ok g ↔
      ∃ l rules, Lexicon.ofDatum lexicon = .ok l ∧ rulesOfDatum d = .ok rules ∧
        g = ofRules rules l ⟨d, lexicon⟩ := by
  rw [ofDatum, sourceOfDatum_fields]
  constructor
  · intro h
    obtain ⟨source, hsource, h⟩ := exists_of_bind_eq_ok h
    obtain rfl := Except.ok.inj hsource
    obtain ⟨l, hl, h⟩ := exists_of_bind_eq_ok h
    obtain ⟨rules, hrules, h⟩ := exists_of_bind_eq_ok h
    exact ⟨l, rules, hl, hrules, (Except.ok.inj h).symm⟩
  · rintro ⟨l, rules, hl, hrules, rfl⟩
    show (Lexicon.ofDatum lexicon >>= fun l => rulesOfDatum d >>= fun rules => _) = _
    rw [hl, hrules]
    rfl

theorem map_render_number {rules : List Rule} (h : ∀ r ∈ rules, r.rhs ≠ []) (first : Nat) :
    ((number first rules).map (·.2)).map Production.render = rules.map Rule.render := by
  induction rules generalizing first with
  | nil => rfl
  | cons r rules ih =>
      have hrest := ih (fun r' hr' => h r' (List.mem_cons_of_mem r hr')) (first + 1)
      rw [number, List.map_cons, List.map_cons, List.map_cons, hrest, Production.render,
        Production.of, if_neg (h r List.mem_cons_self)]
      rfl

/-- The lines of rules that were read are the printed productions of their grammar. Read again, as a
list or as a text, they give the same rules just when no left-hand side holds an arrow behind its first
character, which is so if they were read from a text or from lines without line feeds. Then a grammar of
the lines with the same lexical rules has the same numbered productions, the same start symbol and the
same terminals. -/
theorem printed_rules_read_back {d : Datum} {rules : List Rule} (h : rulesOfDatum d = .ok rules) :
    (rulesOfDatum (printedList rules) = .ok rules ↔ ∀ r ∈ rules, ¬ InnerArrow r.lhs.toList) ∧
    (rulesOfDatum (printedText rules) = .ok rules ↔ ∀ r ∈ rules, ¬ InnerArrow r.lhs.toList) ∧
    (WholeLines d → ∀ r ∈ rules, ¬ InnerArrow r.lhs.toList) ∧
    ∀ lexicon g, ofDatum (.ofFields [("bnf", d), ("lex", lexicon)]) = .ok g →
      g.productionList.map Production.render = rules.map Rule.render ∧
      ((∀ r ∈ rules, ¬ InnerArrow r.lhs.toList) →
        ∀ printed ∈ [printedList rules, printedText rules], ∃ g' : Grammar,
          ofDatum (.ofFields [("bnf", printed), ("lex", lexicon)]) = .ok g' ∧
          g'.productions = g.productions ∧ g'.start = g.start ∧ g'.terminals = g.terminals) := by
  obtain ⟨lines, hlines, hread⟩ := rulesOfDatum_eq_ok_iff.1 h
  have readable := RuleLine.readable_of_readRules hread
  have hne := readRules_ne_nil hread
  have again := RuleLine.readRules_printed_iff hread
  -- a printed rule is one line, so the list and the text hold the same lines
  have listed : rulesOfDatum (printedList rules) = .ok rules ↔
      ∀ r ∈ rules, ¬ InnerArrow r.lhs.toList := by
    rw [rulesOfDatum_eq_ok_iff, ruleLines_printedList, ← again]
    simp
  have texted : rulesOfDatum (printedText rules) = .ok rules ↔
      ∀ r ∈ rules, ¬ InnerArrow r.lhs.toList := by
    rw [rulesOfDatum_eq_ok_iff, ruleLines_printedText hne readable, ← again]
    simp
  refine ⟨listed, texted, ?_, ?_⟩
  · intro whole
    exact RuleLine.not_innerArrow_of_readRules hread (feed_not_mem_ruleLines whole hlines)
  · intro lexicon g made
    obtain ⟨l, rules', hl, hrules', rfl⟩ := ofDatum_fields_eq_ok_iff.1 made
    obtain rfl := Except.ok.inj (h.symm.trans hrules')
    refine ⟨?_, ?_⟩
    · rw [productionList, OrderedMap.values, entries_ofRules]
      exact map_render_number (fun r hr => (readable r hr).written) 1
    · intro simple printed hprinted
      have back : rulesOfDatum printed = .ok rules := by
        rcases List.mem_pair.1 hprinted with rfl | rfl
        · exact listed.2 simple
        · exact texted.2 simple
      exact ⟨ofRules rules l ⟨printed, lexicon⟩,
        ofDatum_fields_eq_ok_iff.2 ⟨l, rules, hl, back, rfl⟩, rfl, rfl, rfl⟩

/-- Two rules of a symbol that is an arrow itself, with a terminal of one blank and one of a bar. -/
def arrows : List Rule := [⟨"->", ["\" \"", "->"]⟩, ⟨"->", ["\"|\""]⟩]

/-- They can be read again. -/
theorem printed_rules_read_back_arrows :
    rulesOfDatum (.text "-> -> \" \"  ->\n | \"|\"") = .ok arrows ∧
      rulesOfDatum (printedList arrows) = .ok arrows ∧
      rulesOfDatum (printedText arrows) = .ok arrows := by
  have read : rulesOfDatum (.text "-> -> \" \"  ->\n | \"|\"") = .ok arrows := by
    apply eq_ok_of_toOption
    decide
  obtain ⟨listed, texted, whole, -⟩ := printed_rules_read_back read
  have simple := whole (.inl ⟨_, rfl⟩)
  exact ⟨read, listed.2 simple, texted.2 simple⟩

/-- A rule with an arrow inside its left-hand side. -/
def broken : List Rule := [⟨"a->b", ["c"]⟩]

/-- A line feed behind the first arrow keeps the rule from being cut there. The printed rule holds none,
so it is cut at the first arrow. -/
theorem not_printed_rules_read_back_broken :
    rulesOfDatum (.list [.text "a->b\n -> c"]) = .ok broken ∧
      printedList broken = .list [.text "a->b -> c"] ∧
      rulesOfDatum (printedList broken) = .ok [⟨"a", ["b", "->", "c"]⟩] ∧
      rulesOfDatum (printedList broken) ≠ .ok broken := by
  have read : rulesOfDatum (.list [.text "a->b\n -> c"]) = .ok broken := by
    apply eq_ok_of_toOption
    decide
  have again : rulesOfDatum (printedList broken) = .ok [⟨"a", ["b", "->", "c"]⟩] := by
    apply eq_ok_of_toOption
    decide
  refine ⟨read, rfl, again, ?_⟩
  rw [again]
  intro same
  exact absurd (Except.ok.inj same) (by decide)

end Grammar

end Predictive
