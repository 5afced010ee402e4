import Predictive.Proofs.Declarations

/-!
# Written lexical rules

A lexical rule is written as a pattern, a colon and a name. The name follows the last colon that a name
can follow: behind a colon inside a name comes no name, because a name in quotes would be cut and would
hold one quote only (`LexicalLine.split?_isName`). Hence a pattern may hold anything, also colons and
names behind them, and the rule is read as it was written (`LexicalLine.split?_written`). Lines that
write rules with different patterns give the map of these rules, in this order
(`Lexicon.ofDatum_written`).
-/

set_option autoImplicit false

namespace Predictive

open Text (isBlank strip)

namespace LexicalLine

/-! ## Patterns and names -/

/-- Blanks inside a line, among which there is no line feed. -/
def IsGap (cs : List Char) : Prop := ∀ c ∈ cs, isBlank c = true ∧ c ≠ '\n'

/-- A pattern that can be written in a line: it holds something, no line feeds, and no blanks at its
ends. -/
structure IsPattern (pattern : List Char) : Prop where
  filled : pattern ≠ []
  whole : '\n' ∉ pattern
  first : ∀ c ∈ pattern.head?, isBlank c = false
  last : ∀ c ∈ pattern.getLast?, isBlank c = false

/-- A name: a text in double quotes, or a word without blanks, quotes and colons. -/
inductive IsName : List Char → Prop
  | quoted {body : List Char} (closed : '"' ∉ body) (whole : '\n' ∉ body) :
      IsName ('"' :: (body ++ ['"']))
  | bare {name : List Char} (filled : name ≠ []) (chars : ∀ c ∈ name, isNameChar c = true) :
      IsName name

/-- The line writes a pattern and a name, with blanks around them and around the colon. -/
inductive Writes (line pattern name : List Char) : Prop
  | intro (lead gap gap' trail : List Char) (blanks : IsGap lead ∧ IsGap gap ∧ IsGap gap' ∧ IsGap trail)
      (written : line = lead ++ (pattern ++ gap ++ ':' :: (gap' ++ name)) ++ trail)

theorem not_mem_of_isNameChar {c : Char} (h : isNameChar c = true) :
    isBlank c = false ∧ c ≠ '"' ∧ c ≠ ':' := by
  simpa [isNameChar, and_assoc] using h

variable {pattern name gap : List Char}

theorem IsGap.blank (h : IsGap gap) : ∀ b ∈ gap, isBlank b = true := fun b hb => (h b hb).1

theorem IsGap.whole (h : IsGap gap) : '\n' ∉ gap := fun hfeed => (h '\n' hfeed).2 rfl

/-- A name begins with a character that is neither a blank nor a colon. -/
theorem IsName.exists_cons (h : IsName name) :
    ∃ c rest, name = c :: rest ∧ isBlank c = false ∧ c ≠ ':' := by
  cases h with
  | @quoted body _ _ => exact ⟨'"', body ++ ['"'], rfl, by decide, by decide⟩
  | bare filled chars =>
      obtain ⟨c, rest, rfl⟩ := List.exists_cons_of_ne_nil filled
      obtain ⟨hblank, -, hcolon⟩ := not_mem_of_isNameChar (chars c List.mem_cons_self)
      exact ⟨c, rest, rfl, hblank, hcolon⟩

theorem IsName.whole (h : IsName name) : '\n' ∉ name := by
  cases h with
  | quoted _ whole => simpa using whole
  | bare _ chars =>
      intro hfeed
      exact absurd (not_mem_of_isNameChar (chars '\n' hfeed)).1 (by decide)

theorem IsName.last (h : IsName name) : ∀ c ∈ name.getLast?, isBlank c = false := by
  cases h with
  | quoted _ _ =>
      intro c hc
      rw [← List.cons_append, List.getLast?_concat, Option.mem_some_iff] at hc
      rw [← hc]
      decide
  | bare _ chars =>
      intro c hc
      exact (not_mem_of_isNameChar (chars c (List.mem_of_getLast? hc))).1

theorem IsName.dropBlanks (h : IsName name) : Text.dropBlanks name = name := by
  obtain ⟨c, rest, rfl, hblank, -⟩ := h.exists_cons
  exact Text.dropBlanks_of_head (by simpa using hblank)

/-! ## Names that are read -/

/-- Where a name stands at the end, it is read. -/
theorem leadingName?_isName (h : IsName name) : leadingName? name = some name := by
  cases h with
  | @quoted body closed _ =>
      have hbody : ∀ c ∈ body, decide (c ≠ '"') = true := by
        intro c hc
        exact decide_eq_true fun hquote => closed (hquote ▸ hc)
      have hafter : ['"'].dropWhile (fun c => decide (c ≠ '"')) = ['"'] := by decide
      have hnone : ['"'].takeWhile (fun c => decide (c ≠ '"')) = [] := by decide
      simp only [leadingName?, List.dropWhile_append_of_pos hbody,
        List.takeWhile_append_of_pos hbody, hafter, hnone, List.all_nil, if_true, List.append_nil,
        List.cons_append]
  | bare filled chars =>
      have htake : name.takeWhile isNameChar = name := List.takeWhile_eq_self_iff.2 chars
      have hdrop : name.dropWhile isNameChar = [] := List.dropWhile_eq_nil_iff.2 chars
      rw [leadingName?.eq_def]
      split
      · next rest =>
          have hquote := not_mem_of_isNameChar (chars '"' List.mem_cons_self)
          exact absurd rfl hquote.2.1
      · rw [htake, hdrop, if_pos ⟨filled, rfl⟩]

/-- Before a quote that nothing closes no name is read. -/
theorem leadingName?_unclosed {cs : List Char} (closed : '"' ∉ cs) :
    leadingName? (cs ++ ['"']) = none := by
  cases cs with
  | nil => rfl
  | cons c cs =>
      have hquote : c ≠ '"' := fun h => closed (h ▸ List.mem_cons_self)
      -- the last quote is left behind what could be a name without quotes
      have hleft : '"' ∈ (c :: cs ++ ['"']).dropWhile isNameChar := by
        have hmem : '"' ∈ c :: cs ++ ['"'] := by simp
        rw [← List.takeWhile_append_dropWhile (p := isNameChar) (l := c :: cs ++ ['"'])] at hmem
        refine (List.mem_append.1 hmem).resolve_left fun htake => ?_
        exact absurd (List.mem_takeWhile_imp htake) (by decide)
      rw [leadingName?.eq_def]
      split
      · next rest heq => exact absurd (List.cons.inj heq).1 hquote
      · rw [if_neg]
        rintro ⟨-, hblank⟩
        exact absurd (List.all_eq_true.1 hblank '"' hleft) (by decide)

theorem nameAfterColon?_cons_blank {b : Char} (h : isBlank b = true) (cs : List Char) :
    nameAfterColon? (b :: cs) = nameAfterColon? cs := by
  rw [nameAfterColon?, nameAfterColon?, Text.dropBlanks, Text.dropBlanks, List.dropWhile_cons,
    if_pos h]

/-- No name comes where no colon comes first. -/
theorem nameAfterColon?_cons {c : Char} (hblank : isBlank c = false) (hcolon : c ≠ ':')
    (cs : List Char) : nameAfterColon? (c :: cs) = none := by
  rw [nameAfterColon?, Text.dropBlanks, List.dropWhile_cons, if_neg (by simp [hblank])]
  split
  · next rest heq => exact absurd (List.cons.inj heq).1 hcolon
  · rfl

theorem nameAfterColon?_gap (h : IsGap gap) (cs : List Char) :
    nameAfterColon? (gap ++ cs) = nameAfterColon? cs := by
  rw [nameAfterColon?, nameAfterColon?, Text.dropBlanks_append h.blank]

/-- No name comes before a quote that nothing closes, even behind a colon. -/
theorem nameAfterColon?_unclosed {cs : List Char} (closed : '"' ∉ cs) :
    nameAfterColon? (cs ++ ['"']) = none := by
  induction cs with
  | nil => rfl
  | cons c cs ih =>
      rcases not_or.1 (mt List.mem_cons.2 closed) with ⟨-, hcs⟩
      by_cases hblank : isBlank c = true
      · rw [List.cons_append, nameAfterColon?_cons_blank hblank]
        exact ih hcs
      · by_cases hcolon : c = ':'
        · -- what follows the colon ends with the quote too
          subst hcolon
          have hrest : '"' ∉ Text.dropBlanks cs :=
            fun hmem => hcs ((List.dropWhile_sublist isBlank).subset hmem)
          rw [List.cons_append, nameAfterColon?, Text.dropBlanks_of_head (by simp [hblank])]
          simp only [Text.dropBlanks_concat (show isBlank '"' = false by decide)]
          exact leadingName?_unclosed hrest
        · rw [List.cons_append]
          exact nameAfterColon?_cons (by simpa using hblank) hcolon _

/-- Behind the colon that separates a pattern from a name the name is read. -/
theorem nameAfterColon?_written {gap' : List Char} (hgap : IsGap gap) (hgap' : IsGap gap')
    (h : IsName name) : nameAfterColon? (gap ++ ':' :: (gap' ++ name)) = some name := by
  rw [nameAfterColon?_gap hgap, nameAfterColon?,
    Text.dropBlanks_of_head (show ∀ c ∈ (':' :: (gap' ++ name)).head?, isBlank c = false by simp; decide)]
  simp only [Text.dropBlanks_append hgap'.blank, h.dropBlanks]
  exact leadingName?_isName h

/-! ## Lines that are cut -/

theorem split?_of_some {c : Char} {cs : List Char} (hfeed : c ≠ '\n')
    (h : split? cs = some (pattern, name)) : split? (c :: cs) = some (c :: pattern, name) := by
  rw [split?, if_neg hfeed, h]

/-- Where no later place is good to cut, the line is cut here if a name follows. -/
theorem split?_of_none {c : Char} {cs : List Char} (hfeed : c ≠ '\n') (hblank : isBlank c = false)
    (h : split? cs = none) : split? (c :: cs) = (nameAfterColon? cs).map fun name => ([c], name) := by
  rw [split?, if_neg hfeed, h]
  simp only [hblank, Bool.false_eq_true, if_false]

theorem split?_cons_none {c : Char} {cs : List Char} (h : split? cs = none)
    (unnamed : nameAfterColon? cs = none) : split? (c :: cs) = none := by
  rw [split?, h, unnamed]
  simp

theorem split?_gap {cs : List Char} (hgap : IsGap gap) (h : split? cs = none) :
    split? (gap ++ cs) = none := by
  induction gap with
  | nil => exact h
  | cons b gap ih =>
      obtain ⟨hblank, -⟩ := hgap b List.mem_cons_self
      rw [List.cons_append, split?, ih fun c hc => hgap c (List.mem_cons_of_mem b hc)]
      simp [hblank]

theorem split?_unclosed {cs : List Char} (closed : '"' ∉ cs) : split? (cs ++ ['"']) = none := by
  induction cs with
  | nil => rfl
  | cons c cs ih =>
      rcases not_or.1 (mt List.mem_cons.2 closed) with ⟨-, hcs⟩
      exact split?_cons_none (ih hcs) (nameAfterColon?_unclosed hcs)

/-- A name is not cut. -/
theorem split?_isName (h : IsName name) : split? name = none := by
  cases h with
  | quoted closed _ => exact split?_cons_none (split?_unclosed closed) (nameAfterColon?_unclosed closed)
  | bare _ chars =>
      clear * - chars
      induction name with
      | nil => rfl
      | cons c name ih =>
          have hrest : ∀ d ∈ name, isNameChar d = true :=
            fun d hd => chars d (List.mem_cons_of_mem c hd)
          refine split?_cons_none (ih hrest) ?_
          cases name with
          | nil => rfl
          | cons d name =>
              obtain ⟨hblank, -, hcolon⟩ := not_mem_of_isNameChar (hrest d List.mem_cons_self)
              exact nameAfterColon?_cons hblank hcolon name

/-- What follows a pattern is not cut. -/
theorem split?_behind {gap' : List Char} (hgap : IsGap gap) (hgap' : IsGap gap') (h : IsName name) :
    split? (gap ++ ':' :: (gap' ++ name)) = none := by
  refine split?_gap hgap (split?_cons_none (split?_gap hgap' (split?_isName h)) ?_)
  obtain ⟨c, rest, rfl, hblank, hcolon⟩ := h.exists_cons
  rw [nameAfterColon?_gap hgap']
  exact nameAfterColon?_cons hblank hcolon rest

/-- A written rule is cut behind its pattern, whatever that is. -/
theorem split?_written {gap' : List Char} (hpattern : IsPattern pattern) (hgap : IsGap gap)
    (hgap' : IsGap gap') (h : IsName name) :
    split? (pattern ++ gap ++ ':' :: (gap' ++ name)) = some (pattern, name) := by
  obtain ⟨filled, whole, -, last⟩ := hpattern
  obtain ⟨front, c, rfl⟩ := (List.eq_nil_or_concat' pattern).resolve_left filled
  have hc : isBlank c = false := last c (by simp)
  clear filled last
  induction front with
  | nil =>
      have hfeed : c ≠ '\n' := fun hfeed => whole (by simp [hfeed])
      have hcut := split?_of_none hfeed hc (split?_behind hgap hgap' h)
      rw [nameAfterColon?_written hgap hgap' h] at hcut
      rw [List.nil_append, List.append_assoc]
      exact hcut
  | cons d front ih =>
      rcases not_or.1 (mt List.mem_cons.2 whole) with ⟨hfeed, whole'⟩
      exact split?_of_some (Ne.symm hfeed) (ih whole')

/-- A line that writes a rule is cut as it was put together, once the blanks around it are gone. -/
theorem split?_strip {line : List Char} (hpattern : IsPattern pattern) (h : IsName name)
    (written : Writes line pattern name) : split? (strip line) = some (pattern, name) := by
  obtain ⟨lead, gap, gap', trail, ⟨hlead, hgap, hgap', htrail⟩, rfl⟩ := written
  obtain ⟨c, rest, rfl⟩ := List.exists_cons_of_ne_nil hpattern.filled
  rw [Text.strip_surrounded hlead.blank htrail.blank]
  · exact split?_written hpattern hgap hgap' h
  · exact hpattern.first
  · intro d hd
    -- the line ends with the name
    obtain ⟨e, back, rfl, -, -⟩ := h.exists_cons
    apply h.last
    rw [Option.mem_def] at hd ⊢
    rw [← hd, ← List.cons_append, ← List.append_assoc]
    exact (List.getLast?_append_of_ne_nil _ (List.cons_ne_nil e back)).symm

theorem feed_not_mem_line {line : List Char} (hpattern : IsPattern pattern) (h : IsName name)
    (written : Writes line pattern name) : '\n' ∉ line := by
  obtain ⟨lead, gap, gap', trail, ⟨hlead, hgap, hgap', htrail⟩, rfl⟩ := written
  simp [hlead.whole, hgap.whole, hgap'.whole, htrail.whole, hpattern.whole, h.whole]

end LexicalLine

/-! ## Lists of rules -/

open LexicalLine (IsPattern IsName Writes)

namespace LexicalRule

/-- The pattern and the name can be written in a line. -/
def Writable (r : LexicalRule) : Prop := IsPattern r.pattern.toList ∧ IsName r.name.toList

/-- The line writes the rule. -/
def WrittenIn (line : String) (r : LexicalRule) : Prop :=
  Writes line.toList r.pattern.toList r.name.toList

/-- Lines that write rules declare these rules. -/
theorem writtenAs_visibleLines {lines : List String} {ds : List LexicalRule}
    (h : List.Forall₂ WrittenIn lines ds) (writable : ∀ r ∈ ds, r.Writable) :
    List.Forall₂ WrittenAs (RuleLine.visibleLines (lines.map String.toList)) ds := by
  induction h with
  | nil => exact .nil
  | @cons line r lines ds written _ ih =>
      obtain ⟨hpattern, hname⟩ := writable r List.mem_cons_self
      have hcut : WrittenAs (Text.strip line.toList) r :=
        LexicalLine.split?_strip hpattern hname written
      have hne : Text.strip line.toList ≠ [] := by
        intro hnil
        rw [WrittenAs, hnil] at hcut
        exact absurd hcut (by simp [LexicalLine.split?])
      rw [List.map_cons, RuleLine.visibleLines_cons, if_neg hne]
      exact .cons hcut (ih fun r' hr' => writable r' (List.mem_cons_of_mem r hr'))

theorem feed_not_mem_lines {lines : List String} {ds : List LexicalRule}
    (h : List.Forall₂ WrittenIn lines ds) (writable : ∀ r ∈ ds, r.Writable) :
    ∀ line ∈ lines.map String.toList, '\n' ∉ line := by
  induction h with
  | nil => simp
  | @cons line r lines ds written _ ih =>
      obtain ⟨hpattern, hname⟩ := writable r List.mem_cons_self
      rw [List.map_cons, List.forall_mem_cons]
      exact ⟨LexicalLine.feed_not_mem_line hpattern hname written,
        ih fun r' hr' => writable r' (List.mem_cons_of_mem r hr')⟩

end LexicalRule

namespace Lexicon

/-- Rules with different patterns are the entries of their lexicon. -/
theorem exists_ofDeclarations {ds : List LexicalRule}
    (distinct : (ds.map LexicalRule.pattern).Nodup) :
    ∃ rules, ofDeclarations ds = .declared rules ∧
      rules.entries = ds.map fun r => (r.pattern, r.name) := by
  refine ⟨_, rfl, OrderedMap.entries_ofList ?_⟩
  rw [List.pairwise_map]
  rw [List.Nodup, List.pairwise_map] at distinct
  exact distinct.imp fun hne => by simpa [LexicalRule.entry] using hne

/-- The value holds the lines: as a list, as a tuple or as a text in which line feeds join them. -/
def HoldsLines (d : Datum) (lines : List String) : Prop :=
  d = .list (lines.map .text) ∨ d = .tuple (lines.map .text) ∨
    d = .text (Datum.joinWith "\n" lines)

/-- Lines that write rules with different patterns, each with any blanks around its pattern and its name,
give the map of these rules in this order, whatever stands in the patterns. -/
theorem ofDatum_written {ds : List LexicalRule} {lines : List String} {d : Datum}
    (writable : ∀ r ∈ ds, r.Writable) (distinct : (ds.map LexicalRule.pattern).Nodup)
    (written : List.Forall₂ LexicalRule.WrittenIn lines ds) (holds : HoldsLines d lines) :
    ∃ rules, ofDatum d = .ok (.declared rules) ∧
      rules.entries = ds.map fun r => (r.pattern, r.name) := by
  have visible := LexicalRule.writtenAs_visibleLines written writable
  have declares : Declares d ds := by
    rcases holds with rfl | rfl | rfl
    · exact .lines (.inl rfl) (Archive.texts?_text lines) visible
    · exact .lines (.inr rfl) (Archive.texts?_text lines) visible
    · refine .text ?_
      rw [Text.toList_joinWith_feed,
        RuleLine.visibleLines_unlines (LexicalRule.feed_not_mem_lines written writable)]
      exact visible
  obtain ⟨rules, hrules, entries⟩ := exists_ofDeclarations distinct
  exact ⟨rules, by rw [ofDatum_of_declares declares, hrules], entries⟩

/-- Patterns that hold a colon with a name behind it, and a name that holds a colon and blanks. -/
def colons : List LexicalRule :=
  [⟨"a : B", "C"⟩, ⟨"\"x\" : \"y", "\" : z\""⟩, ⟨":", "\"\""⟩]

/-- Lines that write them, with and without blanks. -/
def colonLines : List String := [" a : B:C", "\"x\" : \"y :\t\" : z\"\r", "::\"\""]

/-- They are read as they were written, from a list and from a text. -/
theorem ofDatum_written_colons :
    (∀ r ∈ colons, r.Writable) ∧ (colons.map LexicalRule.pattern).Nodup ∧
      List.Forall₂ LexicalRule.WrittenIn colonLines colons ∧
      HoldsLines (.text " a : B:C\n\"x\" : \"y :\t\" : z\"\r\n::\"\"") colonLines ∧
      ∀ d, HoldsLines d colonLines → ∃ rules, ofDatum d = .ok (.declared rules) ∧
        rules.entries = [("a : B", "C"), ("\"x\" : \"y", "\" : z\""), (":", "\"\"")] := by
  have patterns : ∀ r ∈ colons, IsPattern r.pattern.toList := by
    have filled : ∀ r ∈ colons, r.pattern.toList ≠ [] := by decide
    have whole : ∀ r ∈ colons, '\n' ∉ r.pattern.toList := by decide
    have first : ∀ r ∈ colons, (r.pattern.toList.head?.all (!Text.isBlank ·)) = true := by decide
    have last : ∀ r ∈ colons, (r.pattern.toList.getLast?.all (!Text.isBlank ·)) = true := by decide
    intro r hr
    refine ⟨filled r hr, whole r hr, fun c hc => ?_, fun c hc => ?_⟩
    · simpa [Option.mem_def.1 hc] using first r hr
    · simpa [Option.mem_def.1 hc] using last r hr
  have names : ∀ r ∈ colons, IsName r.name.toList := by
    have bare : IsName "C".toList := .bare (by decide) (List.all_eq_true.1 (by decide))
    have quoted : IsName "\" : z\"".toList := @IsName.quoted " : z".toList (by decide) (by decide)
    have empty : IsName "\"\"".toList := @IsName.quoted [] (by decide) (by decide)
    simp only [colons, List.forall_mem_cons]
    exact ⟨bare, quoted, empty, by simp⟩
  -- the blanks between the parts of a line
  have gaps : ∀ gap ∈ [[], [' '], ['\t'], ['\r']], LexicalLine.IsGap gap := by
    have blanks : ∀ gap ∈ [[], [' '], ['\t'], ['\r']],
        (gap.all fun c => Text.isBlank c && c != '\n') = true := by decide
    intro gap hgap c hc
    simpa using List.all_eq_true.1 (blanks gap hgap) c hc
  have written : List.Forall₂ LexicalRule.WrittenIn colonLines colons :=
    .cons (.intro [' '] [] [] [] ⟨gaps _ (by decide), gaps _ (by decide), gaps _ (by decide),
        gaps _ (by decide)⟩ rfl)
      (.cons (.intro [] [' '] ['\t'] ['\r'] ⟨gaps _ (by decide), gaps _ (by decide),
          gaps _ (by decide), gaps _ (by decide)⟩ rfl)
        (.cons (.intro [] [] [] [] ⟨gaps _ (by decide), gaps _ (by decide), gaps _ (by decide),
            gaps _ (by decide)⟩ rfl) .nil))
  have writable : ∀ r ∈ colons, r.Writable := fun r hr => ⟨patterns r hr, names r hr⟩
  have distinct : (colons.map LexicalRule.pattern).Nodup := by decide
  exact ⟨writable, distinct, written, .inr (.inr rfl),
    fun d holds => ofDatum_written writable distinct written holds⟩

end Lexicon

end Predictive
