import Predictive.Proofs.Texts
import Predictive.Proofs.WellFormed
import Mathlib.Data.List.Chain

/-!
# Lines of a grammar

Which lines give which rules, without the numbers that only faults show (`RuleLine.readFrom_eq_ok_iff`).
A rule is cut at the first arrow that leaves something before it (`RuleLine.HeadCut`).
`Rule.Readable` is what all rules that are read have in common (`Rule.readable_of_written`): the
left-hand side holds no blanks, bars and quotes, and the right-hand side is a sequence of words or of
terminals of one blank, in which no bar is alone and no two lone quotes follow each other. Where no line
holds a line feed, a left-hand side holds no arrow behind its first character either
(`Rule.not_innerArrow_of_written`).
-/

set_option autoImplicit false

namespace Predictive

open Text (Visible isBlank)

namespace RuleLine

/-! ## Rules that lines give -/

/-- Lines without blanks at their ends, and the rules that they give when `current` is the nonterminal
of the lines before. -/
inductive Written : Option Symbol → List (List Char) → List Rule → Prop
  | nil {current : Option Symbol} : Written current [] []
  | rule {current : Option Symbol} {line lhs rhs : List Char} {lines : List (List Char)}
      {rules : List Rule} (form : form? line = some (.rule lhs rhs))
      (rest : Written (some (String.ofList lhs)) lines rules) :
      Written current (line :: lines) (rulesOf (String.ofList lhs) rhs ++ rules)
  | alternative {lhs : Symbol} {line rhs : List Char} {lines : List (List Char)}
      {rules : List Rule} (form : form? line = some (.alternative rhs))
      (rest : Written (some lhs) lines rules) :
      Written (some lhs) (line :: lines) (rulesOf lhs rhs ++ rules)

theorem written_of_readFrom {current : Option Symbol} {lines : List (Nat × List Char)}
    {rules : List Rule} (h : readFrom current lines = .ok rules) :
    Written current (lines.map (·.2)) rules := by
  induction lines generalizing current rules with
  | nil =>
      rw [readFrom, Except.ok.injEq] at h
      rw [← h]
      exact .nil
  | cons numbered lines ih =>
      obtain ⟨number, line⟩ := numbered
      rw [readFrom] at h
      split at h
      · exact absurd h (by simp)
      · next lhs rhs form =>
          obtain ⟨rest, hrest, hrules⟩ := exists_of_bind_eq_ok h
          rw [← Except.ok.inj hrules]
          exact .rule form (ih hrest)
      · next rhs form =>
          cases current with
          | none => exact absurd h (by simp)
          | some lhs =>
              obtain ⟨rest, hrest, hrules⟩ := exists_of_bind_eq_ok h
              rw [← Except.ok.inj hrules]
              exact .alternative form (ih hrest)

/-- The numbers of lines do not matter for the rules that are read. -/
theorem readFrom_eq_ok_iff {current : Option Symbol} {lines : List (Nat × List Char)}
    {rules : List Rule} :
    readFrom current lines = .ok rules ↔ Written current (lines.map (·.2)) rules := by
  refine ⟨written_of_readFrom, ?_⟩
  intro h
  induction lines generalizing current rules with
  | nil =>
      cases h
      rfl
  | cons numbered lines ih =>
      cases h with
      | rule form rest => simp only [readFrom, form, ih rest]; rfl
      | alternative form rest => simp only [readFrom, form, ih rest]; rfl

theorem readRules_eq_ok_iff {lines : List (List Char)} {rules : List Rule} :
    readRules lines = .ok rules ↔ rules ≠ [] ∧ Written none (visibleLines lines) rules := by
  rw [← map_numberFrom 1, ← readFrom_eq_ok_iff, readRules]
  cases readFrom none (numberFrom 1 lines) with
  | error fault => simp [bind, Except.bind]
  | ok found =>
      simp only [bind, Except.bind, Except.ok.injEq]
      by_cases hne : found = []
      · rw [if_pos hne]
        simp only [reduceCtorEq, false_iff]
        rintro ⟨hne', rfl⟩
        exact hne' hne
      · rw [if_neg hne, Except.ok.injEq]
        constructor
        · rintro rfl
          exact ⟨hne, rfl⟩
        · exact fun h => h.2

/-! ## Left-hand sides -/

theorem visible_of_isHeadChar {c : Char} (h : isHeadChar c = true) : isBlank c = false := by
  simp only [isHeadChar, Bool.and_eq_true, Bool.not_eq_true'] at h
  exact h.1.1

theorem afterArrow?_cons_blank {c : Char} (h : isBlank c = true) (cs : List Char) :
    afterArrow? (c :: cs) = afterArrow? cs := by
  rw [afterArrow?, afterArrow?, Text.dropBlanks, Text.dropBlanks, List.dropWhile_cons, if_pos h]

/-- Where no blank comes next, the arrow has to. -/
theorem afterArrow?_eq_some_iff {c : Char} {cs rest : List Char} (h : isBlank c = false) :
    afterArrow? (c :: cs) = some rest ↔ c = '-' ∧ cs = '>' :: rest ∧ '\n' ∉ rest := by
  rw [afterArrow?, Text.dropBlanks, List.dropWhile_cons, if_neg (by simp [h])]
  -- no blank is dropped in front of `c`, so the arrow has to begin with it
  split
  · next rest' heq =>
      obtain ⟨rfl, rfl⟩ := List.cons.inj heq
      by_cases hfeed : '\n' ∈ rest'
      · rw [if_pos hfeed]
        simp only [reduceCtorEq, List.cons.injEq, true_and, false_iff, not_and, not_not]
        rintro rfl
        exact hfeed
      · rw [if_neg hfeed]
        simp only [Option.some.injEq, List.cons.injEq, true_and]
        constructor
        · rintro rfl
          exact ⟨rfl, hfeed⟩
        · exact fun h => h.1
  · next hne =>
      simp only [reduceCtorEq, false_iff, not_and]
      rintro rfl rfl
      exact absurd rfl (hne rest)

/-- A rule with its left-hand side and what follows the arrow. The left-hand side goes on as long as no
arrow comes next. -/
inductive HeadCut : List Char → List Char → List Char → Prop
  | here {c : Char} {cs rest : List Char} (char : isHeadChar c = true)
      (arrow : afterArrow? cs = some rest) : HeadCut (c :: cs) [c] rest
  | later {c : Char} {cs head rest : List Char} (char : isHeadChar c = true)
      (arrowless : afterArrow? cs = none) (tail : HeadCut cs head rest) :
      HeadCut (c :: cs) (c :: head) rest

theorem splitHead?_eq_some_iff {cs head rest : List Char} :
    splitHead? cs = some (head, rest) ↔ HeadCut cs head rest := by
  constructor
  · intro h
    induction cs generalizing head with
    | nil => exact absurd h (by simp [splitHead?])
    | cons c cs ih =>
        rw [splitHead?] at h
        split at h
        · next hc =>
            -- the first arrow cuts, so a head goes on only where no arrow follows
            cases harrow : afterArrow? cs with
            | some rest' =>
                rw [harrow] at h
                obtain ⟨rfl, rfl⟩ := Prod.mk.inj (Option.some.inj h)
                exact .here hc harrow
            | none =>
                rw [harrow] at h
                obtain ⟨⟨head', rest'⟩, hsplit, heq⟩ := Option.map_eq_some_iff.1 h
                obtain ⟨rfl, rfl⟩ := Prod.mk.inj heq
                exact .later hc harrow (ih hsplit)
        · exact absurd h (by simp)
  · intro h
    induction h with
    | here char arrow => simp only [splitHead?, char, if_true, arrow]
    | later char arrowless tail ih =>
        simp only [splitHead?, char, if_true, arrowless, ih, Option.map_some]

namespace HeadCut

variable {cs head rest : List Char}

theorem ne_nil (h : HeadCut cs head rest) : head ≠ [] := by
  cases h <;> simp

theorem isHeadChar_of_mem (h : HeadCut cs head rest) : ∀ c ∈ head, isHeadChar c = true := by
  induction h with
  | here char arrow => simpa using char
  | later char arrowless tail ih =>
      intro c hc
      rcases List.mem_cons.1 hc with rfl | hc
      · exact char
      · exact ih c hc

theorem exists_append (h : HeadCut cs head rest) : ∃ tail, cs = head ++ tail := by
  induction h with
  | @here c cs rest char arrow => exact ⟨cs, rfl⟩
  | later char arrowless tail ih =>
      obtain ⟨after, rfl⟩ := ih
      exact ⟨after, rfl⟩

end HeadCut

/-- Behind the first character of the text stands an arrow. -/
def InnerArrow (cs : List Char) : Prop :=
  ∃ front back, cs = front ++ '-' :: '>' :: back ∧ front ≠ []

theorem InnerArrow.cons {cs : List Char} (h : InnerArrow cs) (c : Char) : InnerArrow (c :: cs) := by
  rcases h with ⟨front, back, rfl, -⟩
  exact ⟨c :: front, back, rfl, by simp⟩

/-- In a line without line feeds the first arrow ends the left-hand side. -/
theorem HeadCut.not_innerArrow {line head rest : List Char} (h : HeadCut line head rest)
    (whole : '\n' ∉ line) : ¬ InnerArrow head := by
  induction h with
  | here char arrow =>
      rintro ⟨front, back, hcut, hfront⟩
      have hlength := congrArg List.length hcut
      have hpositive := List.length_pos_iff.2 hfront
      simp only [List.length_append, List.length_cons, List.length_nil] at hlength
      omega
  | @later c cs head rest char arrowless tail ih =>
      have hcs : '\n' ∉ cs := fun hfeed => whole (List.mem_cons_of_mem c hfeed)
      rintro ⟨front, back, hcut, hfront⟩
      obtain ⟨d, front, rfl⟩ := List.exists_cons_of_ne_nil hfront
      obtain ⟨-, rfl⟩ := List.cons.inj hcut
      cases front with
      | cons e front => exact ih hcs ⟨e :: front, back, rfl, by simp⟩
      | nil =>
          -- the arrow comes right behind the first character, where none should come
          obtain ⟨after, rfl⟩ := tail.exists_append
          have hfeed : '\n' ∉ back ++ after :=
            fun hfeed => hcs (List.mem_cons_of_mem _ (List.mem_cons_of_mem _ hfeed))
          have harrow : afterArrow? ('-' :: '>' :: (back ++ after)) = some (back ++ after) :=
            (afterArrow?_eq_some_iff (by decide)).2 ⟨rfl, rfl, hfeed⟩
          exact absurd (arrowless.symm.trans harrow) (by simp)

/-! ## Right-hand sides -/

/-- A sequence of words and terminals of one blank, in which no lone quote comes before a lone quote or
such a terminal. -/
structure Joined (ws : List (List Char)) : Prop where
  word : ∀ w ∈ ws, w = blankTerminal ∨ (w ≠ [] ∧ Visible w)
  apart : ws.IsChain fun v w => v = loneQuote → w ≠ loneQuote ∧ w ≠ blankTerminal

theorem not_visible_blankTerminal : ¬ Visible blankTerminal := by
  intro h
  exact absurd (h ' ' (by simp [blankTerminal])) (by decide)

theorem joinQuotes_cons {v : List Char} (h : v ≠ loneQuote) (ws : List (List Char)) :
    joinQuotes (v :: ws) = v :: joinQuotes ws := by
  cases ws with
  | nil => rfl
  | cons w ws => rw [joinQuotes, if_neg fun hand => h hand.1]

theorem joinQuotes_cons_cons {w : List Char} (h : w ≠ loneQuote) (v : List Char)
    (ws : List (List Char)) : joinQuotes (v :: w :: ws) = v :: joinQuotes (w :: ws) := by
  rw [joinQuotes, if_neg fun hand => h hand.2]

theorem joinQuotes_quotes (ws : List (List Char)) :
    joinQuotes (loneQuote :: loneQuote :: ws) = blankTerminal :: joinQuotes ws := by
  rw [joinQuotes, if_pos ⟨rfl, rfl⟩]

/-- What is put together of words is such a sequence. -/
theorem joined_joinQuotes {ws : List (List Char)} (h : ∀ w ∈ ws, w ≠ [] ∧ Visible w) :
    Joined (joinQuotes ws) := by
  induction ws using joinQuotes.induct with
  | case1 => exact ⟨by simp [joinQuotes], by simp [joinQuotes]⟩
  | case2 w => exact ⟨by simpa [joinQuotes] using .inr (h w (by simp)), by simp [joinQuotes]⟩
  | case3 v w ws quotes ih =>
      obtain ⟨rfl, rfl⟩ := quotes
      obtain ⟨word, apart⟩ := ih fun u hu => h u (by simp [hu])
      rw [joinQuotes_quotes]
      refine ⟨?_, List.isChain_cons.2 ⟨fun u _ hblank => absurd hblank (by decide), apart⟩⟩
      intro u hu
      rcases List.mem_cons.1 hu with rfl | hu
      · exact .inl rfl
      · exact word u hu
  | case4 v w ws other ih =>
      obtain ⟨word, apart⟩ := ih fun u hu => h u (List.mem_cons_of_mem v hu)
      rw [joinQuotes, if_neg other]
      refine ⟨?_, List.isChain_cons.2 ⟨?_, apart⟩⟩
      · intro u hu
        rcases List.mem_cons.1 hu with rfl | hu
        · exact .inr (h u List.mem_cons_self)
        · exact word u hu
      · -- what follows a lone quote is no lone quote, and stays as it is
        intro u hu hv
        have hw : w ≠ loneQuote := fun hw => other ⟨hv, hw⟩
        rw [joinQuotes_cons hw, List.head?_cons, Option.mem_some_iff] at hu
        rw [← hu]
        refine ⟨hw, ?_⟩
        rintro rfl
        exact not_visible_blankTerminal (h blankTerminal (by simp)).2

theorem Joined.part {ws vs : List (List Char)} (h : Joined ws) (part : vs <:+: ws) : Joined vs := by
  refine ⟨fun w hw => h.word w (part.subset hw), ?_⟩
  obtain ⟨front, back, rfl⟩ := part
  exact h.apart.left_of_append.right_of_append

/-- The pieces between bars are parts of the list without bars, and the first one begins it. -/
theorem splitAtBars_spec (ss : List Symbol) :
    ∃ alt alts, splitAtBars ss = alt :: alts ∧ alt <+: ss ∧ bar ∉ alt ∧
      ∀ a ∈ alts, a <:+: ss ∧ bar ∉ a := by
  induction ss with
  | nil => exact ⟨[], [], rfl, List.prefix_refl [], by simp, by simp⟩
  | cons s ss ih =>
      obtain ⟨alt, alts, hsplit, hbegins, hbar, hrest⟩ := ih
      rw [splitAtBars, hsplit]
      have later : ∀ a ∈ alts, a <:+: s :: ss ∧ bar ∉ a :=
        fun a ha => ⟨(hrest a ha).1.trans (List.suffix_cons s ss).isInfix, (hrest a ha).2⟩
      -- behind a bar stands the first of the later alternatives
      by_cases hs : s = bar
      · simp only [if_pos hs]
        refine ⟨[], alt :: alts, rfl, List.nil_prefix, by simp, ?_⟩
        intro a ha
        rcases List.mem_cons.1 ha with rfl | ha
        · exact ⟨hbegins.isInfix.trans (List.suffix_cons s ss).isInfix, hbar⟩
        · exact later a ha
      · simp only [if_neg hs]
        refine ⟨s :: alt, alts, rfl, (List.prefix_cons_inj s).2 hbegins, ?_, later⟩
        rw [List.mem_cons]
        rintro (hbars | hmem)
        · exact hs hbars.symm
        · exact hbar hmem

theorem part_of_mem_splitAtBars {ss alt : List Symbol} (h : alt ∈ splitAtBars ss) :
    alt <:+: ss ∧ bar ∉ alt := by
  obtain ⟨first, alts, hsplit, hbegins, hbar, hrest⟩ := splitAtBars_spec ss
  rw [hsplit] at h
  rcases List.mem_cons.1 h with rfl | h
  · exact ⟨hbegins.isInfix, hbar⟩
  · exact hrest alt h

theorem splitAtBars_of_not_mem {ss : List Symbol} (h : bar ∉ ss) : splitAtBars ss = [ss] := by
  induction ss with
  | nil => rfl
  | cons s ss ih =>
      rcases not_or.1 (mt List.mem_cons.2 h) with ⟨hs, hss⟩
      rw [splitAtBars, ih hss]
      simp only [if_neg (Ne.symm hs)]

end RuleLine

/-! ## Rules that can be read -/

open RuleLine (InnerArrow Joined Written bar isHeadChar visibleLines)

/-- What the rules that are read have in common. -/
structure Rule.Readable (r : Rule) : Prop where
  named : r.lhs.toList ≠ []
  head : ∀ c ∈ r.lhs.toList, isHeadChar c = true
  written : r.rhs ≠ []
  joined : Joined (r.rhs.map String.toList)
  unbarred : bar ∉ r.rhs

namespace RuleLine

theorem joined_symbols (cs : List Char) : Joined ((symbols cs).map String.toList) := by
  rw [symbols, Text.map_toList_ofList]
  exact joined_joinQuotes fun w hw => Text.visible_of_mem_words hw

theorem joined_empty : Joined ([Symbol.empty].map String.toList) where
  word := by
    intro w hw
    obtain rfl : w = Symbol.empty.toList := by simpa using hw
    refine .inr ⟨by decide, ?_⟩
    intro c hc
    obtain rfl : c = 'ε' := by simpa [Symbol.empty] using hc
    decide
  apart := by simp

/-- The rules of a right-hand side can be read if the left-hand side can. -/
theorem readable_of_mem_rulesOf {lhs : Symbol} {rhs : List Char} (named : lhs.toList ≠ [])
    (head : ∀ c ∈ lhs.toList, isHeadChar c = true) {r : Rule} (h : r ∈ rulesOf lhs rhs) :
    r.Readable := by
  rw [rulesOf, List.mem_map] at h
  obtain ⟨alt, halt, rfl⟩ := h
  rw [alternatives, List.mem_map] at halt
  obtain ⟨piece, hpiece, rfl⟩ := halt
  obtain ⟨part, hbar⟩ := part_of_mem_splitAtBars hpiece
  by_cases hempty : piece = []
  · simp only [if_pos hempty]
    have unbarred : bar ∉ [Symbol.empty] := by decide
    exact ⟨named, head, by simp, joined_empty, unbarred⟩
  · simp only [if_neg hempty]
    exact ⟨named, head, hempty, (joined_symbols rhs).part (part.map _), hbar⟩

/-- A line that begins with a rule begins with a left-hand side. -/
theorem splitHead?_of_form? {line lhs rhs : List Char} (h : form? line = some (.rule lhs rhs)) :
    splitHead? line = some (lhs, rhs) := by
  rw [form?.eq_def] at h
  cases hsplit : splitHead? line with
  | some found =>
      rw [hsplit] at h
      obtain ⟨rfl, rfl⟩ := Form.rule.inj (Option.some.inj h)
      rfl
  | none =>
      rw [hsplit] at h
      dsimp only at h
      split at h
      · split at h <;> exact absurd h (by simp)
      · exact absurd h (by simp)

end RuleLine

namespace Rule

variable {current : Option Symbol} {lines : List (List Char)} {rules : List Rule}

/-- What holds of the rules of all good left-hand sides holds of the rules that lines give, if all of
their left-hand sides are good. -/
theorem forall_of_written (good : Symbol → Prop) {property : Rule → Prop}
    (h : Written current lines rules) (before : ∀ lhs, current = some lhs → good lhs)
    (cut : ∀ line ∈ lines, ∀ lhs rhs, RuleLine.splitHead? line = some (lhs, rhs) →
      good (String.ofList lhs))
    (rulesOf : ∀ lhs, good lhs → ∀ rhs, ∀ r ∈ RuleLine.rulesOf lhs rhs, property r) :
    ∀ r ∈ rules, property r := by
  induction h with
  | nil => simp
  | @rule current line lhs rhs lines rules form rest ih =>
      have hlhs := cut line List.mem_cons_self lhs rhs (RuleLine.splitHead?_of_form? form)
      intro r hr
      rcases List.mem_append.1 hr with hr | hr
      · exact rulesOf _ hlhs rhs r hr
      · refine ih ?_ (fun line hline => cut line (List.mem_cons_of_mem _ hline)) r hr
        rintro lhs' ⟨⟩
        exact hlhs
  | @alternative lhs line rhs lines rules form rest ih =>
      intro r hr
      rcases List.mem_append.1 hr with hr | hr
      · exact rulesOf lhs (before lhs rfl) rhs r hr
      · exact ih before (fun line hline => cut line (List.mem_cons_of_mem _ hline)) r hr

/-- All rules that lines give can be read. -/
theorem readable_of_written (h : Written none lines rules) : ∀ r ∈ rules, r.Readable := by
  refine forall_of_written
    (fun lhs => lhs.toList ≠ [] ∧ ∀ c ∈ lhs.toList, isHeadChar c = true) h (by simp) ?_ ?_
  · intro line _ lhs rhs hsplit
    have cut := RuleLine.splitHead?_eq_some_iff.1 hsplit
    rw [String.toList_ofList]
    exact ⟨cut.ne_nil, cut.isHeadChar_of_mem⟩
  · rintro lhs ⟨named, head⟩ rhs r hr
    exact RuleLine.readable_of_mem_rulesOf named head hr

/-- Lines without line feeds give left-hand sides without inner arrows. -/
theorem not_innerArrow_of_written (h : Written none lines rules)
    (whole : ∀ line ∈ lines, '\n' ∉ line) : ∀ r ∈ rules, ¬ InnerArrow r.lhs.toList := by
  refine forall_of_written (fun lhs => ¬ InnerArrow lhs.toList) h (by simp) ?_ ?_
  · intro line hline lhs rhs hsplit
    rw [String.toList_ofList]
    exact (RuleLine.splitHead?_eq_some_iff.1 hsplit).not_innerArrow (whole line hline)
  · intro lhs hlhs rhs r hr
    obtain ⟨alt, -, rfl⟩ := List.mem_map.1 hr
    exact hlhs

end Rule

end Predictive
