import Predictive.Proofs.PrintedRules
import Mathlib.Logic.Relation

/-!
# The layout of alternatives

An alternative may stand in a line of its own, behind a bar, or in the line of the alternative before it.
`RuleLine.Joins` puts the one form into the other: a line and the alternative that follows it become one
line with a bar between them. What the first line is and the nonterminal that it belongs to do not change
by this (`RuleLine.gives_barred_iff`), and the bar stands alone between blanks, so that it ends a word and
an alternative and no two quotes are put together over it (`RuleLine.rulesOf_barred`).

So the lines give the same rules before and after, or none before and after
(`RuleLine.Joins.readRules_eq_ok_iff`). Lines that can be read are joined step by step until every line
begins with a left-hand side (`RuleLine.exists_headed`).
-/

set_option autoImplicit false

namespace Predictive

open Text (isBlank strip words)

namespace RuleLine

/-! ## Joined lines -/

/-- What stands behind a line when an alternative goes on in it. -/
def barred (tail : List Char) : List Char := ' ' :: '|' :: tail

/-- A line and the alternative of the line after it, as one line. -/
def joined (line alternative : List Char) : List Char := line ++ barred (' ' :: alternative)

/-- The second lines are the first ones, but for an alternative that goes on in the line before it. Only
blank lines stood between the two, and any blank lines may stand around the joined line. -/
inductive Joins : List (List Char) → List (List Char) → Prop
  | intro {line next alternative : List Char} (before gap front back after : List (List Char))
      (written : strip line ≠ []) (behind : strip next = '|' :: alternative)
      (blank : ∀ l ∈ gap ++ (front ++ back), strip l = []) :
      Joins (before ++ line :: (gap ++ next :: after))
        (before ++ (front ++ joined (strip line) alternative :: (back ++ after)))

/-- The word that separates alternatives. -/
def barWord : List Char := ['|']

/-- The bar of the joined line and what stands behind it, without the blanks at the end, say the same as
the line of the alternative. -/
structure Continues (tail alternative : List Char) : Prop where
  words : words ('|' :: tail) = barWord :: words alternative
  feed : '\n' ∈ tail ↔ '\n' ∈ alternative

/-- A joined line without the blanks at its ends; of an empty alternative only the bar is left. -/
theorem exists_strip_joined {line next alternative : List Char} (written : strip line ≠ [])
    (behind : strip next = '|' :: alternative) :
    ∃ tail, strip (joined (strip line) alternative) = strip line ++ barred tail ∧
      Continues tail alternative := by
  have first : ∀ tail, ∀ c ∈ (strip line ++ barred tail).head?, isBlank c = false := by
    intro tail c hc
    rw [List.head?_append_of_ne_nil _ written] at hc
    exact (Text.ends_strip line).1 c hc
  cases alternative with
  | nil =>
      -- the blank behind the bar is at the end of the line
      refine ⟨[], ?_, by decide, Iff.rfl⟩
      have bar : ∀ c ∈ (strip line ++ barred []).getLast?, isBlank c = false := by
        intro c hc
        rw [barred, List.getLast?_append, Option.mem_def] at hc
        obtain rfl : '|' = c := by simpa using hc
        decide
      have none : ∀ b ∈ [], isBlank b = true := by simp
      have blank : ∀ b ∈ [' '], isBlank b = true := List.forall_mem_singleton.2 (by decide)
      have surrounded := Text.strip_surrounded none blank (first []) bar
      rw [List.nil_append, List.append_assoc] at surrounded
      exact surrounded
  | cons a alternative =>
      have continues : words ('|' :: ' ' :: a :: alternative) = barWord :: words (a :: alternative) := by
        rw [Text.words_cons_cons_blank (by decide) (by decide), Text.words_cons_blank (by decide)]
        rfl
      refine ⟨' ' :: a :: alternative, ?_, continues, by simp⟩
      rw [joined]
      refine Text.strip_eq_self (first _) ?_
      -- the last character is that of the second line
      intro c hc
      refine (Text.ends_strip next).2 c ?_
      rw [behind]
      simpa [barred, List.getLast?_append, List.getLast?_cons] using hc

/-! ## What a line gives -/

/-- The line goes on with this nonterminal and gives it this right-hand side, when `current` is the
nonterminal of the lines before. -/
inductive Gives (current : Option Symbol) (line : List Char) : Symbol → List Char → Prop
  | rule {lhs rhs : List Char} (cut : HeadCut line lhs rhs) : Gives current line (String.ofList lhs) rhs
  | alternative {lhs : Symbol} {rhs : List Char} (before : current = some lhs)
      (bar : line = '|' :: rhs) (whole : '\n' ∉ rhs) : Gives current line lhs rhs

theorem splitHead?_bar (rhs : List Char) : splitHead? ('|' :: rhs) = none := by
  have char : isHeadChar '|' = false := by decide
  simp only [splitHead?, char, Bool.false_eq_true, if_false]

theorem form?_eq_rule_iff {line lhs rhs : List Char} :
    form? line = some (.rule lhs rhs) ↔ HeadCut line lhs rhs := by
  rw [← splitHead?_eq_some_iff]
  refine ⟨splitHead?_of_form?, fun cut => ?_⟩
  rw [form?.eq_def, cut]

theorem form?_eq_alternative_iff {line rhs : List Char} :
    form? line = some (.alternative rhs) ↔ line = '|' :: rhs ∧ '\n' ∉ rhs := by
  constructor
  · intro h
    rw [form?.eq_def] at h
    split at h
    · exact absurd h (by simp)
    · split at h
      · next rest _ =>
          by_cases hfeed : '\n' ∈ rest
          · exact absurd h (by simp [hfeed])
          · rw [if_neg hfeed] at h
            obtain rfl := Form.alternative.inj (Option.some.inj h)
            exact ⟨rfl, hfeed⟩
      · exact absurd h (by simp)
  · rintro ⟨rfl, whole⟩
    rw [form?.eq_def, splitHead?_bar]
    simp only [if_neg whole]

variable {current : Option Symbol} {line lhs rhs tail : List Char} {lines : List (List Char)}
  {rules : List Rule}

/-- Lines give the rules of the first one and then those of the others. -/
theorem written_cons_iff :
    Written current (line :: lines) rules ↔ ∃ lhs rhs rest, Gives current line lhs rhs ∧
      rules = rulesOf lhs rhs ++ rest ∧ Written (some lhs) lines rest := by
  constructor
  · intro h
    cases h with
    | rule form rest => exact ⟨_, _, _, .rule (form?_eq_rule_iff.1 form), rfl, rest⟩
    | alternative form rest =>
        obtain ⟨bar, whole⟩ := form?_eq_alternative_iff.1 form
        exact ⟨_, _, _, .alternative rfl bar whole, rfl, rest⟩
  · rintro ⟨lhs, rhs, rest, gives, rfl, hrest⟩
    cases gives with
    | rule cut => exact .rule (form?_eq_rule_iff.2 cut) hrest
    | alternative before bar whole =>
        subst before
        exact .alternative (form?_eq_alternative_iff.2 ⟨bar, whole⟩) hrest

theorem gives_bar_iff {lhs : Symbol} {alternative : List Char} :
    Gives current ('|' :: alternative) lhs rhs ↔
      current = some lhs ∧ rhs = alternative ∧ '\n' ∉ alternative := by
  constructor
  · rintro (cut | ⟨before, bar, whole⟩)
    · exact absurd ((splitHead?_bar _).symm.trans (splitHead?_eq_some_iff.2 cut)) (by simp)
    · obtain ⟨-, rfl⟩ := List.cons.inj bar
      exact ⟨before, rfl, whole⟩
  · rintro ⟨before, rfl, whole⟩
    exact .alternative before rfl whole

/-! ## A bar behind a line -/

theorem feed_mem_barred {cs : List Char} : '\n' ∈ cs ++ barred tail ↔ '\n' ∈ cs ∨ '\n' ∈ tail := by
  simp [barred]

/-- An arrow that comes next is not one that a bar brings in. -/
theorem afterArrow?_barred_iff {cs rest : List Char} :
    afterArrow? (cs ++ barred tail) = some rest ↔
      ∃ rest', afterArrow? cs = some rest' ∧ '\n' ∉ tail ∧ rest = rest' ++ barred tail := by
  induction cs with
  | nil =>
      rw [List.nil_append, barred, afterArrow?_cons_blank (by decide),
        afterArrow?_eq_some_iff (by decide)]
      have none : afterArrow? [] = none := rfl
      simp [none]
  | cons c cs ih =>
      rw [List.cons_append]
      cases hc : isBlank c with
      | true => rw [afterArrow?_cons_blank hc, afterArrow?_cons_blank hc, ih]
      | false =>
          -- the arrow has to begin here, and what follows its first character is no blank
          simp only [afterArrow?_eq_some_iff hc]
          constructor
          · rintro ⟨rfl, hcs, whole⟩
            cases cs with
            | nil => exact absurd (List.cons.inj hcs).1 (by decide)
            | cons d cs =>
                rw [List.cons_append] at hcs
                obtain ⟨rfl, rfl⟩ := List.cons.inj hcs
                rw [feed_mem_barred, not_or] at whole
                exact ⟨cs, ⟨rfl, rfl, whole.1⟩, whole.2, rfl⟩
          · rintro ⟨rest', ⟨rfl, rfl, whole⟩, htail, rfl⟩
            refine ⟨rfl, rfl, ?_⟩
            rw [feed_mem_barred, not_or]
            exact ⟨whole, htail⟩

theorem afterArrow?_barred_eq_none_iff {cs : List Char} (whole : '\n' ∉ tail) :
    afterArrow? (cs ++ barred tail) = none ↔ afterArrow? cs = none := by
  simp only [Option.eq_none_iff_forall_ne_some, ne_eq, afterArrow?_barred_iff]
  constructor
  · exact fun h rest hrest => h _ ⟨rest, hrest, whole, rfl⟩
  · rintro h _ ⟨rest, hrest, -⟩
    exact h rest hrest

/-- The left-hand side is cut off as without the bar. -/
theorem headCut_barred_iff :
    HeadCut (line ++ barred tail) lhs rhs ↔
      ∃ rhs', HeadCut line lhs rhs' ∧ '\n' ∉ tail ∧ rhs = rhs' ++ barred tail := by
  constructor
  · intro h
    induction line generalizing lhs with
    | nil =>
        -- a left-hand side does not begin with a blank
        have blank : isHeadChar ' ' = false := by decide
        rw [List.nil_append, barred] at h
        cases h with
        | here char _ => exact absurd (blank.symm.trans char) (by decide)
        | later char _ _ => exact absurd (blank.symm.trans char) (by decide)
    | cons c cs ih =>
        rw [List.cons_append] at h
        cases h with
        | here char arrow =>
            obtain ⟨rest, harrow, htail, rfl⟩ := afterArrow?_barred_iff.1 arrow
            exact ⟨rest, .here char harrow, htail, rfl⟩
        | later char arrowless cut =>
            obtain ⟨rest, hcut, htail, rfl⟩ := ih cut
            have arrowless' := (afterArrow?_barred_eq_none_iff htail).1 arrowless
            exact ⟨rest, .later char arrowless' hcut, htail, rfl⟩
  · rintro ⟨rest, h, htail, rfl⟩
    induction h with
    | here char arrow =>
        exact .here char (afterArrow?_barred_iff.2 ⟨_, arrow, htail, rfl⟩)
    | later char arrowless cut ih =>
        exact .later char ((afterArrow?_barred_eq_none_iff htail).2 arrowless) ih

/-- A line gives what it gives without the bar, and what stands behind it. -/
theorem gives_barred_iff {lhs : Symbol} (written : line ≠ []) :
    Gives current (line ++ barred tail) lhs rhs ↔
      ∃ rhs', Gives current line lhs rhs' ∧ '\n' ∉ tail ∧ rhs = rhs' ++ barred tail := by
  constructor
  · rintro (cut | ⟨before, bar, whole⟩)
    · obtain ⟨rhs', hcut, htail, rfl⟩ := headCut_barred_iff.1 cut
      exact ⟨rhs', .rule hcut, htail, rfl⟩
    · -- a line that is written keeps its first character, so the bar in front is its own
      obtain ⟨c, cs, rfl⟩ := List.exists_cons_of_ne_nil written
      rw [List.cons_append] at bar
      obtain ⟨rfl, rfl⟩ := List.cons.inj bar
      rw [feed_mem_barred, not_or] at whole
      exact ⟨cs, .alternative before rfl whole.1, whole.2, rfl⟩
  · rintro ⟨rhs', gives, htail, rfl⟩
    cases gives with
    | rule cut => exact .rule (headCut_barred_iff.2 ⟨rhs', cut, htail, rfl⟩)
    | alternative before bar whole =>
        subst bar
        refine .alternative before rfl ?_
        rw [feed_mem_barred, not_or]
        exact ⟨whole, htail⟩

/-! ## Right-hand sides with a bar -/

/-- Quotes are not put together over a bar. -/
theorem joinQuotes_bar (ws vs : List (List Char)) :
    joinQuotes (ws ++ barWord :: vs) = joinQuotes ws ++ barWord :: joinQuotes vs := by
  have other : barWord ≠ loneQuote := by decide
  induction ws using joinQuotes.induct with
  | case1 => exact joinQuotes_cons other vs
  | case2 w =>
      -- a last quote has the bar behind it, which is no quote
      rw [List.singleton_append, joinQuotes_cons_cons other, joinQuotes_cons other]
      rfl
  | case3 v w ws quotes ih =>
      obtain ⟨rfl, rfl⟩ := quotes
      rw [List.cons_append, List.cons_append, joinQuotes_quotes, joinQuotes_quotes, ih,
        List.cons_append]
  | case4 v w ws apart ih =>
      rw [List.cons_append] at ih
      rw [List.cons_append, List.cons_append, joinQuotes, joinQuotes, if_neg apart, if_neg apart, ih,
        List.cons_append]

/-- A bar ends a piece. -/
theorem splitAtBars_bar (ss ts : List Symbol) :
    splitAtBars (ss ++ bar :: ts) = splitAtBars ss ++ splitAtBars ts := by
  induction ss with
  | nil =>
      obtain ⟨alt, alts, hsplit, -⟩ := splitAtBars_spec ts
      rw [List.nil_append, splitAtBars, splitAtBars, hsplit]
      simp only [if_true, List.singleton_append]
  | cons s ss ih =>
      obtain ⟨alt, alts, hsplit, -⟩ := splitAtBars_spec ss
      rw [hsplit, List.cons_append] at ih
      rw [List.cons_append, splitAtBars, ih, splitAtBars, hsplit]
      by_cases hs : s = bar
      · simp only [if_pos hs, List.cons_append]
      · simp only [if_neg hs, List.cons_append]

theorem symbols_barred {tail alternative : List Char}
    (h : words ('|' :: tail) = barWord :: words alternative) (rhs : List Char) :
    symbols (rhs ++ barred tail) = symbols rhs ++ bar :: symbols alternative := by
  rw [symbols, symbols, symbols, barred, Text.words_append_blank (by decide), h, joinQuotes_bar,
    List.map_append, List.map_cons]
  rfl

/-- The alternatives of a right-hand side with a bar are those before the bar and those behind it. -/
theorem rulesOf_barred {tail alternative : List Char}
    (h : words ('|' :: tail) = barWord :: words alternative) (lhs : Symbol) (rhs : List Char) :
    rulesOf lhs (rhs ++ barred tail) = rulesOf lhs rhs ++ rulesOf lhs alternative := by
  rw [rulesOf, symbols_barred h, alternatives, splitAtBars_bar, List.map_append, List.map_append]
  rfl

/-! ## Lines with and without their alternatives -/

/-- A line with an alternative gives the rules of two lines. -/
theorem written_joined_iff {alternative : List Char} (written : line ≠ [])
    (continues : Continues tail alternative) :
    Written current ((line ++ barred tail) :: lines) rules ↔
      Written current (line :: ('|' :: alternative) :: lines) rules := by
  constructor
  · intro h
    obtain ⟨lhs, rhs, rest, gives, rfl, hrest⟩ := written_cons_iff.1 h
    obtain ⟨rhs', gives', whole, rfl⟩ := (gives_barred_iff written).1 gives
    rw [rulesOf_barred continues.words, List.append_assoc]
    have next : Gives (some lhs) ('|' :: alternative) lhs alternative :=
      gives_bar_iff.2 ⟨rfl, rfl, mt continues.feed.2 whole⟩
    exact written_cons_iff.2 ⟨lhs, rhs', _, gives', rfl,
      written_cons_iff.2 ⟨lhs, alternative, rest, next, rfl, hrest⟩⟩
  · intro h
    obtain ⟨lhs, rhs, more, gives, rfl, hmore⟩ := written_cons_iff.1 h
    obtain ⟨lhs', rhs', rest, next, rfl, hrest⟩ := written_cons_iff.1 hmore
    -- the nonterminal of the second line is the one that the first line gives rules to
    obtain ⟨same, rfl, whole⟩ := gives_bar_iff.1 next
    obtain rfl := Option.some.inj same
    have gives' : Gives current (line ++ barred tail) lhs (rhs ++ barred tail) :=
      (gives_barred_iff written).2 ⟨rhs, gives, mt continues.feed.1 whole, rfl⟩
    rw [← List.append_assoc, ← rulesOf_barred continues.words]
    exact written_cons_iff.2 ⟨lhs, _, rest, gives', rfl, hrest⟩

/-- Lines before them do not matter for lines that give the same rules. -/
theorem written_append_congr {xs ys : List (List Char)}
    (same : ∀ current rules, Written current xs rules ↔ Written current ys rules)
    (before : List (List Char)) :
    Written current (before ++ xs) rules ↔ Written current (before ++ ys) rules := by
  induction before generalizing current rules with
  | nil => exact same current rules
  | cons line before ih => simp only [List.cons_append, written_cons_iff, ih]

namespace Joins

variable {ls ls' : List (List Char)}

/-- What a joining does to the lines that are read. -/
theorem exists_visibleLines (h : Joins ls ls') :
    ∃ before line tail alternative after, line ≠ [] ∧ Continues tail alternative ∧
      visibleLines ls = before ++ line :: ('|' :: alternative) :: after ∧
      visibleLines ls' = before ++ (line ++ barred tail) :: after := by
  obtain ⟨before, gap, front, back, after, written, behind, blank⟩ := h
  simp only [List.forall_mem_append] at blank
  obtain ⟨hgap, hfront, hback⟩ := blank
  obtain ⟨tail, hstrip, continues⟩ := exists_strip_joined written behind
  refine ⟨visibleLines before, _, tail, _, visibleLines after, written, continues, ?_, ?_⟩
  · rw [visibleLines_append, visibleLines_cons, if_neg written, visibleLines_append,
      visibleLines_eq_nil_iff.2 hgap, visibleLines_cons, behind, if_neg (by simp), List.nil_append]
  · rw [visibleLines_append, visibleLines_append, visibleLines_eq_nil_iff.2 hfront, visibleLines_cons,
      hstrip, if_neg (by simp [barred]), visibleLines_append, visibleLines_eq_nil_iff.2 hback,
      List.nil_append, List.nil_append]

/-- Joined lines give the same rules. -/
theorem readRules_eq_ok_iff (h : Joins ls ls') {rules : List Rule} :
    readRules ls' = .ok rules ↔ readRules ls = .ok rules := by
  obtain ⟨before, line, tail, alternative, after, written, continues, hls, hls'⟩ :=
    h.exists_visibleLines
  rw [RuleLine.readRules_eq_ok_iff, RuleLine.readRules_eq_ok_iff, hls, hls',
    written_append_congr fun _ _ => written_joined_iff written continues]

end Joins

/-! ## One line for each left-hand side -/

/-- The left-hand side that a line begins with, if it begins with one. -/
def head? (line : List Char) : Option (List Char) := (splitHead? line).map (·.1)

/-- The left-hand sides that lines begin with, in their order. -/
def heads (ls : List (List Char)) : List (List Char) := (visibleLines ls).filterMap head?

theorem head?_barred (whole : '\n' ∉ tail) : head? (line ++ barred tail) = head? line := by
  cases hcut : splitHead? line with
  | some found =>
      obtain ⟨lhs, rhs⟩ := found
      have cut := headCut_barred_iff.2 ⟨rhs, splitHead?_eq_some_iff.1 hcut, whole, rfl⟩
      rw [head?, head?, hcut, splitHead?_eq_some_iff.2 cut]
      rfl
  | none =>
      cases hbarred : splitHead? (line ++ barred tail) with
      | none => rw [head?, head?, hcut, hbarred]
      | some found =>
          obtain ⟨lhs, rhs⟩ := found
          obtain ⟨rhs', cut, -⟩ := headCut_barred_iff.1 (splitHead?_eq_some_iff.1 hbarred)
          exact absurd (hcut.symm.trans (splitHead?_eq_some_iff.2 cut)) (by simp)

/-- Each of the lines that give rules gives some. -/
theorem exists_gives_of_mem (h : Written current lines rules) (hline : line ∈ lines) :
    ∃ before lhs rhs, Gives before line lhs rhs := by
  induction lines generalizing current rules with
  | nil => exact absurd hline (by simp)
  | cons first lines ih =>
      obtain ⟨lhs, rhs, rest, gives, -, hrest⟩ := written_cons_iff.1 h
      rcases List.mem_cons.1 hline with rfl | hline
      · exact ⟨current, lhs, rhs, gives⟩
      · exact ih hrest hline

/-- A line that gives rules and begins with no left-hand side begins with a bar. -/
theorem Gives.exists_bar {lhs : Symbol} (h : Gives current line lhs rhs) (headless : head? line = none) :
    current = some lhs ∧ ∃ alternative, line = '|' :: alternative := by
  cases h with
  | rule cut => simp [head?, splitHead?_eq_some_iff.2 cut] at headless
  | alternative before bar whole => exact ⟨before, rhs, bar⟩

theorem Joins.heads_eq {ls ls' : List (List Char)} (h : Joins ls ls') (read : readRules ls = .ok rules) :
    heads ls' = heads ls := by
  obtain ⟨before, line, tail, alternative, after, -, continues, hls, hls'⟩ := h.exists_visibleLines
  have given := (RuleLine.readRules_eq_ok_iff.1 read).2
  rw [hls] at given
  obtain ⟨current, lhs, rhs, gives⟩ := exists_gives_of_mem given
    (show '|' :: alternative ∈ before ++ line :: ('|' :: alternative) :: after by simp)
  have whole := (gives_bar_iff.1 gives).2.2
  have headless : head? ('|' :: alternative) = none := by rw [head?, splitHead?_bar, Option.map_none]
  simp only [heads, hls, hls', List.filterMap_append, List.filterMap_cons, headless,
    head?_barred (mt continues.feed.1 whole)]

theorem Joins.length_lt {ls ls' : List (List Char)} (h : Joins ls ls') :
    (visibleLines ls').length < (visibleLines ls).length := by
  obtain ⟨before, line, tail, alternative, after, -, -, hls, hls'⟩ := h.exists_visibleLines
  rw [hls, hls']
  simp only [List.length_append, List.length_cons]
  omega

/-- A line that is read stands somewhere among the lines. -/
theorem exists_of_visibleLines {ls vs ws : List (List Char)} (h : visibleLines ls = vs ++ line :: ws) :
    ∃ before raw after, ls = before ++ raw :: after ∧ strip raw = line ∧
      visibleLines before = vs ∧ visibleLines after = ws := by
  induction ls generalizing vs with
  | nil => exact absurd h (by simp [visibleLines])
  | cons l ls ih =>
      rw [visibleLines_cons] at h
      -- a blank line goes to what stands before the line that is looked for
      by_cases hl : strip l = []
      · rw [if_pos hl] at h
        obtain ⟨before, raw, after, rfl, hraw, hvs, hws⟩ := ih h
        exact ⟨l :: before, raw, after, rfl, hraw, by rw [visibleLines_cons, if_pos hl, hvs], hws⟩
      · rw [if_neg hl] at h
        cases vs with
        | nil =>
            obtain ⟨hline, hws⟩ := List.cons.inj h
            exact ⟨[], l, ls, rfl, hline, rfl, hws⟩
        | cons v vs =>
            obtain ⟨hv, hrest⟩ := List.cons.inj h
            obtain ⟨before, raw, after, rfl, hraw, hvs, hws⟩ := ih hrest
            exact ⟨l :: before, raw, after, rfl, hraw, by rw [visibleLines_cons, if_neg hl, hvs, hv],
              hws⟩

/-- A line before an alternative is joined with it. -/
theorem exists_joins {ls vs ws : List (List Char)} {alternative : List Char}
    (h : visibleLines ls = vs ++ line :: ('|' :: alternative) :: ws) : ∃ ls', Joins ls ls' := by
  have written : line ≠ [] := by
    have hline : line ∈ visibleLines ls := by simp [h]
    simpa using (List.mem_filter.1 hline).2
  obtain ⟨before, raw, rest, rfl, rfl, -, hrest⟩ := exists_of_visibleLines h
  have hrest' : visibleLines rest = [] ++ ('|' :: alternative) :: ws := hrest
  obtain ⟨gap, next, after, rfl, hnext, hgap, -⟩ := exists_of_visibleLines hrest'
  have blank : ∀ l ∈ gap ++ ([] ++ gap), strip l = [] := by
    simpa using visibleLines_eq_nil_iff.1 hgap
  exact ⟨_, .intro before gap [] gap after written hnext blank⟩

theorem map_head?_eq {vs : List (List Char)} (h : ∀ line ∈ vs, head? line ≠ none) :
    vs.map head? = (vs.filterMap head?).map some := by
  induction vs with
  | nil => rfl
  | cons v vs ih =>
      obtain ⟨lhs, hlhs⟩ := Option.ne_none_iff_exists'.1 (h v List.mem_cons_self)
      have hrest := ih fun line hline => h line (List.mem_cons_of_mem v hline)
      rw [List.map_cons, List.filterMap_cons_some hlhs, List.map_cons, hlhs, hrest]

/-- Lines that can be read are joined, step by step, until each begins with a left-hand side. -/
theorem exists_headed {ls : List (List Char)} (h : readRules ls = .ok rules) :
    ∃ ls', Relation.ReflTransGen Joins ls ls' ∧ readRules ls' = .ok rules ∧
      (visibleLines ls').map head? = (heads ls).map some := by
  induction hn : (visibleLines ls).length using Nat.strongRecOn generalizing ls with
  | ind n ih =>
      by_cases all : ∀ line ∈ visibleLines ls, head? line ≠ none
      · exact ⟨ls, .refl, h, map_head?_eq all⟩
      · push Not at all
        obtain ⟨line, hline, headless⟩ := all
        obtain ⟨vs, ws, hvisible⟩ := List.append_of_mem hline
        have given := (RuleLine.readRules_eq_ok_iff.1 h).2
        obtain ⟨current, lhs, rhs, gives⟩ := exists_gives_of_mem given hline
        obtain ⟨-, alternative, rfl⟩ := gives.exists_bar headless
        -- it is not the first line, since nothing stands before that
        obtain ⟨ls', joins⟩ : ∃ ls', Joins ls ls' := by
          rcases List.eq_nil_or_concat' vs with rfl | ⟨vs, first, rfl⟩
          · rw [hvisible, List.nil_append] at given
            obtain ⟨lhs, rhs, rest, gives, -⟩ := written_cons_iff.1 given
            exact absurd (gives.exists_bar headless).1 (by simp)
          · rw [List.append_assoc] at hvisible
            exact exists_joins hvisible
        -- there is one line less now
        have again := joins.readRules_eq_ok_iff.2 h
        obtain ⟨last, steps, read, headed⟩ := ih _ (hn ▸ joins.length_lt) again rfl
        exact ⟨last, .head joins steps, read, by rw [headed, joins.heads_eq h]⟩

end RuleLine

/-! ## Grammars -/

namespace Grammar

open RuleLine (Joins heads head? visibleLines)

/-- Two values give the same rules in the same order, or both are refused for a fault of the rules. With
any lexical rules they give the same grammar, apart from the values that it was read from. -/
structure ReadAlike (d d' : Datum) : Prop where
  rules : (∃ rules, rulesOfDatum d = .ok rules ∧ rulesOfDatum d' = .ok rules) ∨
    ∃ fault fault', rulesOfDatum d = .error (.grammar fault) ∧
      rulesOfDatum d' = .error (.grammar fault')
  grammar : ∀ lexicon source,
    (ofDatum (.ofFields [("bnf", d), ("lex", lexicon)])).toOption.map
        (fun g => { g with source := source }) =
      (ofDatum (.ofFields [("bnf", d'), ("lex", lexicon)])).toOption.map
        (fun g => { g with source := source })

theorem map_toOption_ofDatum_eq_some_iff {d lexicon : Datum} {source : Source} {g : Grammar} :
    (ofDatum (.ofFields [("bnf", d), ("lex", lexicon)])).toOption.map
        (fun g => { g with source := source }) = some g ↔
      ∃ l rules, Lexicon.ofDatum lexicon = .ok l ∧ rulesOfDatum d = .ok rules ∧
        g = ofRules rules l source := by
  constructor
  · intro h
    obtain ⟨g', hg', rfl⟩ := Option.map_eq_some_iff.1 h
    obtain ⟨l, rules, hl, hrules, rfl⟩ := ofDatum_fields_eq_ok_iff.1 (eq_ok_of_toOption hg')
    exact ⟨l, rules, hl, hrules, rfl⟩
  · rintro ⟨l, rules, hl, hrules, rfl⟩
    rw [ofDatum_fields_eq_ok_iff.2 ⟨l, rules, hl, hrules, rfl⟩]
    rfl

variable {d d' : Datum} {ls ls' : List (List Char)}

/-- Values whose lines give the same rules are read alike. -/
theorem readAlike_of_readRules (h : ruleLines d = .ok ls) (h' : ruleLines d' = .ok ls')
    (same : ∀ rules, readRules ls' = .ok rules ↔ readRules ls = .ok rules) : ReadAlike d d' := by
  -- only whether rules are read, and which ones, is the same; the faults may differ
  have rules_iff : ∀ rules, rulesOfDatum d' = .ok rules ↔ rulesOfDatum d = .ok rules := by
    intro rules
    simp only [rulesOfDatum_eq_ok_iff, h, h', Except.ok.injEq, exists_eq_left', same]
  constructor
  · cases hread : readRules ls with
    | ok rules =>
        have read : rulesOfDatum d = .ok rules := rulesOfDatum_eq_ok_iff.2 ⟨ls, h, hread⟩
        exact .inl ⟨rules, read, (rules_iff rules).2 read⟩
    | error fault =>
        cases hread' : readRules ls' with
        | ok rules => exact absurd (hread.symm.trans ((same rules).1 hread')) (by simp)
        | error fault' =>
            refine .inr ⟨fault, fault', ?_, ?_⟩ <;>
              simp only [rulesOfDatum, h, h', hread, hread', bind, Except.bind]
  · intro lexicon source
    apply Option.ext
    intro g
    simp only [map_toOption_ofDatum_eq_some_iff, rules_iff]

/-- The lines as a value. -/
def lineList (ls : List (List Char)) : Datum := .list ((ls.map String.ofList).map .text)

theorem ruleLines_lineList (ls : List (List Char)) : ruleLines (lineList ls) = .ok ls := by
  rw [lineList, ruleLines_texts, Text.map_toList_ofList]

/-- Where a line and the alternative of the next line that is not blank are joined to one line, the same
rules are read, or none, and the same grammar is made of them. Lines that can be read are joined to lines
that each begin with a left-hand side, one for each line that began with one before, and these are read
alike. -/
theorem joined_lines_read_alike (h : ruleLines d = .ok ls) :
    (∀ d' ls', ruleLines d' = .ok ls' → Joins ls ls' → ReadAlike d d') ∧
    ∀ rules, rulesOfDatum d = .ok rules →
      ∃ ls', Relation.ReflTransGen Joins ls ls' ∧ (visibleLines ls').map head? = (heads ls).map some ∧
        readRules ls' = .ok rules ∧ ∀ d', ruleLines d' = .ok ls' → ReadAlike d d' := by
  constructor
  · intro d' ls' h' joins
    exact readAlike_of_readRules h h' fun rules => joins.readRules_eq_ok_iff
  · intro rules read
    obtain ⟨lines, hlines, hread⟩ := rulesOfDatum_eq_ok_iff.1 read
    obtain rfl := Except.ok.inj (h.symm.trans hlines)
    obtain ⟨ls', steps, hread', headed⟩ := RuleLine.exists_headed hread
    refine ⟨ls', steps, headed, hread', fun d' h' => readAlike_of_readRules h h' ?_⟩
    rw [hread, hread']
    exact fun _ => Iff.rfl

/-- Alternatives in lines of their own: a lone quote that the quote before it must not be put together
with, an arrow, empty alternatives and the terminal of one blank. -/
def scattered : List (List Char) :=
  ["S -> a \"", " ", "\t|\" S -> b | ", "T ->", "|", "", "| \" \""].map String.toList

/-- The first alternative stands in the line before it. -/
def gathered : List (List Char) :=
  ["S -> a \" | \" S -> b |", " ", "T ->", "|", "", "| \" \""].map String.toList

/-- They give the same rules, which one line for each left-hand side gives as well. -/
theorem joined_lines_read_alike_scattered :
    ruleLines (lineList scattered) = .ok scattered ∧
      rulesOfDatum (lineList scattered) = .ok [⟨"S", ["a", "\""]⟩, ⟨"S", ["\"", "S", "->", "b"]⟩,
        ⟨"S", ["ε"]⟩, ⟨"T", ["ε"]⟩, ⟨"T", ["ε"]⟩, ⟨"T", ["\" \""]⟩] ∧
      Joins scattered gathered ∧ ReadAlike (lineList scattered) (lineList gathered) ∧
      ∃ ls', (visibleLines ls').map head? = [some ['S'], some ['T']] ∧
        ReadAlike (lineList scattered) (lineList ls') := by
  have lines := ruleLines_lineList scattered
  have read : rulesOfDatum (lineList scattered) = .ok [⟨"S", ["a", "\""]⟩,
      ⟨"S", ["\"", "S", "->", "b"]⟩, ⟨"S", ["ε"]⟩, ⟨"T", ["ε"]⟩, ⟨"T", ["ε"]⟩, ⟨"T", ["\" \""]⟩] := by
    apply eq_ok_of_toOption
    decide
  have joins : Joins scattered gathered := by
    have written : Text.strip "S -> a \"".toList ≠ [] := by decide
    have behind : Text.strip "\t|\" S -> b | ".toList = '|' :: "\" S -> b |".toList := by decide
    exact .intro [] [" ".toList] [] [" ".toList] (["T ->", "|", "", "| \" \""].map String.toList)
      written behind (by decide)
  obtain ⟨alike, single⟩ := joined_lines_read_alike lines
  obtain ⟨ls', -, headed, -, again⟩ := single _ read
  have heads : (heads scattered).map some = [some ['S'], some ['T']] := by decide
  exact ⟨lines, read, joins, alike _ _ (ruleLines_lineList gathered) joins, ls', headed.trans heads,
    again _ (ruleLines_lineList ls')⟩

end Grammar

end Predictive
