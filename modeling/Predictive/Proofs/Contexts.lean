import Predictive.Proofs.Tokenization
import Predictive.Rejection

/-!
# The place of a rejection

A rejection with a position is shown by the part of its line that is near the position, and by a caret
below it. The characters are cut off at the last line feed before the position and at the first one from
it on (`Rejection.afterLastFeed_drop`, `Rejection.beforeFirstFeed_take`), so nothing of another line is
shown. The blanks before the caret are as many as the characters that stand before the position when
tabs are expanded, and with them the expanded line begins (`Text.expandTabs_append`): the caret stands
below the place at which the line goes on with the position (`Rejection.context_shows`).
-/

set_option autoImplicit false

namespace Predictive

/-! ## Tabs -/

namespace Text

/-- The text with its tabs replaced by blanks up to the next tab stop, when it begins at column
`column` (counted from zero). Behind a line feed or a carriage return columns begin anew. -/
def expandTabs : List Char → Nat → List Char
  | [], _ => []
  | c :: cs, column =>
      if c = '\t' then
        let width := tabStop - column % tabStop
        List.replicate width ' ' ++ expandTabs cs (column + width)
      else if c = '\n' ∨ c = '\r' then c :: expandTabs cs 0
      else c :: expandTabs cs (column + 1)

theorem length_expandTabs (cs : List Char) (column : Nat) :
    (expandTabs cs column).length = expandedLength cs column := by
  induction cs generalizing column with
  | nil => rfl
  | cons c cs ih =>
      rw [expandTabs, expandedLength]
      by_cases htab : c = '\t'
      · simp only [if_pos htab, List.length_append, List.length_replicate, ih]
      · simp only [if_neg htab]
        split <;> rw [List.length_cons, ih, Nat.add_comm]

/-- What comes behind a text does not change how the tabs in it are replaced. -/
theorem expandTabs_append (cs ds : List Char) (column : Nat) :
    expandTabs cs column <+: expandTabs (cs ++ ds) column := by
  induction cs generalizing column with
  | nil => exact List.nil_prefix
  | cons c cs ih =>
      rw [List.cons_append, expandTabs, expandTabs]
      by_cases htab : c = '\t'
      · simp only [if_pos htab]
        exact (List.prefix_append_right_inj _).2 (ih _)
      · simp only [if_neg htab]
        split <;> exact (List.prefix_cons_inj c).2 (ih _)

/-! ## Pieces of a text -/

/-- A piece falls into two at each place inside it. -/
theorem slice_append {cs : List Char} {first place last : Nat} (before : first ≤ place)
    (after : place ≤ last) (inside : place ≤ cs.length) :
    slice cs first place ++ slice cs place last = slice cs first last := by
  rw [slice_ofNat, slice_ofNat, slice_ofNat]
  have cut : cs.take last = cs.take place ++ (cs.take last).drop place := by
    have whole := List.take_append_drop place (cs.take last)
    rw [List.take_take, Nat.min_eq_left after] at whole
    exact whole.symm
  have short : first ≤ (cs.take place).length := by
    rw [List.length_take]
    omega
  rw [← List.drop_append_of_le_length short, ← cut]

end Text

/-- The line of the place ends at `stop`: at the first line feed from the place on, or at the end of the
text without one. -/
def IsLineEnd (text : List Char) (place stop : Nat) : Prop :=
  place ≤ stop ∧ stop ≤ text.length ∧ '\n' ∉ Text.slice text place stop ∧
    (stop = text.length ∨ text[stop]? = some '\n')

theorem exists_isLineEnd {text : List Char} {place : Nat} (inside : place ≤ text.length) :
    ∃ stop, IsLineEnd text place stop := by
  -- the text behind the place falls into the rest of the line and what begins with a line feed
  have hcut := List.takeWhile_append_dropWhile (p := fun c => decide (c ≠ '\n'))
    (l := text.drop place)
  have hline : '\n' ∉ (text.drop place).takeWhile fun c => decide (c ≠ '\n') := by
    intro h
    exact absurd (List.mem_takeWhile_imp h) (by simp)
  have hhead := List.head?_dropWhile_not (fun c => decide (c ≠ '\n')) (text.drop place)
  generalize (text.drop place).takeWhile (fun c => decide (c ≠ '\n')) = line at hcut hline
  generalize (text.drop place).dropWhile (fun c => decide (c ≠ '\n')) = back at hcut hhead
  obtain ⟨front, rfl, rfl⟩ : ∃ front, text = front ++ (line ++ back) ∧ front.length = place := by
    refine ⟨text.take place, ?_, List.length_take_of_le inside⟩
    rw [hcut, List.take_append_drop]
  have hslice : Text.slice (front ++ (line ++ back)) front.length (front.length + line.length) =
      line := by
    rw [← Int.natCast_add, Text.slice_ofNat, List.take_length_add_append, List.drop_left,
      List.take_left]
  refine ⟨front.length + line.length, by omega, by simp, ?_, ?_⟩
  · rw [Int.natCast_add, hslice]
    exact hline
  · cases back with
    | nil => exact .inl (by simp)
    | cons c back =>
        refine .inr ?_
        simp at hhead
        simp [hhead]

/-- A line has one beginning. -/
theorem IsLineStart.unique {before : List Char} {start start' : Nat}
    (h : IsLineStart before start) (h' : IsLineStart before start') : start = start' := by
  -- a later beginning would have a line feed before it in the line of the earlier one
  have notLater : ∀ {s s'}, IsLineStart before s → IsLineStart before s' → ¬ s < s' := by
    rintro s s' ⟨-, hline, -⟩ ⟨-, -, hfeed⟩ hlt
    apply hline
    rw [List.mem_iff_getElem?]
    refine ⟨s' - 1 - s, ?_⟩
    rw [List.getElem?_drop, Nat.add_sub_cancel' (by omega)]
    exact hfeed.resolve_left (by omega)
  exact Nat.le_antisymm (Nat.not_lt.1 (notLater h' h)) (Nat.not_lt.1 (notLater h h'))

/-- A line has one end behind a place. -/
theorem IsLineEnd.unique {text : List Char} {place stop stop' : Nat}
    (h : IsLineEnd text place stop) (h' : IsLineEnd text place stop') : stop = stop' := by
  have notLater : ∀ {s s'}, IsLineEnd text place s → IsLineEnd text place s' → ¬ s < s' := by
    rintro s s' ⟨hplace, -, -, hfeed⟩ ⟨-, hstop, hline, -⟩ hlt
    apply hline
    rw [Text.slice_ofNat, List.mem_iff_getElem?]
    refine ⟨s - place, ?_⟩
    rw [List.getElem?_drop, Nat.add_sub_cancel' hplace, List.getElem?_take_of_lt hlt]
    exact hfeed.resolve_left (by omega)
  exact Nat.le_antisymm (Nat.not_lt.1 (notLater h' h)) (Nat.not_lt.1 (notLater h h'))

namespace Rejection

/-! ## The rest of a line on both sides -/

theorem afterLastFeed_of_not_mem {cs : List Char} (h : '\n' ∉ cs) : afterLastFeed cs = cs := by
  rw [afterLastFeed, List.takeWhile_eq_self_iff.2, List.reverse_reverse]
  intro c hc
  exact decide_eq_true fun hfeed => h (hfeed ▸ List.mem_reverse.1 hc)

theorem afterLastFeed_append_feed {cs : List Char} (h : '\n' ∉ cs) (front : List Char) :
    afterLastFeed (front ++ '\n' :: cs) = cs := by
  have hback : ∀ c ∈ cs.reverse, decide (c ≠ '\n') = true := by
    intro c hc
    exact decide_eq_true fun hfeed => h (hfeed ▸ List.mem_reverse.1 hc)
  rw [afterLastFeed, List.reverse_append, List.reverse_cons, List.append_assoc,
    List.takeWhile_append_of_pos hback, List.singleton_append, List.takeWhile_cons_of_neg (by simp),
    List.append_nil, List.reverse_reverse]

/-- Of the characters before a place those of its line are left. -/
theorem afterLastFeed_drop {before : List Char} {start : Nat} (h : IsLineStart before start)
    (first : Nat) : afterLastFeed (before.drop first) = before.drop (max start first) := by
  obtain ⟨hstart, hline, hfeed⟩ := h
  by_cases hfirst : start ≤ first
  · -- all of them belong to the line
    rw [Nat.max_eq_right hfirst]
    apply afterLastFeed_of_not_mem
    intro hmem
    rw [← Nat.add_sub_cancel' hfirst, ← List.drop_drop] at hmem
    exact hline (List.mem_of_mem_drop hmem)
  · have hlast := hfeed.resolve_left (by omega)
    obtain ⟨hlt, hget⟩ := List.getElem?_eq_some_iff.1 hlast
    have hcut : before = before.take (start - 1) ++ '\n' :: before.drop start := by
      have hdrop := List.drop_eq_getElem_cons hlt
      rw [hget, Nat.sub_add_cancel (by omega)] at hdrop
      rw [← hdrop, List.take_append_drop]
    have hshort : first ≤ (before.take (start - 1)).length := by
      rw [List.length_take]
      omega
    have hdrop : before.drop first =
        (before.take (start - 1)).drop first ++ '\n' :: before.drop start := by
      rw [← List.drop_append_of_le_length hshort, ← hcut]
    rw [Nat.max_eq_left (by omega), hdrop, afterLastFeed_append_feed hline]

/-- Of the characters from a place on those of its line are left. -/
theorem beforeFirstFeed_slice {text : List Char} {place stop : Nat} (h : IsLineEnd text place stop)
    (last : Nat) : beforeFirstFeed (Text.slice text place last) =
      Text.slice text place (min stop last : Nat) := by
  obtain ⟨hplace, hstop, hline, hfeed⟩ := h
  have clear : ∀ c ∈ Text.slice text place stop, decide (c ≠ '\n') = true := by
    intro c hc
    exact decide_eq_true fun hc' => hline (hc' ▸ hc)
  rw [beforeFirstFeed]
  rcases Nat.le_total last stop with hlast | hlast
  · -- the piece ends before the line does
    rw [Nat.min_eq_right hlast]
    apply List.takeWhile_eq_self_iff.2
    intro c hc
    apply clear c
    rw [Text.slice_ofNat, List.drop_take] at hc ⊢
    exact (List.take_prefix_take_left (Nat.sub_le_sub_right hlast place)).subset hc
  · rw [Nat.min_eq_left hlast, ← Text.slice_append hplace hlast hstop,
      List.takeWhile_append_of_pos clear]
    -- behind the line stands a line feed, if anything
    have hnone : (Text.slice text stop last).takeWhile (fun c => decide (c ≠ '\n')) = [] := by
      rw [Text.slice_ofNat, List.takeWhile_eq_nil_iff]
      intro hpos
      rw [List.length_drop, List.length_take] at hpos
      have hget := hfeed.resolve_left (by omega)
      obtain ⟨hlt, hchar⟩ := List.getElem?_eq_some_iff.1 hget
      simp [hchar]
    rw [hnone, List.append_nil]

/-! ## The place and its line -/

/-- What is shown of a place in a text: the part of its line that is at most `span` characters away, and
below it a caret. -/
theorem contextAt_eq {text : List Char} {position span place start stop : Nat}
    (inside : place = min position text.length) (hstart : IsLineStart (text.take place) start)
    (hstop : IsLineEnd text place stop) :
    contextAt text position span =
      Text.slice text (max start (place - span) : Nat) (min stop (place + span) : Nat) ++
        '\n' :: List.replicate
          (Text.expandTabs (Text.slice text (max start (place - span) : Nat) place) 0).length ' ' ++
        ['^', '\n'] := by
  have hbefore : afterLastFeed (Text.slice text (place - span : Nat) place) =
      Text.slice text (max start (place - span) : Nat) place := by
    rw [Text.slice_ofNat, Text.slice_ofNat, afterLastFeed_drop hstart]
  have hafter := beforeFirstFeed_slice hstop (place + span)
  -- the two parts of the line meet at the place of the caret
  have hshown : Text.slice text (max start (place - span) : Nat) place ++
      Text.slice text place (min stop (place + span) : Nat) =
        Text.slice text (max start (place - span) : Nat) (min stop (place + span) : Nat) := by
    have hlength := hstart.1
    rw [List.length_take] at hlength
    exact Text.slice_append (by omega) (le_min hstop.1 (by omega)) (by omega)
  have hplace : min (position : Int) text.length = place := by omega
  have hfirst : max ((place : Int) - span) 0 = (place - span : Nat) := by omega
  rw [contextAt]
  simp only [hplace, hfirst, hbefore, ← Int.natCast_add, hafter, ← Text.length_expandTabs, hshown]

/-- The line around a place holds no line feed. -/
theorem feed_not_mem_line {text : List Char} {place start stop : Nat} (inside : place ≤ text.length)
    (hstart : IsLineStart (text.take place) start) (hstop : IsLineEnd text place stop) :
    '\n' ∉ Text.slice text start stop := by
  have hlength := hstart.1
  rw [List.length_take] at hlength
  have hbefore : start ≤ place := by omega
  rw [← Text.slice_append hbefore hstop.1 inside, List.mem_append, not_or]
  refine ⟨?_, hstop.2.2.1⟩
  rw [Text.slice_ofNat]
  exact hstart.2.1

/-- A piece between two places of another piece is a part of that. -/
theorem slice_part {text : List Char} {start first last stop : Nat} (hfirst : start ≤ first)
    (hle : first ≤ last) (hlast : last ≤ stop) (inside : last ≤ text.length) :
    Text.slice text first last <:+: Text.slice text start stop := by
  refine ⟨Text.slice text start first, Text.slice text last stop, ?_⟩
  rw [Text.slice_append hfirst hle (by omega), Text.slice_append (by omega) hlast inside]

/-- A rejection with a position shows the line in which the position is, or the last line if the position
is behind the text: the part of it that is at most `span` characters away. Below that part, which is a
single line, a caret stands behind as many blanks as there are characters before the place when tabs are
expanded; with these characters the expanded part begins. -/
theorem context_shows {r : Rejection} {position : Nat}
    (positioned : r.offender.position = some (position : Int)) (text : String) (span : Nat) :
    let cs := text.toList
    let place := min position cs.length
    ∃ start stop, IsLineStart (cs.take place) start ∧ IsLineEnd cs place stop ∧
      let before := Text.slice cs (max start (place - span) : Nat) place
      let line := Text.slice cs (max start (place - span) : Nat) (min stop (place + span) : Nat)
      r.context text span = some (String.ofList (line ++ '\n' ::
        List.replicate (Text.expandTabs before 0).length ' ' ++ ['^', '\n'])) ∧
      line <:+: Text.slice cs start stop ∧ '\n' ∉ line ∧ line.length ≤ 2 * span ∧
      Text.expandTabs before 0 <+: Text.expandTabs line 0 := by
  intro cs place
  have inside : place ≤ cs.length := Nat.min_le_right position cs.length
  obtain ⟨stop, hstop⟩ := exists_isLineEnd inside
  have hstart := LineCounter.isLineStart_lastFeed (cs.take place)
  have hlength := hstart.1
  rw [List.length_take] at hlength
  -- only where the line begins matters from here on
  generalize LineCounter.lastFeed (cs.take place) = start at hstart hlength
  have hbefore : max start (place - span) ≤ place := by omega
  have hafter : place ≤ min stop (place + span) := le_min hstop.1 (by omega)
  have hend : min stop (place + span) ≤ cs.length := (Nat.min_le_left _ _).trans hstop.2.1
  refine ⟨start, stop, hstart, hstop, ?_, ?_, ?_, ?_, ?_⟩
  · rw [context, positioned, Option.map_some, contextAt_eq rfl hstart hstop]
  · exact slice_part (Nat.le_max_left _ _) (hbefore.trans hafter) (Nat.min_le_left _ _) hend
  · intro hfeed
    have part := slice_part (Nat.le_max_left start _) (hbefore.trans hafter)
      (Nat.min_le_left stop _) hend
    exact feed_not_mem_line inside hstart hstop (part.subset hfeed)
  · rw [Text.slice_ofNat, List.length_drop, List.length_take]
    omega
  · rw [← Text.slice_append hbefore hafter inside]
    exact Text.expandTabs_append _ _ 0

/-- The rejection of a character at a position. -/
def unexpectedAt (c : Char) (position : Nat) : Rejection :=
  ⟨.unexpectedToken, .token ⟨String.singleton c, String.singleton c, some position, none, none⟩, ∅,
    none⟩

/-- A tab before a place in the second of three lines, of which the first character is too far away to be
shown: the tab goes on to the next stop, so the caret stands in the ninth column. -/
theorem context_shows_tabbed :
    (unexpectedAt '?' 6).offender.position = some 6 ∧
      (unexpectedAt '?' 6).context "ab\ncd\t?ef\ngh" 2 = some "d\t?e\n        ^\n" ∧
      IsLineStart ("ab\ncd\t?ef\ngh".toList.take 6) 3 ∧ IsLineEnd "ab\ncd\t?ef\ngh".toList 6 9 ∧
      "d\t?e".toList <:+: "cd\t?ef".toList ∧
      Text.expandTabs "d\t".toList 0 <+: Text.expandTabs "d\t?e".toList 0 := by
  have atStart : IsLineStart ("ab\ncd\t?ef\ngh".toList.take 6) 3 := by
    unfold IsLineStart
    decide
  have atEnd : IsLineEnd "ab\ncd\t?ef\ngh".toList 6 9 := by
    unfold IsLineEnd
    decide
  have positioned : (unexpectedAt '?' 6).offender.position = some ((6 : Nat) : Int) := rfl
  obtain ⟨start, stop, hstart, hstop, shown, part, -, -, caret⟩ :=
    context_shows positioned "ab\ncd\t?ef\ngh" 2
  obtain rfl := atStart.unique hstart
  obtain rfl := atEnd.unique hstop
  exact ⟨rfl, shown, atStart, atEnd, part, caret⟩

end Rejection

end Predictive
