import Mathlib.Data.List.TakeWhile
import Predictive.Proofs.Scanning

/-!
# How tokens make up their text

A line counter that has been fed all characters of a text from its beginning knows how many they are,
how many lines they make and where the last line begins (`LineCounter.After.feed`). A token that is
asked for after some characters of a text is the end marker, if only blanks are left, or it stands for
the characters that come next behind the blanks (`Lexer.next_lexeme`). A scan asks for tokens until it
is beyond the end marker, and it comes to an end (`Lexer.yields_tokens`). So the tokens of a text fall
into lexemes, which make up the text one behind the other, and the end marker (`Lexer.tokens_tile`). It
holds for all matchers: nothing is asked of where they find a match.
-/

set_option autoImplicit false

namespace Predictive

/-! ## Lines -/

/-- The line that the characters end with begins at `start`: just after the last line feed, or at the
beginning without one. -/
def IsLineStart (before : List Char) (start : Nat) : Prop :=
  start ≤ before.length ∧ '\n' ∉ before.drop start ∧
    (start = 0 ∨ before[start - 1]? = some '\n')

namespace LineCounter

/-- The place right after these characters from the beginning of a text. -/
structure After (place : LineCounter) (before : List Char) : Prop where
  position : place.position = before.length
  line : place.line = 1 + before.count '\n'
  lineStart : place.lineStart = lastFeed before
  column : place.column = before.length - lastFeed before + 1

theorem isLineStart_lastFeed (before : List Char) : IsLineStart before (lastFeed before) := by
  -- the characters fall into those up to the last line feed and those of the last line
  have hcut := congrArg List.reverse
    (List.takeWhile_append_dropWhile (p := fun c => decide (c ≠ '\n')) (l := before.reverse))
  rw [List.reverse_append, List.reverse_reverse] at hcut
  have hline : '\n' ∉ (before.reverse.takeWhile fun c => decide (c ≠ '\n')).reverse := by
    intro h
    have := List.mem_takeWhile_imp (List.mem_reverse.1 h)
    exact absurd this (by simp)
  have hhead := List.head?_dropWhile_not (fun c => decide (c ≠ '\n')) before.reverse
  rw [IsLineStart, lastFeed]
  generalize hfront : before.reverse.dropWhile (fun c => decide (c ≠ '\n')) = front at hcut hhead
  generalize hback : (before.reverse.takeWhile fun c => decide (c ≠ '\n')).reverse = back
    at hcut hline
  subst hcut
  refine ⟨by simp, by simpa using hline, ?_⟩
  cases front with
  | nil => exact .inl rfl
  | cons c front =>
      refine .inr ?_
      simp at hhead
      simp [hhead]

theorem lastFeed_append (before cs : List Char) :
    lastFeed (before ++ cs) =
      if cs.count '\n' = 0 then lastFeed before else before.length + lastFeed cs := by
  have hfront : cs.reverse.dropWhile (fun c => decide (c ≠ '\n')) = [] ↔ cs.count '\n' = 0 := by
    rw [List.dropWhile_eq_nil_iff, List.count_eq_zero]
    constructor
    · intro h hmem
      exact absurd (h '\n' (List.mem_reverse.2 hmem)) (by decide)
    · intro h c hc
      exact decide_eq_true (fun hfeed => h (hfeed ▸ List.mem_reverse.1 hc))
  rw [lastFeed, lastFeed, lastFeed, List.reverse_append, List.dropWhile_append]
  by_cases h : cs.count '\n' = 0
  · -- the last line goes on through all of the new characters
    rw [if_pos h, hfront.2 h, List.isEmpty_nil, if_pos rfl]
  · have hne : cs.reverse.dropWhile (fun c => decide (c ≠ '\n')) ≠ [] := mt hfront.1 h
    rw [if_neg h, if_neg (by simpa using hne), List.length_append, List.length_reverse,
      Nat.add_comm]

theorem after_start : start.After [] := ⟨rfl, rfl, rfl, rfl⟩

/-- Feeding keeps what a line counter knows. -/
theorem After.feed {place : LineCounter} {before : List Char} (h : place.After before)
    (cs : List Char) : (place.feed cs true).After (before ++ cs) := by
  have hposition : (place.feed cs true).position = (before ++ cs).length := by
    simp [LineCounter.feed, h.position]
  have hstart : (place.feed cs true).lineStart = lastFeed (before ++ cs) := by
    rw [lastFeed_append]
    simp [LineCounter.feed, h.position, h.lineStart]
  refine ⟨hposition, ?_, hstart, ?_⟩
  · simp [LineCounter.feed, h.line, Nat.add_assoc]
  · rw [← hposition, ← hstart]
    rfl

end LineCounter

/-- The token stands right after these characters from the beginning of its text. -/
structure Token.StandsAfter (t : Token) (before : List Char) : Prop where
  position : t.position = some (before.length : Int)
  line : t.line = some (1 + before.count '\n' : Int)
  column : ∃ start, IsLineStart before start ∧ t.column = some (before.length - start + 1 : Int)

/-! ## Lexemes -/

/-- A token with the blanks before it and the characters that it stands for. -/
structure Lexeme where
  gap : List Char
  span : List Char
  token : Token

namespace Lexeme

/-- All characters of a lexeme. -/
def chars (x : Lexeme) : List Char := x.gap ++ x.span

/-- The characters of the one lexeme end before those of the other one begin, by the positions of
their tokens. -/
def Precedes (x y : Lexeme) : Prop :=
  ∃ first second : Nat, x.token.position = some (first : Int) ∧
    y.token.position = some (second : Int) ∧ first + x.span.length ≤ second

end Lexeme

namespace Lexer

variable {lexer : Lexer}

/-- What a token stands for: the match of a rule that is not empty, which the value holds, in quotes
under a terminal; or a character at which no rule matches anything. -/
inductive Reads (lexer : Lexer) (text : Array Char) (place : Nat) (span : List Char) (t : Token) :
    Prop
  | rule {m : Matcher} (member : m ∈ lexer) (hits : Hits m text place (place + span.length))
      (kind : t.kind = m.name)
      (value : t.value =
        if Symbol.isTerminal m.name then String.ofList ('"' :: span ++ ['"'])
        else String.ofList span) : Reads lexer text place span t
  | character {c : Char} (alone : span = [c])
      (unmatched : ∀ m ∈ lexer, ∀ stop, ¬ Hits m text place stop)
      (kind : t.kind = String.singleton c) (value : t.value = String.singleton c) :
      Reads lexer text place span t

/-- The lexeme stands in a text right after these characters: blanks, and then what its token stands
for, which begins with no blank. -/
structure Places (lexer : Lexer) (text before : List Char) (x : Lexeme) : Prop where
  within : before ++ x.chars <+: text
  blank : ∀ c ∈ x.gap, Text.isBlank c = true
  visible : ∃ c rest, x.span = c :: rest ∧ Text.isBlank c = false
  reads : lexer.Reads text.toArray (before ++ x.gap).length x.span x.token
  stands : x.token.StandsAfter (before ++ x.gap)

/-- A lexeme precedes all that stand further on in the text. -/
theorem Places.precedes {text before between : List Char} {x y : Lexeme}
    (hx : lexer.Places text before x) (hy : lexer.Places text (before ++ x.chars ++ between) y) :
    x.Precedes y := by
  refine ⟨_, _, hx.stands.position, hy.stands.position, ?_⟩
  simp only [Lexeme.chars, List.length_append]
  omega

/-! ## The next token -/

theorem piece_append (before after : List Char) (stop : Nat) :
    piece (before ++ after).toArray before.length stop = after.take (stop - before.length) := by
  simp [piece]

theorem blankEnd_append {fuel : Nat} (before after : List Char) (h : after.length ≤ fuel) :
    blankEnd (before ++ after).toArray fuel before.length =
      before.length + (after.takeWhile Text.isBlank).length := by
  induction fuel generalizing before after with
  | zero =>
      rw [List.eq_nil_of_length_eq_zero (Nat.le_zero.1 h)]
      rfl
  | succ fuel ih =>
      cases after with
      | nil => simp [blankEnd]
      | cons c after =>
          have hget : (before ++ c :: after).toArray[before.length]? = some c := by simp
          rw [blankEnd, hget, List.takeWhile_cons]
          by_cases hc : Text.isBlank c = true
          · have hmove : before ++ c :: after = (before ++ [c]) ++ after := by simp
            have hlength : before.length + 1 = (before ++ [c]).length := by simp
            simp only [hc, if_true]
            rw [hmove, hlength, ih (before ++ [c]) after (Nat.le_of_succ_le_succ h)]
            simp [Nat.add_assoc, Nat.add_comm 1]
          · simp [hc]

/-- Skipping goes to the end of the blanks that come next. -/
theorem skipBlanks_after {place : LineCounter} {before : List Char} (h : place.After before)
    (after : List Char) :
    (skipBlanks (before ++ after).toArray place).After
      (before ++ after.takeWhile Text.isBlank) := by
  have hpiece : piece (before ++ after).toArray place.position
      (blankEnd (before ++ after).toArray (before ++ after).toArray.size place.position) =
        after.takeWhile Text.isBlank := by
    rw [h.position, blankEnd_append before after (by simp), piece_append]
    rw [Nat.add_sub_cancel_left]
    exact (List.prefix_iff_eq_take.1 (List.takeWhile_prefix _)).symm
  rw [skipBlanks, hpiece]
  exact h.feed _

theorem standsAfter_tokenAt {place : LineCounter} {before : List Char} (h : place.After before)
    (kind : Symbol) (value : String) : (tokenAt kind value place).StandsAfter before where
  position := by simp [tokenAt, h.position]
  line := by simp [tokenAt, h.line]
  column := by
    refine ⟨LineCounter.lastFeed before, LineCounter.isLineStart_lastFeed before, ?_⟩
    have hle := (LineCounter.isLineStart_lastFeed before).1
    rw [tokenAt, h.column]
    push_cast [hle]
    rfl

/-- The value of a token of a rule is what the rule matched, in quotes under a terminal. -/
theorem valueOf_eq (name : Symbol) (cs : List Char) :
    valueOf name cs = if Symbol.isTerminal name then String.ofList ('"' :: cs ++ ['"'])
      else String.ofList cs := by
  simp [valueOf, Symbol.terminal]

/-- Where a character that is no blank comes next, the token stands for it and perhaps for more
characters, and the place after the token is the one after those. -/
theorem tokenFrom_lexeme (lexer : Lexer) {place : LineCounter} {before : List Char}
    (h : place.After before) (c : Char) (after : List Char) :
    ∃ span rest, c :: after = span ++ rest ∧ span ≠ [] ∧
      lexer.Reads (before ++ c :: after).toArray before.length span
        (tokenFrom lexer (before ++ c :: after).toArray place).1 ∧
      (tokenFrom lexer (before ++ c :: after).toArray place).1.StandsAfter before ∧
      (tokenFrom lexer (before ++ c :: after).toArray place).2.After (before ++ span) := by
  have hget : (before ++ c :: after).toArray[place.position]? = some c := by simp [h.position]
  rw [tokenFrom, hget]
  cases hmatch : firstMatch (before ++ c :: after).toArray place.position lexer with
  | none =>
      -- no rule matches: the character alone
      refine ⟨[c], after, rfl, by simp, ?_, standsAfter_tokenAt h _ _, h.feed [c]⟩
      refine .character rfl ?_ rfl rfl
      rw [← h.position]
      exact firstMatch_eq_none hmatch
  | some found =>
      -- a rule matches up to `stop`, which lies within the text
      obtain ⟨name, stop⟩ := found
      obtain ⟨m, rfl, leads⟩ := firstMatch_eq_some hmatch
      have hits := leads.hits
      have hbounds : before.length < stop ∧ stop - before.length ≤ (c :: after).length := by
        obtain ⟨-, hlt, hend⟩ := hits
        rw [h.position] at hlt
        rw [List.size_toArray, List.length_append] at hend
        omega
      have hpiece : piece (before ++ c :: after).toArray place.position stop =
          (c :: after).take (stop - before.length) := by
        rw [h.position, piece_append]
      have hlength : ((c :: after).take (stop - before.length)).length = stop - before.length :=
        List.length_take_of_le hbounds.2
      simp only [hpiece]
      refine ⟨_, (c :: after).drop (stop - before.length), (List.take_append_drop _ _).symm, ?_, ?_,
        standsAfter_tokenAt h _ _, h.feed _⟩
      · intro hnil
        rw [hnil, List.length_nil] at hlength
        omega
      · refine .rule leads.mem ?_ rfl (valueOf_eq _ _)
        rw [hlength, Nat.add_sub_cancel' hbounds.1.le, ← h.position]
        exact hits

/-- The token after some characters of a text: the end marker, where only blanks are left, or else a
lexeme that stands there. -/
theorem next_lexeme (lexer : Lexer) {place : LineCounter} {before : List Char}
    (h : place.After before) (after : List Char) :
    ((∀ c ∈ after, Text.isBlank c = true) ∧
      (lexer.next (before ++ after).toArray place).1.kind = Symbol.endMarker ∧
      (lexer.next (before ++ after).toArray place).1.value = Symbol.endMarker ∧
      (lexer.next (before ++ after).toArray place).1.StandsAfter (before ++ after) ∧
      isDone (before ++ after).toArray (lexer.next (before ++ after).toArray place).2 = true) ∨
    ∃ x rest, after = Lexeme.chars x ++ rest ∧
      (lexer.next (before ++ after).toArray place).1 = x.token ∧
      lexer.Places (before ++ after) before x ∧
      (lexer.next (before ++ after).toArray place).2.After (before ++ x.chars) := by
  have hplace := skipBlanks_after h after
  have hblank : ∀ c ∈ after.takeWhile Text.isBlank, Text.isBlank c = true :=
    fun c hc => List.mem_takeWhile_imp hc
  have hcut : after.takeWhile Text.isBlank ++ after.dropWhile Text.isBlank = after :=
    List.takeWhile_append_dropWhile
  have hhead := List.head?_dropWhile_not Text.isBlank after
  rw [next]
  cases hvisible : after.dropWhile Text.isBlank with
  | nil =>
      -- nothing but blanks is left
      have hall : after.takeWhile Text.isBlank = after := by simpa [hvisible] using hcut
      rw [hall] at hplace hblank
      have hget : (before ++ after).toArray[(skipBlanks (before ++ after).toArray place).position]? =
          none := by simp [hplace.position]
      rw [tokenFrom, hget]
      refine .inl ⟨hblank, rfl, rfl, standsAfter_tokenAt hplace _ _, ?_⟩
      simp [isDone_iff, position_feed, hplace.position]
  | cons c visible =>
      -- the token begins at `c`, behind the blanks
      rw [hvisible] at hcut hhead
      have htext : before ++ after = (before ++ after.takeWhile Text.isBlank) ++ c :: visible := by
        rw [List.append_assoc, hcut]
      obtain ⟨span, rest, hspan, hne, hreads, hstands, hafter⟩ :=
        tokenFrom_lexeme lexer hplace c visible
      rw [← htext] at hreads hstands hafter
      refine .inr ⟨⟨after.takeWhile Text.isBlank, span, _⟩, rest, ?_, rfl, ?_, ?_⟩
      · rw [Lexeme.chars, List.append_assoc, ← hspan, hcut]
      · refine ⟨⟨rest, ?_⟩, hblank, ?_, hreads, hstands⟩
        · rw [Lexeme.chars, List.append_assoc, List.append_assoc, ← hspan, hcut]
        · cases span with
          | nil => exact absurd rfl hne
          | cons d span =>
              obtain ⟨rfl, -⟩ := List.cons.inj hspan
              exact ⟨c, span, rfl, by simpa using hhead⟩
      · rwa [Lexeme.chars, ← List.append_assoc]

/-! ## Scans to the end -/

/-- Asking for one token after the other from a place on, until the scan is beyond the end marker,
comes to an end and gives these tokens. -/
inductive Yields (lexer : Lexer) (text : Array Char) : LineCounter → List Token → Prop
  | done {place : LineCounter} (h : isDone text place = true) : Yields lexer text place []
  | more {place : LineCounter} {ts : List Token} (h : isDone text place = false)
      (rest : Yields lexer text (next lexer text place).2 ts) :
      Yields lexer text place ((next lexer text place).1 :: ts)

theorem yields_scanFrom (lexer : Lexer) {text : Array Char} {fuel : Nat} {place : LineCounter}
    (h : text.size + 1 - place.position ≤ fuel) :
    lexer.Yields text place ((scanFrom lexer text fuel place).map (·.1)) := by
  induction fuel generalizing place with
  | zero => exact .done (isDone_iff.2 (by omega))
  | succ fuel ih =>
      by_cases hplace : place.position ≤ text.size
      · have hlt := position_lt_next lexer hplace
        rw [scanFrom_succ lexer hplace]
        refine .more ?_ (ih (by omega))
        rw [Bool.eq_false_iff, Ne, isDone_iff]
        omega
      · have hdone : isDone text place = true := isDone_iff.2 (by omega)
        rw [scanFrom_of_isDone lexer hdone]
        exact .done hdone

/-- A scan of a whole text comes to an end. -/
theorem yields_tokens (lexer : Lexer) (text : String) :
    lexer.Yields text.toList.toArray .start (lexer.tokens text) :=
  yields_scanFrom lexer (Nat.sub_le _ _)

/-- The lexemes make up the characters that come after others in a text, up to the blanks at its
end, and each of them stands in the text where the ones before it end. -/
structure Tiles (lexer : Lexer) (text before after : List Char) (xs : List Lexeme)
    (tail : List Char) : Prop where
  whole : after = xs.flatMap Lexeme.chars ++ tail
  placed : ∀ front x back, xs = front ++ x :: back →
    lexer.Places text (before ++ front.flatMap Lexeme.chars) x
  blank : ∀ c ∈ tail, Text.isBlank c = true

/-- One more lexeme in front. -/
theorem Tiles.cons {text before rest tail : List Char} {x : Lexeme} {xs : List Lexeme}
    (hx : lexer.Places text before x) (h : lexer.Tiles text (before ++ x.chars) rest xs tail) :
    lexer.Tiles text before (x.chars ++ rest) (x :: xs) tail where
  whole := by rw [h.whole, List.flatMap_cons, List.append_assoc]
  placed := by
    intro front y back hcut
    rcases List.cons_eq_append_iff.1 hcut with ⟨rfl, hback⟩ | ⟨front, rfl, hback⟩
    · obtain ⟨rfl, -⟩ := List.cons.inj hback
      simpa using hx
    · simpa using h.placed front y back hback
  blank := h.blank

/-- Lexemes that make up a text stand in it in their order, and none of them overlaps another. -/
theorem Tiles.pairwise {text before after tail : List Char} {xs : List Lexeme}
    (h : lexer.Tiles text before after xs tail) : xs.Pairwise Lexeme.Precedes := by
  obtain ⟨-, placed, -⟩ := h
  induction xs generalizing before with
  | nil => exact .nil
  | cons x xs ih =>
      have hx : lexer.Places text before x := by simpa using placed [] x xs rfl
      have later : ∀ front y back, xs = front ++ y :: back →
          lexer.Places text (before ++ x.chars ++ front.flatMap Lexeme.chars) y := by
        intro front y back hcut
        have hy := placed (x :: front) y back (congrArg (x :: ·) hcut)
        rwa [List.flatMap_cons, ← List.append_assoc] at hy
      refine .cons ?_ (ih later)
      intro y hy
      obtain ⟨front, back, hcut⟩ := List.append_of_mem hy
      exact hx.precedes (later front y back hcut)

/-- The tokens of a scan from a place within the text fall into lexemes and the end marker. -/
theorem Yields.tiles {text : Array Char} {place : LineCounter} {ts : List Token}
    (h : lexer.Yields text place ts) {before after : List Char} (hplace : place.After before)
    (htext : text = (before ++ after).toArray) :
    ∃ xs tail marker, ts = xs.map Lexeme.token ++ [marker] ∧
      lexer.Tiles (before ++ after) before after xs tail ∧
      marker.kind = Symbol.endMarker ∧ marker.value = Symbol.endMarker ∧
      marker.StandsAfter (before ++ after) := by
  induction h generalizing before after with
  | done hdone =>
      -- the place lies within the text, so the scan is not done
      have hlength : before.length ≤ text.size := by
        rw [htext, List.size_toArray, List.length_append]
        exact Nat.le_add_right _ _
      rw [isDone_iff, hplace.position] at hdone
      exact absurd hdone (Nat.not_lt.2 hlength)
  | @more place ts hdone rest ih =>
      subst htext
      rcases next_lexeme lexer hplace after with ⟨hblank, hkind, hvalue, hstands, hend⟩ |
        ⟨x, visible, rfl, htoken, hx, hafter⟩
      · -- the end marker: the scan is done after it
        cases rest with
        | done => exact ⟨[], after, _, rfl, ⟨rfl, by simp, hblank⟩, hkind, hvalue, hstands⟩
        | more hmore => exact absurd hend (by simp [hmore])
      · have hmove : before ++ (x.chars ++ visible) = before ++ x.chars ++ visible :=
          (List.append_assoc _ _ _).symm
        obtain ⟨xs, tail, marker, rfl, htiles, hmarker⟩ := ih hafter (congrArg List.toArray hmove)
        rw [← hmove] at htiles hmarker
        exact ⟨x :: xs, tail, marker, by rw [htoken]; rfl, htiles.cons hx, hmarker⟩

/-- The scan of a text comes to an end. Its last token is the end marker, which stands behind the
whole text. The other tokens stand for pieces of the text that are not empty, begin with no blank, are
the matches of rules or characters that no rule matches, and follow one another; between them and at
the end there are blanks only, and together they are the text. Each token knows its position, its line
and its column. -/
theorem tokens_tile (lexer : Lexer) (text : String) :
    lexer.Yields text.toList.toArray .start (lexer.tokens text) ∧
    ∃ xs tail marker, lexer.tokens text = xs.map Lexeme.token ++ [marker] ∧
      text.toList = xs.flatMap Lexeme.chars ++ tail ∧
      (∀ front x back, xs = front ++ x :: back →
        lexer.Places text.toList (front.flatMap Lexeme.chars) x) ∧
      xs.Pairwise Lexeme.Precedes ∧
      (∀ c ∈ tail, Text.isBlank c = true) ∧
      marker.kind = Symbol.endMarker ∧ marker.value = Symbol.endMarker ∧
      marker.StandsAfter text.toList := by
  have hyields := yields_tokens lexer text
  obtain ⟨xs, tail, marker, htokens, htiles, hkind, hvalue, hstands⟩ :=
    hyields.tiles LineCounter.after_start (congrArg List.toArray (List.nil_append text.toList).symm)
  exact ⟨hyields, xs, tail, marker, htokens, htiles.whole, htiles.placed, htiles.pairwise,
    htiles.blank, hkind, hvalue, hstands⟩

/-- The character of the end marker inside a text does not end it. -/
example : (Lexer.tokens [] "a $").map (fun t => (t.kind, t.position)) =
    [("a", some 0), ("$", some 2), ("$", some 3)] := by decide

end Lexer

end Predictive
