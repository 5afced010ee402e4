import Predictive.Proofs.FirstRule
import Predictive.Proofs.LiteralPatterns
import Predictive.Proofs.Texts
import Predictive.Proofs.Tokenization

/-!
# Lexers of literal texts

In a literal lexer every matcher finds one text, which holds something and no blanks. What such a lexer
makes of a text depends on the characters to come alone, and `Lexer.Spelled` tells it without places.
A text without blanks stands at the front of some characters just when it stands in front of their first
blank, so no token depends on what stands behind a blank (`Lexer.Spelled.append`). Since the characters
determine what they are spelled as (`Lexer.Spelled.unique`), the tokens of a text are those of its words,
one after the other (`Lexer.IsLiteral.spelling_tokens`).
-/

set_option autoImplicit false

namespace Predictive

open Text (Visible isBlank words)

/-- The kind and the value of a token, without its place. -/
def Token.spelling (t : Token) : Symbol × String := (t.kind, t.value)

/-! ## Literal lexers -/

/-- The matcher finds one text, which holds something and no blanks. -/
def Matcher.IsLiteral (m : Matcher) : Prop := ∃ w, m.Spells w ∧ w ≠ [] ∧ Visible w

theorem Matcher.IsLiteral.visible {m : Matcher} {w : List Char} (literal : m.IsLiteral)
    (h : m.Spells w) : w ≠ [] ∧ Visible w := by
  obtain ⟨v, spells, hne, visible⟩ := literal
  rw [h.unique spells]
  exact ⟨hne, visible⟩

/-- The pattern of the rule is a text in double quotes, which holds something, but neither double quotes
nor blanks. -/
def LexicalRule.IsLiteral (r : LexicalRule) : Prop :=
  ∃ w : String, r.pattern = Symbol.terminal w ∧ w ≠ "" ∧
    ∀ c ∈ w.toList, c ≠ '"' ∧ isBlank c = false

theorem LexicalRule.IsLiteral.compile {r : LexicalRule} (h : r.IsLiteral) {c : PatternCompiler}
    (takes : c.TakesLiterals) {flags : Datum} (zero : flags.int? = some 0) :
    ∃ m : Matcher, r.compile c flags = .ok m ∧ m.IsLiteral := by
  obtain ⟨pattern, name⟩ := r
  obtain ⟨w, rfl, hne, chars⟩ := h
  have visible : w.toList ≠ [] := fun h => hne (String.toList_eq_nil_iff.1 h)
  have quotes : Pattern.QuotesAtEnds w.toList :=
    Pattern.quotesAtEnds_of_not_mem visible fun hmem => (chars _ hmem).1 rfl
  obtain ⟨m, compiled, -, spells⟩ := LexicalRule.compile_terminal takes zero name quotes
  refine ⟨m, compiled, w.toList, spells, visible, ?_⟩
  intro c hc
  exact (chars c hc).2

namespace Lexer

/-- Every matcher finds one text, which holds something and no blanks. -/
def IsLiteral (lexer : Lexer) : Prop := ∀ m ∈ lexer, m.IsLiteral

/-- Rules with literal patterns make a literal lexer. -/
theorem exists_literal {c : PatternCompiler} (takes : c.TakesLiterals) {flags : Datum}
    (zero : flags.int? = some 0) {rules : List LexicalRule} (h : ∀ r ∈ rules, r.IsLiteral) :
    ∃ lexer, ofRules c flags rules = .ok lexer ∧ lexer.IsLiteral := by
  have compiled : ∀ r ∈ rules, ∃ m, r.compile c flags = .ok m := by
    intro r hr
    obtain ⟨m, hm, -⟩ := (h r hr).compile takes zero
    exact ⟨m, hm⟩
  obtain ⟨lexer, built⟩ := exists_ofRules compiled
  refine ⟨lexer, built, ?_⟩
  intro m hm
  obtain ⟨front, back, rfl⟩ := List.append_of_mem hm
  obtain ⟨before, r, after, rfl, hr, -⟩ := exists_rule_of_append built
  obtain ⟨m', hm', literal⟩ := (h r (by simp)).compile takes zero
  rw [Except.ok.inj (hr.symm.trans hm')]
  exact literal

/-! ## Spelling -/

/-- The text of the matcher comes next, and the text of no matcher before it does. -/
def Begins (lexer : Lexer) (cs w : List Char) (m : Matcher) : Prop :=
  ∃ front back, lexer = front ++ m :: back ∧ m.Spells w ∧ w <+: cs ∧
    ∀ m' ∈ front, ∀ w', m'.Spells w' → ¬ w' <+: cs

/-- The text of no matcher comes next. -/
def BeginsNowhere (lexer : Lexer) (cs : List Char) : Prop :=
  ∀ m ∈ lexer, ∀ w, m.Spells w → ¬ w <+: cs

/-- The kinds and values of the tokens of some characters, wherever they stand. -/
inductive Spelled (lexer : Lexer) : List Char → List (Symbol × String) → Prop
  | nil : Spelled lexer [] []
  | blank {b : Char} {cs : List Char} {ts : List (Symbol × String)} (blank : isBlank b = true)
      (tail : Spelled lexer cs ts) : Spelled lexer (b :: cs) ts
  | literal {w cs rest : List Char} {ts : List (Symbol × String)} {m : Matcher}
      (first : lexer.Begins cs w m) (cut : cs = w ++ rest) (tail : Spelled lexer rest ts) :
      Spelled lexer cs ((m.name, valueOf m.name w) :: ts)
  | character {c : Char} {cs : List Char} {ts : List (Symbol × String)}
      (visible : isBlank c = false) (missed : lexer.BeginsNowhere (c :: cs))
      (tail : Spelled lexer cs ts) :
      Spelled lexer (c :: cs) ((String.singleton c, String.singleton c) :: ts)

variable {lexer : Lexer} {cs ds w : List Char} {ts us : List (Symbol × String)} {m : Matcher}

theorem Begins.spells (h : lexer.Begins cs w m) : m ∈ lexer ∧ m.Spells w ∧ w <+: cs := by
  obtain ⟨front, back, rfl, spells, hbegins, -⟩ := h
  exact ⟨by simp, spells, hbegins⟩

/-- The text of a matcher begins with a character that is no blank. -/
theorem Begins.head (literal : lexer.IsLiteral) (h : lexer.Begins cs w m) :
    ∃ c v, w = c :: v ∧ isBlank c = false := by
  obtain ⟨member, spells, -⟩ := h.spells
  obtain ⟨hne, visible⟩ := (literal m member).visible spells
  obtain ⟨c, v, rfl⟩ := List.exists_cons_of_ne_nil hne
  exact ⟨c, v, rfl, visible c List.mem_cons_self⟩

theorem Begins.not_nowhere (h : lexer.Begins cs w m) : ¬ lexer.BeginsNowhere cs := by
  obtain ⟨member, spells, hbegins⟩ := h.spells
  intro nowhere
  exact nowhere m member w spells hbegins

/-- What comes next decides which matcher is the first one. -/
theorem Begins.unique {w' : List Char} {m' : Matcher} (h : lexer.Begins cs w m)
    (h' : lexer.Begins cs w' m') : m = m' ∧ w = w' := by
  obtain ⟨front, back, hlexer, spells, hbegins, earlier⟩ := h
  obtain ⟨front', back', hlexer', spells', hbegins', earlier'⟩ := h'
  rcases cut_of_append_cons_eq (hlexer.symm.trans hlexer') with
    ⟨between, hfront, -⟩ | ⟨between, hfront, hback⟩
  · -- the one stands before the other
    exact absurd hbegins (earlier' m (by rw [hfront]; simp) w spells)
  · cases between with
    | nil =>
        obtain ⟨rfl, -⟩ := List.cons.inj hback
        exact ⟨rfl, spells.unique spells'⟩
    | cons m'' between =>
        obtain ⟨rfl, -⟩ := List.cons.inj hback
        exact absurd hbegins' (earlier m' (by rw [hfront]; simp) w' spells')

/-- Characters are spelled in one way. -/
theorem Spelled.unique (literal : lexer.IsLiteral) (h : lexer.Spelled cs ts)
    (h' : lexer.Spelled cs us) : ts = us := by
  -- a blank begins no text of a matcher, so at most one of the rules can be the last one
  induction h generalizing us with
  | nil =>
      cases h' with
      | nil => rfl
      | literal first cut tail =>
          obtain ⟨c, v, rfl, -⟩ := first.head literal
          exact absurd cut (by simp)
  | blank blank tail ih =>
      cases h' with
      | blank blank' tail' => exact ih tail'
      | literal first cut tail' =>
          obtain ⟨c, v, rfl, visible⟩ := first.head literal
          obtain ⟨rfl, -⟩ := List.cons.inj cut
          exact absurd blank (by simp [visible])
      | character visible missed tail' => exact absurd blank (by simp [visible])
  | literal first cut tail ih =>
      cases h' with
      | nil =>
          obtain ⟨c, v, rfl, -⟩ := first.head literal
          exact absurd cut (by simp)
      | blank blank tail' =>
          obtain ⟨c, v, rfl, visible⟩ := first.head literal
          obtain ⟨rfl, -⟩ := List.cons.inj cut
          exact absurd blank (by simp [visible])
      | literal first' cut' tail' =>
          obtain ⟨rfl, rfl⟩ := first.unique first'
          obtain rfl := List.append_cancel_left (cut.symm.trans cut')
          rw [ih tail']
      | character visible missed tail' => exact absurd missed first.not_nowhere
  | character visible missed tail ih =>
      cases h' with
      | blank blank tail' => exact absurd blank (by simp [visible])
      | literal first cut tail' => exact absurd missed first.not_nowhere
      | character visible' missed' tail' => rw [ih tail']

/-! ## Blanks between texts -/

/-- A text without blanks that comes next ends before the first blank. -/
theorem prefix_append_blank_iff {b : Char} (visible : Visible w) (hb : isBlank b = true)
    (ds : List Char) : w <+: cs ++ b :: ds ↔ w <+: cs := by
  constructor
  · intro h
    rcases List.prefix_or_prefix_of_prefix h (List.prefix_append cs (b :: ds)) with h' | ⟨v, rfl⟩
    · exact h'
    · -- if there is more to the text, the blank comes next in it
      rw [List.prefix_append_right_inj] at h
      cases v with
      | nil => simp
      | cons c v =>
          obtain ⟨rfl, -⟩ := List.cons_prefix_cons.1 h
          exact absurd hb (by simp [visible c (by simp)])
  · intro h
    exact h.trans (List.prefix_append cs (b :: ds))

theorem BeginsNowhere.append {b : Char} (literal : lexer.IsLiteral) (hb : isBlank b = true)
    (ds : List Char) (h : lexer.BeginsNowhere cs) : lexer.BeginsNowhere (cs ++ b :: ds) := by
  intro m hm w spells
  rw [prefix_append_blank_iff ((literal m hm).visible spells).2 hb]
  exact h m hm w spells

theorem Begins.append {b : Char} (literal : lexer.IsLiteral) (hb : isBlank b = true)
    (ds : List Char) (h : lexer.Begins cs w m) : lexer.Begins (cs ++ b :: ds) w m := by
  obtain ⟨front, back, rfl, spells, hbegins, earlier⟩ := h
  refine ⟨front, back, rfl, spells, hbegins.trans (List.prefix_append cs (b :: ds)), ?_⟩
  intro m' hm' w' spells'
  have visible := ((literal m' (List.mem_append_left _ hm')).visible spells').2
  rw [prefix_append_blank_iff visible hb]
  exact earlier m' hm' w' spells'

/-- Two texts with a blank between them are spelled one after the other. -/
theorem Spelled.append {b : Char} (literal : lexer.IsLiteral) (h : lexer.Spelled cs ts)
    (hb : isBlank b = true) (h' : lexer.Spelled ds us) :
    lexer.Spelled (cs ++ b :: ds) (ts ++ us) := by
  induction h with
  | nil => exact .blank hb h'
  | blank blank tail ih => exact .blank blank ih
  | literal first cut tail ih =>
      refine .literal (first.append literal hb ds) ?_ ih
      rw [cut, List.append_assoc]
  | character visible missed tail ih => exact .character visible (missed.append literal hb ds) ih

/-- A text is spelled as its words are. -/
theorem Spelled.words (literal : lexer.IsLiteral) {spell : List Char → List (Symbol × String)}
    (h : ∀ w, lexer.Spelled w (spell w)) (cs : List Char) :
    lexer.Spelled cs ((words cs).flatMap spell) := by
  induction cs using Text.words_induction with
  | nil => exact .nil
  | blank b cs hb ih =>
      rw [Text.words_cons_blank hb]
      exact .blank hb ih
  | last w hne visible =>
      rw [Text.words_of_visible hne visible, List.flatMap_singleton]
      exact h w
  | word w b cs hne visible hb ih =>
      rw [Text.words_append_blank hb, Text.words_of_visible hne visible, List.flatMap_append,
        List.flatMap_singleton]
      exact (h w).append literal hb ih

theorem Spelled.blanks {gap : List Char} (h : ∀ b ∈ gap, isBlank b = true)
    (tail : lexer.Spelled cs ts) : lexer.Spelled (gap ++ cs) ts := by
  induction gap with
  | nil => exact tail
  | cons b gap ih =>
      have hgap : ∀ b' ∈ gap, isBlank b' = true := fun b' hb' => h b' (List.mem_cons_of_mem b hb')
      exact .blank (h b List.mem_cons_self) (ih hgap)

/-! ## Tokens -/

section Tokens

variable {text : Array Char}

/-- Where its text comes next, a matcher has a match. -/
theorem hits_of_begins {place : Nat} (spells : m.Spells w) (hne : w ≠ [])
    (h : w <+: text.toList.drop place) : Hits m text place (place + w.length) := by
  have hlength : w.length ≤ text.size - place := by
    simpa using h.length_le
  have hpositive : 0 < w.length := List.length_pos_iff.2 hne
  refine ⟨(spells text place _).2 ⟨h, rfl⟩, ?_⟩
  omega

theorem beginsNowhere_of_missed (literal : lexer.IsLiteral) {place : Nat}
    (missed : ∀ m ∈ lexer, ∀ stop, ¬ Hits m text place stop) :
    lexer.BeginsNowhere (text.toList.drop place) := by
  intro m hm w spells hbegins
  exact missed m hm _ (hits_of_begins spells ((literal m hm).visible spells).1 hbegins)

/-- The first matcher with a match is the first one whose text comes next. -/
theorem Leads.begins (literal : lexer.IsLiteral) {place stop : Nat}
    (h : lexer.Leads text place stop m) :
    ∃ w, lexer.Begins (text.toList.drop place) w m ∧ piece text place stop = w := by
  obtain ⟨w, spells, -, -⟩ := literal m h.mem
  refine ⟨w, ?_, spells.piece_eq h.hits⟩
  obtain ⟨front, back, rfl, hits, missed⟩ := h
  refine ⟨front, back, rfl, spells, ((spells text place stop).1 hits.1).1, ?_⟩
  intro m' hm' w' spells' hbegins
  have visible := (literal m' (List.mem_append_left _ hm')).visible spells'
  exact missed m' hm' _ (hits_of_begins spells' visible.1 hbegins)

/-- The token at a character spells what it stands for, and the rest comes next. -/
theorem spelled_tokenFrom (literal : lexer.IsLiteral) {place : LineCounter} {before : List Char}
    (h : place.After before) {c : Char} (visible : isBlank c = false) (after : List Char) :
    ∃ span rest, c :: after = span ++ rest ∧ span ≠ [] ∧
      (tokenFrom lexer (before ++ c :: after).toArray place).2.After (before ++ span) ∧
      ∀ ts, lexer.Spelled rest ts → lexer.Spelled (c :: after)
        ((tokenFrom lexer (before ++ c :: after).toArray place).1.spelling :: ts) := by
  have hget : (before ++ c :: after).toArray[place.position]? = some c := by simp [h.position]
  have hahead : (before ++ c :: after).toArray.toList.drop place.position = c :: after := by
    simp [h.position]
  -- a literal leads here, or no rule matches and the character is a token of its own
  rcases tokenFrom_cases lexer hget with ⟨m, stop, leads, htoken⟩ | ⟨missed, htoken⟩
  · obtain ⟨w, begins, hpiece⟩ := leads.begins literal
    rw [hahead] at begins
    rw [htoken, hpiece]
    obtain ⟨member, spells, rest, hrest⟩ := begins.spells
    refine ⟨w, rest, hrest.symm, ((literal m member).visible spells).1, h.feed w, ?_⟩
    intro ts tail
    exact .literal begins hrest.symm tail
  · have nowhere := beginsNowhere_of_missed literal missed
    rw [hahead] at nowhere
    rw [htoken]
    refine ⟨[c], after, rfl, by simp, h.feed [c], ?_⟩
    intro ts tail
    exact .character visible nowhere tail

/-- Where nothing but blanks is left, the end marker comes, and the scan is over. -/
theorem next_of_blanks (lexer : Lexer) {place : LineCounter} {before gap : List Char}
    (h : place.After before) (blank : ∀ b ∈ gap, isBlank b = true) :
    (next lexer (before ++ gap).toArray place).1.spelling =
        (Symbol.endMarker, Symbol.endMarker) ∧
      isDone (before ++ gap).toArray (next lexer (before ++ gap).toArray place).2 = true := by
  rcases next_lexeme lexer h gap with ⟨-, kind, value, -, done⟩ | ⟨x, rest, hgap, -, placed, -⟩
  · exact ⟨Prod.ext kind value, done⟩
  · -- a lexeme holds a character that is no blank
    obtain ⟨c, span, hspan, visible⟩ := placed.visible
    have hc : c ∈ gap := by
      rw [hgap, Lexeme.chars, hspan]
      simp
    exact absurd (blank c hc) (by simp [visible])

/-- The tokens that a scan yields spell what is left of the text. -/
theorem spelled_scanFrom (literal : lexer.IsLiteral) {fuel : Nat} {place : LineCounter}
    {before after : List Char} (h : place.After before) (hfuel : after.length < fuel) :
    ∃ front last, (scanFrom lexer (before ++ after).toArray fuel place).map (·.1) =
        front ++ [last] ∧ last.spelling = (Symbol.endMarker, Symbol.endMarker) ∧
      lexer.Spelled after (front.map Token.spelling) := by
  induction fuel generalizing place before after with
  | zero => exact absurd hfuel (Nat.not_lt_zero _)
  | succ fuel ih =>
      have hplace : place.position ≤ (before ++ after).toArray.size := by
        rw [h.position, List.size_toArray, List.length_append]
        omega
      rw [scanFrom_succ lexer hplace, List.map_cons]
      have hgap : ∀ b ∈ after.takeWhile isBlank, isBlank b = true :=
        fun b hb => List.mem_takeWhile_imp hb
      have hcut : after.takeWhile isBlank ++ after.dropWhile isBlank = after :=
        List.takeWhile_append_dropWhile
      cases hvisible : after.dropWhile isBlank with
      | nil =>
          -- nothing but blanks is left: the end marker
          rw [hvisible, List.append_nil] at hcut
          rw [hcut] at hgap
          obtain ⟨marker, done⟩ := next_of_blanks lexer h hgap
          refine ⟨[], _, by rw [scanFrom_of_isDone lexer done]; rfl, marker, ?_⟩
          rw [← List.append_nil after]
          exact Spelled.blanks hgap .nil
      | cons c visible =>
          -- the token begins at `c`, behind the blanks
          have hc : isBlank c = false := by
            have hhead := List.head?_dropWhile_not isBlank after
            rw [hvisible] at hhead
            simpa using hhead
          rw [hvisible] at hcut
          have htext : before ++ after = (before ++ after.takeWhile isBlank) ++ c :: visible := by
            rw [List.append_assoc, hcut]
          obtain ⟨span, rest, hspan, hne, hafter, spells⟩ :=
            spelled_tokenFrom literal (skipBlanks_after h after) hc visible
          rw [← htext] at hafter spells
          have hrest : rest.length < fuel := by
            have hlengths := congrArg List.length hspan
            have hall := congrArg List.length hcut
            have hpositive : 0 < span.length := List.length_pos_iff.2 hne
            simp only [List.length_append, List.length_cons] at hlengths hall
            omega
          have hmoved : before ++ after = (before ++ after.takeWhile isBlank ++ span) ++ rest := by
            rw [htext, hspan]
            simp
          -- the scan goes on behind what the token stands for
          obtain ⟨front, last, hscan, marker, spelled⟩ := ih hafter hrest
          rw [← hmoved] at hscan
          refine ⟨(next lexer (before ++ after).toArray place).1 :: front, last, ?_, marker, ?_⟩
          · rw [next, hscan, List.cons_append]
          · have whole := Spelled.blanks hgap (spells _ spelled)
            rw [hcut] at whole
            exact whole

end Tokens

theorem spelled_tokens (literal : lexer.IsLiteral) (text : String) :
    ∃ front last, lexer.tokens text = front ++ [last] ∧
      last.spelling = (Symbol.endMarker, Symbol.endMarker) ∧
      lexer.Spelled text.toList (front.map Token.spelling) := by
  have h := spelled_scanFrom literal LineCounter.after_start (Nat.lt_succ_self text.toList.length)
  simpa [tokens, scan] using h

/-- The tokens of a text are those of its words one after the other, wherever they stand, and the end
marker. -/
theorem IsLiteral.spelling_tokens (literal : lexer.IsLiteral) (text : String) :
    (lexer.tokens text).map Token.spelling =
      ((words text.toList).flatMap fun w =>
        (lexer.tokens (String.ofList w)).dropLast.map Token.spelling) ++
        [(Symbol.endMarker, Symbol.endMarker)] := by
  have spelled : ∀ w, lexer.Spelled w
      ((lexer.tokens (String.ofList w)).dropLast.map Token.spelling) := by
    intro w
    obtain ⟨front, last, htokens, -, spelled⟩ := spelled_tokens literal (String.ofList w)
    rw [htokens, List.dropLast_concat]
    rwa [String.toList_ofList] at spelled
  obtain ⟨front, last, htokens, marker, whole⟩ := spelled_tokens literal text
  rw [htokens, List.map_append, List.map_singleton, marker,
    whole.unique literal (Spelled.words literal spelled text.toList)]

end Lexer

end Predictive
