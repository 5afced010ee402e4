import Predictive.Recognizer.Basic

/-!
# Token streams

Every token but the last one is a match of a rule or a character that no rule matches, and ends within
the text and beyond the place where it was asked for (`Lexer.next_spec`). So a scan needs no more fuel
than there are places left (`Lexer.scanFrom_add`), and its last token is the end marker
(`Lexer.tokens_eq_append`). The state in which a recognition begins holds just the tokens of the text
(`Recognizer.tokens_stateAt`).
-/

set_option autoImplicit false

namespace Predictive

namespace Lexer

variable {text : Array Char}

/-! ## Places -/

theorem length_piece (first stop : Nat) :
    (piece text first stop).length = min stop text.size - first := by
  rw [piece, Array.length_toList, Array.size_extract]

theorem position_feed (place : LineCounter) (cs : List Char) (countFeeds : Bool) :
    (place.feed cs countFeeds).position = place.position + cs.length := rfl

/-- The blanks at a place of a text end within the text. -/
theorem blankEnd_bounds {place : Nat} (h : place ≤ text.size) (fuel : Nat) :
    place ≤ blankEnd text fuel place ∧ blankEnd text fuel place ≤ text.size := by
  induction fuel generalizing place with
  | zero => exact ⟨Nat.le_refl _, h⟩
  | succ fuel ih =>
      rw [blankEnd]
      cases hc : text[place]? with
      | none => exact ⟨Nat.le_refl _, h⟩
      | some c =>
          have hlt : place < text.size := (Array.getElem?_eq_some_iff.1 hc).1
          by_cases hblank : Text.isBlank c = true
          · simp only [hblank, if_true]
            have hnext : place + 1 ≤ text.size := hlt
            obtain ⟨hle, hend⟩ := ih hnext
            exact ⟨by omega, hend⟩
          · simp only [hblank]
            exact ⟨Nat.le_refl _, h⟩

theorem position_skipBlanks {place : LineCounter} (h : place.position ≤ text.size) :
    place.position ≤ (skipBlanks text place).position ∧
      (skipBlanks text place).position ≤ text.size := by
  obtain ⟨hle, hend⟩ := blankEnd_bounds h text.size
  rw [skipBlanks, position_feed, length_piece]
  omega

/-! ## One token -/

/-- The matcher has a match at a place that is not empty and ends within the text. -/
def Hits (m : Matcher) (text : Array Char) (place stop : Nat) : Prop :=
  m.endAt text place = some stop ∧ place < stop ∧ stop ≤ text.size

/-- The token is a match of a rule that is not empty, at the place where the token stands. -/
def Matches (lexer : Lexer) (text : Array Char) (t : Token) : Prop :=
  ∃ m ∈ lexer, ∃ (place : LineCounter) (stop : Nat), Hits m text place.position stop ∧
    t = tokenAt m.name (valueOf m.name (piece text place.position stop)) place

/-- The token is a character at which no rule has a match that is not empty. -/
def Unmatched (lexer : Lexer) (text : Array Char) (t : Token) : Prop :=
  ∃ (place : LineCounter) (c : Char), text[place.position]? = some c ∧
    (∀ m ∈ lexer, ∀ stop, ¬ Hits m text place.position stop) ∧
    t = tokenAt (String.singleton c) (String.singleton c) place

/-- No token is both, since it stands at one place. -/
theorem Unmatched.not_matches {lexer : Lexer} {t : Token} (h : lexer.Unmatched text t) :
    ¬ lexer.Matches text t := by
  obtain ⟨place, c, -, none, rfl⟩ := h
  rintro ⟨m, hm, place', stop, hits, same⟩
  have hposition : (place.position : Int) = place'.position :=
    Option.some.inj (congrArg Token.position same)
  have hplace : place.position = place'.position := Int.ofNat.inj hposition
  rw [← hplace] at hits
  exact none m hm stop hits

/-- The matcher has a match at the place that is not empty, and no matcher before it has one. -/
def Leads (lexer : Lexer) (text : Array Char) (place stop : Nat) (m : Matcher) : Prop :=
  ∃ front back, lexer = front ++ m :: back ∧ Hits m text place stop ∧
    ∀ m' ∈ front, ∀ stop', ¬ Hits m' text place stop'

theorem Leads.mem {place stop : Nat} {m : Matcher} {lexer : Lexer}
    (h : lexer.Leads text place stop m) : m ∈ lexer := by
  rcases h with ⟨front, back, rfl, -, -⟩
  simp

theorem Leads.hits {place stop : Nat} {m : Matcher} {lexer : Lexer}
    (h : lexer.Leads text place stop m) : Hits m text place stop := by
  rcases h with ⟨-, -, -, hits, -⟩
  exact hits

theorem leads_cons {place stop : Nat} {m first : Matcher} {lexer : Lexer}
    (missed : ∀ stop', ¬ Hits first text place stop') (h : lexer.Leads text place stop m) :
    Leads (first :: lexer) text place stop m := by
  rcases h with ⟨front, back, rfl, hits, earlier⟩
  refine ⟨first :: front, back, rfl, hits, ?_⟩
  intro m' hm'
  rcases List.mem_cons.1 hm' with rfl | hm'
  · exact missed
  · exact earlier m' hm'

theorem firstMatch_eq_some {place stop : Nat} {name : Symbol} {lexer : Lexer}
    (h : firstMatch text place lexer = some (name, stop)) :
    ∃ m, m.name = name ∧ lexer.Leads text place stop m := by
  induction lexer with
  | nil => exact absurd h (by simp [firstMatch])
  | cons m ms ih =>
      have later (missed : ∀ stop', ¬ Hits m text place stop')
          (h : firstMatch text place ms = some (name, stop)) :
          ∃ m', m'.name = name ∧ Leads (m :: ms) text place stop m' := by
        obtain ⟨m', hname, leads⟩ := ih h
        exact ⟨m', hname, leads_cons missed leads⟩
      rw [firstMatch] at h
      cases hm : m.endAt text place with
      | none =>
          rw [hm] at h
          refine later ?_ h
          rintro stop' ⟨hits, -⟩
          exact absurd (hm.symm.trans hits) (by simp)
      | some found =>
          rw [hm] at h
          -- a match without characters counts as none
          by_cases hfound : place < found ∧ found ≤ text.size
          · simp only [if_pos hfound, Option.some.injEq, Prod.mk.injEq] at h
            rcases h with ⟨rfl, rfl⟩
            exact ⟨m, rfl, [], ms, rfl, ⟨hm, hfound⟩, by simp⟩
          · simp only [if_neg hfound] at h
            refine later ?_ h
            rintro stop' ⟨hits, bounds⟩
            obtain rfl := Option.some.inj (hm.symm.trans hits)
            exact hfound bounds

theorem firstMatch_eq_none {place : Nat} {lexer : Lexer}
    (h : firstMatch text place lexer = none) :
    ∀ m ∈ lexer, ∀ stop, ¬ Hits m text place stop := by
  induction lexer with
  | nil => simp
  | cons m ms ih =>
      rintro m' hm' stop ⟨hits, bounds⟩
      rw [firstMatch] at h
      rcases List.mem_cons.1 hm' with rfl | hm'
      · simp only [hits, if_pos bounds] at h
        exact absurd h (by simp)
      · have later : firstMatch text place ms = none := by
          cases hm : m.endAt text place with
          | none =>
              rw [hm] at h
              exact h
          | some found =>
              rw [hm] at h
              by_cases hfound : place < found ∧ found ≤ text.size
              · simp only [if_pos hfound] at h
                exact absurd h (by simp)
              · simpa only [if_neg hfound] using h
        exact ih later m' hm' stop ⟨hits, bounds⟩

/-- The token at a character is the match of the first rule that has one there, or the character alone
if no rule has one. -/
theorem tokenFrom_cases (lexer : Lexer) {place : LineCounter} {c : Char}
    (hc : text[place.position]? = some c) :
    (∃ m stop, lexer.Leads text place.position stop m ∧
      tokenFrom lexer text place =
        (tokenAt m.name (valueOf m.name (piece text place.position stop)) place,
          place.feed (piece text place.position stop) true)) ∨
    ((∀ m ∈ lexer, ∀ stop, ¬ Hits m text place.position stop) ∧
      tokenFrom lexer text place =
        (tokenAt (String.singleton c) (String.singleton c) place, place.feed [c] true)) := by
  rw [tokenFrom, hc]
  cases hmatch : firstMatch text place.position lexer with
  | none => exact .inr ⟨firstMatch_eq_none hmatch, rfl⟩
  | some found =>
      obtain ⟨m, hname, leads⟩ := firstMatch_eq_some hmatch
      refine .inl ⟨m, found.2, leads, ?_⟩
      simp only [hname]

/-- The token is the one that begins at some character of the text. -/
def BeginsAt (lexer : Lexer) (text : Array Char) (place : LineCounter) (t : Token) : Prop :=
  (∃ c, text[place.position]? = some c) ∧ t = (tokenFrom lexer text place).1

/-- A token that begins at a character is a match or a character without one. -/
theorem BeginsAt.source {lexer : Lexer} {place : LineCounter} {t : Token}
    (h : lexer.BeginsAt text place t) : lexer.Matches text t ∨ lexer.Unmatched text t := by
  rcases h with ⟨⟨c, hc⟩, rfl⟩
  rcases tokenFrom_cases lexer hc with ⟨m, stop, leads, htoken⟩ | ⟨missed, htoken⟩
  · exact .inl ⟨m, leads.mem, place, stop, leads.hits, by rw [htoken]⟩
  · exact .inr ⟨place, c, hc, missed, by rw [htoken]⟩

/-- A token is the end marker, right behind the text, or it begins at a character and ends within the
text beyond its place. -/
theorem tokenFrom_spec (lexer : Lexer) {place : LineCounter} (h : place.position ≤ text.size) :
    ((tokenFrom lexer text place).1.kind = Symbol.endMarker ∧
      (tokenFrom lexer text place).2.position = text.size + 1) ∨
    ((place.position < (tokenFrom lexer text place).2.position ∧
        (tokenFrom lexer text place).2.position ≤ text.size) ∧
      lexer.BeginsAt text place (tokenFrom lexer text place).1) := by
  cases hc : text[place.position]? with
  | none =>
      -- nothing is left: the end marker
      have hend : place.position = text.size := Nat.le_antisymm h (Array.getElem?_eq_none_iff.1 hc)
      rw [tokenFrom, hc]
      refine .inl ⟨rfl, ?_⟩
      simp only [hend, if_true, position_feed, List.length_singleton]
  | some c =>
      have hlt : place.position < text.size := (Array.getElem?_eq_some_iff.1 hc).1
      refine .inr ⟨?_, ⟨c, hc⟩, rfl⟩
      rcases tokenFrom_cases lexer hc with ⟨m, stop, leads, htoken⟩ | ⟨-, htoken⟩
      · obtain ⟨-, hstop, hend⟩ := leads.hits
        rw [htoken]
        simp only [position_feed, length_piece]
        omega
      · rw [htoken]
        simp only [position_feed, List.length_singleton]
        omega

theorem next_spec (lexer : Lexer) {place : LineCounter} (h : place.position ≤ text.size) :
    ((next lexer text place).1.kind = Symbol.endMarker ∧
      (next lexer text place).2.position = text.size + 1) ∨
    ((place.position < (next lexer text place).2.position ∧
        (next lexer text place).2.position ≤ text.size) ∧
      lexer.BeginsAt text (skipBlanks text place) (next lexer text place).1) := by
  obtain ⟨hle, hend⟩ := position_skipBlanks h
  rcases tokenFrom_spec lexer hend with hmarker | ⟨⟨hlt, hbound⟩, begins⟩
  · exact .inl hmarker
  · exact .inr ⟨⟨Nat.lt_of_le_of_lt hle hlt, hbound⟩, begins⟩

theorem position_lt_next (lexer : Lexer) {place : LineCounter} (h : place.position ≤ text.size) :
    place.position < (next lexer text place).2.position := by
  rcases next_spec lexer h with ⟨-, hend⟩ | ⟨⟨hlt, -⟩, -⟩
  · omega
  · exact hlt

/-! ## Scans -/

theorem scanFrom_of_isDone (lexer : Lexer) {place : LineCounter} (h : isDone text place = true)
    (fuel : Nat) : scanFrom lexer text fuel place = [] := by
  cases fuel with
  | zero => rfl
  | succ fuel => rw [scanFrom, if_pos h]

theorem isDone_iff {place : LineCounter} : isDone text place = true ↔ text.size < place.position := by
  simp [isDone]

theorem scanFrom_succ (lexer : Lexer) {place : LineCounter} (h : place.position ≤ text.size)
    (fuel : Nat) :
    scanFrom lexer text (fuel + 1) place =
      next lexer text place :: scanFrom lexer text fuel (next lexer text place).2 := by
  rw [scanFrom, if_neg (by rw [isDone_iff]; omega)]

/-- A scan does not change when it may take more tokens than there are places left. -/
theorem scanFrom_add (lexer : Lexer) {fuel : Nat} {place : LineCounter}
    (h : text.size + 1 - place.position ≤ fuel) (extra : Nat) :
    scanFrom lexer text (fuel + extra) place = scanFrom lexer text fuel place := by
  induction fuel generalizing place with
  | zero =>
      have hdone : isDone text place = true := isDone_iff.2 (by omega)
      rw [scanFrom_of_isDone lexer hdone, scanFrom_of_isDone lexer hdone]
  | succ fuel ih =>
      by_cases hplace : place.position ≤ text.size
      · have hlt := position_lt_next lexer hplace
        have hrest : text.size + 1 - (next lexer text place).2.position ≤ fuel := by omega
        rw [Nat.succ_add, scanFrom_succ lexer hplace, scanFrom_succ lexer hplace, ih hrest]
      · have hdone : isDone text place = true := isDone_iff.2 (by omega)
        rw [scanFrom_of_isDone lexer hdone, scanFrom_of_isDone lexer hdone]

/-- The last token of a scan that begins within the text is the end marker; the others begin at
characters of the text. -/
theorem scanFrom_eq_append (lexer : Lexer) {fuel : Nat} {place : LineCounter}
    (hplace : place.position ≤ text.size) (h : text.size + 1 - place.position ≤ fuel) :
    ∃ front last, (scanFrom lexer text fuel place).map (·.1) = front ++ [last] ∧
      last.kind = Symbol.endMarker ∧ ∀ t ∈ front, ∃ place, lexer.BeginsAt text place t := by
  induction fuel generalizing place with
  | zero => omega
  | succ fuel ih =>
      rw [scanFrom_succ lexer hplace, List.map_cons]
      rcases next_spec lexer hplace with ⟨hkind, hend⟩ | ⟨⟨hlt, hbound⟩, begins⟩
      · refine ⟨[], (next lexer text place).1, ?_, hkind, by simp⟩
        rw [scanFrom_of_isDone lexer (isDone_iff.2 (by omega))]
        rfl
      · obtain ⟨front, last, hrest, hkind, sources⟩ := ih hbound (by omega)
        refine ⟨(next lexer text place).1 :: front, last, by rw [hrest]; rfl, hkind, ?_⟩
        intro t ht
        rcases List.mem_cons.1 ht with rfl | ht
        · exact ⟨_, begins⟩
        · exact sources t ht

theorem exists_tokens_eq (lexer : Lexer) (text : String) :
    ∃ front last, lexer.tokens text = front ++ [last] ∧ last.kind = Symbol.endMarker ∧
      ∀ t ∈ front, ∃ place, lexer.BeginsAt text.toList.toArray place t :=
  scanFrom_eq_append lexer (Nat.zero_le _) (by omega)

/-- The tokens of a text but the last one begin at characters of the text. -/
theorem beginsAt_of_mem_tokens {lexer : Lexer} {text : String} {t : Token}
    (ht : t ∈ (lexer.tokens text).dropLast) :
    ∃ place, lexer.BeginsAt text.toList.toArray place t := by
  obtain ⟨front, last, htokens, -, begins⟩ := lexer.exists_tokens_eq text
  rw [htokens, List.dropLast_concat] at ht
  exact begins t ht

/-- The tokens of a text are matches, or characters without one, and the end marker in the end. -/
theorem tokens_eq_append (lexer : Lexer) (text : String) :
    ∃ front last, lexer.tokens text = front ++ [last] ∧ last.kind = Symbol.endMarker ∧
      ∀ t ∈ front, lexer.Matches text.toList.toArray t ∨ lexer.Unmatched text.toList.toArray t := by
  obtain ⟨front, last, htokens, hkind, begins⟩ := lexer.exists_tokens_eq text
  refine ⟨front, last, htokens, hkind, ?_⟩
  intro t ht
  obtain ⟨place, h⟩ := begins t ht
  exact h.source

end Lexer

/-- The lookahead and the tokens after it in the first state are the tokens of the text. -/
theorem Recognizer.tokens_stateAt (r : Recognizer) (text : String) (stack : List Symbol) :
    (r.stateAt text.toList.toArray .start stack).token ::
      (r.stateAt text.toList.toArray .start stack).rest = r.lexer.tokens text := by
  have hstart : LineCounter.start.position ≤ text.toList.toArray.size := Nat.zero_le _
  have hlt := Lexer.position_lt_next r.lexer hstart
  rw [Lexer.tokens, Lexer.scan, Lexer.scanFrom_succ r.lexer hstart, List.map_cons]
  have hfuel : text.toList.toArray.size + 1 -
      (r.lexer.next text.toList.toArray .start).2.position ≤ text.toList.toArray.size := by
    omega
  rw [← Lexer.scanFrom_add r.lexer hfuel 1]
  rfl

end Predictive
