import Predictive.Proofs.Scanning

/-!
# Patterns of literal texts

A literal text is written in a pattern with a backslash before each character that has a meaning of its
own there. The standard compiler reads this notation as one character after the other
(`read_escapeLiteral`), and the pattern matches where the text stands and nowhere else
(`matchAt_ofText`). Of other compilers this is asked (`PatternCompiler.TakesLiterals`): then a rule
whose notation is a literal text has a matcher that finds just that text (`compile_of_written`).

Double quotes around a text turn it into its notation as a literal. A double quote that follows an
opening one directly stays, and so does one without a partner, so the same holds of a text that begins or
ends with double quotes, as long as there is something between them and none inside
(`Pattern.expandQuotes_quoted`). Double quotes alone stand for themselves
(`Pattern.expandQuotes_quotes`).
-/

set_option autoImplicit false

namespace Predictive

/-! ## Steps of reading -/

namespace PatternReader

variable {α β : Type} {s t : PatternReading}

/-- A chain of steps goes on where its first step ends. -/
theorem bind_of_ok {x : PatternReader α} {a : α} (h : x s = .ok (a, t)) (f : α → PatternReader β) :
    (x >>= f) s = f a t := by
  show (x s >>= fun r => f r.1 r.2) = f a t
  rw [h]
  rfl

theorem checkNext_of_head (h : s.rest.head? ≠ some .loose) : checkNext s = .ok ((), s) := by
  rcases s with ⟨rest, position, flags, opened, closed, names, lookBehind, references⟩
  cases rest with
  | nil => rfl
  | cons piece rest =>
      cases piece with
      | loose => exact absurd rfl h
      | plain c => rfl
      | escape c => rfl

theorem take_of_cons {piece : PatternPiece} {rest : List PatternPiece}
    (h : s.rest = piece :: rest) (next : rest.head? ≠ some .loose) :
    take s = .ok (some piece,
      { s with rest := rest, position := s.position + piece.length }) := by
  rcases s with ⟨first, position, flags, opened, closed, names, lookBehind, references⟩
  obtain rfl : first = piece :: rest := h
  have hcheck := checkNext_of_head (s := ⟨rest, position + piece.length, flags, opened, closed,
    names, lookBehind, references⟩) next
  exact bind_of_ok hcheck fun _ => pure (some piece)

end PatternReader

namespace Pattern

/-! ## Reading a literal text -/

/-- The pattern of one character that stands for itself. -/
def literal (c : Char) : Pattern := .one (.point .exact c.toNat)

/-- The pattern of these characters, one after the other. -/
def ofText (cs : List Char) : Pattern := sequence (cs.map literal)

/-- The piece of notation that stands for one character. -/
def literalPiece (c : Char) : PatternPiece := if isSpecial c then .escape c else .plain c

/-- A special character never stands alone. -/
theorem literalPiece_ne_plain (c : Char) {d : Char} (h : isSpecial d = true) :
    literalPiece c ≠ .plain d := by
  rw [literalPiece]
  split
  · simp
  · next hc =>
      intro heq
      obtain rfl := PatternPiece.plain.inj heq
      exact hc h

theorem head?_literalPieces (cs : List Char) : (cs.map literalPiece).head? ≠ some .loose := by
  cases cs with
  | nil => simp
  | cons c cs =>
      rw [List.map_cons, List.head?_cons, literalPiece]
      split <;> simp

theorem ofChars_escapeLiteral (cs : List Char) :
    PatternPiece.ofChars (escapeLiteral cs) = cs.map literalPiece := by
  induction cs with
  | nil => rfl
  | cons c cs ih =>
      rw [escapeLiteral, List.flatMap_cons, ← escapeLiteral, List.map_cons, literalPiece, ← ih]
      split
      · simp [PatternPiece.ofChars]
      · next h =>
          have plain : c ≠ '\\' := by
            rintro rfl
            exact h (by decide)
          simp [PatternPiece.ofChars, plain]

/-- A backslash before a special character takes its meaning away. -/
theorem escape_of_isSpecial (names : CharacterNames) {c : Char} (h : isSpecial c = true)
    (s : PatternReading) : PatternReader.escape names [] c s = .ok (literal c, s) := by
  simp [isSpecial] at h
  rcases h with rfl | rfl | rfl | rfl | rfl | rfl | rfl | rfl | rfl | rfl | rfl | rfl | rfl |
    rfl | rfl | rfl | rfl | rfl | rfl | rfl | rfl | rfl | rfl | rfl | rfl <;>
  rfl

theorem simpleItem_literalPiece (names : CharacterNames) (c : Char) (items : List Pattern)
    (s : PatternReading) :
    PatternReader.simpleItem names [] (literalPiece c) items s =
      .ok (some (literal c :: items), s) := by
  rw [literalPiece]
  split
  · next h => exact PatternReader.bind_of_ok (escape_of_isSpecial names h s) _
  · next h =>
      have other : ∀ d, isSpecial d = true → c ≠ d := by
        rintro d hd rfl
        exact h hd
      unfold PatternReader.simpleItem
      dsimp only
      -- the characters with a meaning of their own are special
      split
      · exact absurd rfl (other '(' (by decide))
      · exact absurd rfl (other '[' (by decide))
      · exact absurd rfl (other '.' (by decide))
      · exact absurd rfl (other '^' (by decide))
      · exact absurd rfl (other '$' (by decide))
      · rw [if_neg]
        · rfl
        · rintro (rfl | rfl | rfl | rfl) <;> exact h (by decide)

theorem readItems_literalPieces (names : CharacterNames) (mayFlag : Bool) {fuel : Nat}
    {cs : List Char} (items : List Pattern) {s : PatternReading} (hfuel : cs.length < fuel)
    (h : s.rest = cs.map literalPiece) :
    ∃ position, PatternReader.readItems names fuel mayFlag [] items s =
      .ok ((cs.map literal).reverse ++ items, { s with rest := [], position := position }) := by
  induction fuel generalizing cs items s with
  | zero => exact absurd hfuel (Nat.not_lt_zero _)
  | succ fuel ih =>
      cases cs with
      | nil =>
          refine ⟨s.position, ?_⟩
          rcases s with ⟨rest, position, flags, opened, closed, named, lookBehind, references⟩
          obtain rfl : rest = [] := h
          rfl
      | cons c cs =>
          have hpeek : PatternReader.peek s = .ok (some (literalPiece c), s) := by
            show Except.ok (s.rest.head?, s) = _
            rw [h]
            rfl
          have goesOn : ¬ (literalPiece c = .plain '|' ∨ literalPiece c = .plain ')') := by
            rintro (h | h)
            · exact literalPiece_ne_plain c (by decide) h
            · exact literalPiece_ne_plain c (by decide) h
          have hrest : ({ s with
              rest := cs.map literalPiece,
              position := s.position + (literalPiece c).length } : PatternReading).rest =
                cs.map literalPiece := rfl
          obtain ⟨position, hread⟩ := ih (literal c :: items) (Nat.lt_of_succ_lt_succ hfuel) hrest
          refine ⟨position, ?_⟩
          rw [PatternReader.readItems, PatternReader.bind_of_ok hpeek]
          dsimp only
          -- no comments and no blanks are skipped: the piece is an item
          rw [if_neg goesOn,
            PatternReader.bind_of_ok (PatternReader.take_of_cons h (head?_literalPieces cs)),
            if_neg (by simp), if_neg (by simp),
            PatternReader.bind_of_ok (simpleItem_literalPiece names c items _)]
          dsimp only
          rw [hread, List.map_cons, List.reverse_cons, List.append_assoc]
          rfl

theorem settled_literal (cs : List Char) :
    PatternReader.settled ((cs.map literal).reverse ++ []) = cs.map literal := by
  rw [List.append_nil, PatternReader.settled, List.reverse_reverse, List.flatMap_map]
  exact List.map_eq_flatMap.symm

theorem flaw?_ofText (template : Bool) (cs : List Char) : (ofText cs).flaw? template = none := by
  induction cs with
  | nil => rfl
  | cons c cs ih =>
      cases cs with
      | nil => rfl
      | cons d cs => exact ih

/-- The notation of a literal text is read as the pattern of its characters. -/
theorem read_escapeLiteral (names : CharacterNames) (cs : List Char) :
    Pattern.read names [] (escapeLiteral cs) = .ok (ofText cs) := by
  generalize hs : startReading [] (escapeLiteral cs) = s
  have hrest : s.rest = cs.map literalPiece := by
    rw [← hs]
    exact ofChars_escapeLiteral cs
  have hnext : PatternReader.checkNext s = .ok ((), s) := by
    apply PatternReader.checkNext_of_head
    rw [hrest]
    exact head?_literalPieces cs
  have hremaining : PatternReader.remaining s = .ok (cs.length, s) := by
    show Except.ok (s.rest.length, s) = _
    rw [hrest, List.length_map]
  -- the reader is given more fuel than there are characters
  have hfuel : cs.length < 4 * cs.length + 3 := by omega
  obtain ⟨position, hitems⟩ := readItems_literalPieces names true [] hfuel hrest
  have hread : PatternReader.readAlternatives names (4 * cs.length + 4) true [] s =
      .ok (ofText cs, { s with rest := [], position := position }) := by
    rw [PatternReader.readAlternatives, PatternReader.bind_of_ok hitems, settled_literal]
    rfl
  rw [Pattern.read, hs]
  show (fun x => x.1) <$> reader names [] s = _
  rw [reader, PatternReader.bind_of_ok hnext, PatternReader.bind_of_ok hremaining,
    PatternReader.bind_of_ok hread, ← hs]
  simp only [flaw?_ofText]
  rfl

/-! ## Matching a literal text -/

theorem holdsAt_point_iff {c : Char} {text : Array Char} {place : Nat} :
    (CharSet.point .exact c.toNat).holdsAt text place = true ↔ text[place]? = some c := by
  rw [CharSet.holdsAt]
  cases text[place]? with
  | none => simp
  | some d => simp [CharSet.contains_point_iff]

theorem cons_prefix_drop_iff {c : Char} {cs text : List Char} {place : Nat} :
    c :: cs <+: text.drop place ↔ text[place]? = some c ∧ cs <+: text.drop (place + 1) := by
  rw [← List.head?_drop, ← List.drop_drop, List.drop_one]
  cases text.drop place with
  | nil => simp
  | cons d rest => simp [List.cons_prefix_cons, eq_comm]

/-- The pattern of a text matches in one way only, if the text stands at the place. -/
theorem run_ofText (text : Array Char) (inRepetition : Bool) (next : Option CharSet)
    (cs : List Char) (place : Nat) (s : MatchState) (rest : MatchRest) :
    run text inRepetition next (ofText cs) place s rest =
      if cs <+: text.toList.drop place then rest (place + cs.length) s else .failed s := by
  induction cs generalizing next place with
  | nil => simp [ofText, sequence, run]
  | cons c cs ih =>
      -- a single character is no sequence, so the two shapes of the pattern are taken apart here
      have hfirst : run text inRepetition next (ofText (c :: cs)) place s rest =
          if (CharSet.point .exact c.toNat).holdsAt text place = true then
            run text inRepetition next (ofText cs) (place + 1) s rest
          else .failed s := by
        cases cs with
        | nil => rfl
        | cons d cs => rfl
      rw [hfirst, ih]
      simp only [holdsAt_point_iff, cons_prefix_drop_iff, Array.getElem?_toList, List.length_cons]
      by_cases hc : text[place]? = some c
      · simp [hc, Nat.add_assoc, Nat.add_comm 1]
      · simp [hc]

/-- The pattern of a text matches where the text stands, and ends behind it. -/
theorem matchAt_ofText (cs : List Char) (text : Array Char) (place : Nat) :
    (ofText cs).matchAt text place =
      if cs <+: text.toList.drop place then some (place + cs.length) else none := by
  rw [matchAt, run_ofText]
  split <;> rfl

theorem matchAt_ofText_eq_some_iff {cs : List Char} {text : Array Char} {place stop : Nat} :
    (ofText cs).matchAt text place = some stop ↔
      cs <+: text.toList.drop place ∧ stop = place + cs.length := by
  rw [matchAt_ofText]
  split
  · next h => simp [h, eq_comm]
  · next h => simp [h]

/-! ## Quoted texts -/

/-- Double quotes stand at the ends of the text only, and there is something between them. -/
def QuotesAtEnds (cs : List Char) : Prop :=
  ∃ left middle right, cs = List.replicate left '"' ++ middle ++ List.replicate right '"' ∧
    middle ≠ [] ∧ '"' ∉ middle

theorem quotesAtEnds_of_not_mem {cs : List Char} (visible : cs ≠ []) (h : '"' ∉ cs) :
    QuotesAtEnds cs :=
  ⟨0, cs, 0, by simp, visible, h⟩

/-- Double quotes that follow an opening one stay. -/
theorem expandFrom_opened (n : Nat) (rest : List Char) :
    expandFrom (some []) (List.replicate n '"' ++ rest) =
      List.replicate n '"' ++ expandFrom (some []) rest := by
  induction n with
  | zero => rfl
  | succ n ih =>
      rw [List.replicate_succ, List.cons_append, List.cons_append, ← ih]
      rfl

theorem expandFrom_inside {cs : List Char} (h : '"' ∉ cs) (inside rest : List Char) :
    expandFrom (some inside) (cs ++ rest) = expandFrom (some (cs.reverse ++ inside)) rest := by
  induction cs generalizing inside with
  | nil => rfl
  | cons c cs ih =>
      rcases not_or.1 (mt List.mem_cons.2 h) with ⟨hc, hcs⟩
      rw [List.cons_append, expandFrom, if_neg fun e => hc e.symm, ih hcs, List.reverse_cons,
        List.append_assoc]
      rfl

/-- The quote that closes a text turns what stands inside into a literal. -/
theorem expandFrom_closing {inside : List Char} (h : inside ≠ []) (rest : List Char) :
    expandFrom (some inside) ('"' :: rest) =
      escapeLiteral inside.reverse ++ expandFrom none rest := by
  rw [expandFrom, if_pos rfl, if_neg (by simpa using h)]

/-- Double quotes alone stay. -/
theorem expandQuotes_quotes (n : Nat) :
    expandQuotes (List.replicate n '"') = List.replicate n '"' := by
  cases n with
  | zero => rfl
  | succ n =>
      have hopened := expandFrom_opened n []
      rw [List.append_nil] at hopened
      calc expandQuotes (List.replicate (n + 1) '"')
          = expandFrom (some []) (List.replicate n '"') := rfl
        _ = List.replicate n '"' ++ ['"'] := hopened
        _ = List.replicate (n + 1) '"' := List.replicate_succ'.symm

theorem escapeLiteral_append (cs ds : List Char) :
    escapeLiteral (cs ++ ds) = escapeLiteral cs ++ escapeLiteral ds :=
  List.flatMap_append

theorem escapeLiteral_quotes (n : Nat) :
    escapeLiteral (List.replicate n '"') = List.replicate n '"' := by
  induction n with
  | zero => rfl
  | succ n ih =>
      rw [List.replicate_succ, escapeLiteral, List.flatMap_cons, ← escapeLiteral, ih]
      rfl

/-- A text in double quotes becomes its own notation, even if it has double quotes at its ends. -/
theorem expandQuotes_quoted {cs : List Char} (h : QuotesAtEnds cs) :
    expandQuotes ('"' :: cs ++ ['"']) = escapeLiteral cs := by
  rcases h with ⟨left, middle, right, rfl, visible, unquoted⟩
  -- the closing quote may as well be counted as the first one of those at the end
  have htail : List.replicate right '"' ++ ['"'] = '"' :: List.replicate right '"' :=
    List.replicate_succ'.symm
  calc expandQuotes ('"' :: (List.replicate left '"' ++ middle ++ List.replicate right '"') ++ ['"'])
      = expandFrom (some [])
          (List.replicate left '"' ++ (middle ++ '"' :: List.replicate right '"')) := by
        rw [← htail]
        simp [expandQuotes, expandFrom]
    _ = List.replicate left '"' ++
          expandFrom (some middle.reverse) ('"' :: List.replicate right '"') := by
        rw [expandFrom_opened, expandFrom_inside unquoted, List.append_nil]
    _ = List.replicate left '"' ++
          (escapeLiteral middle ++ expandQuotes (List.replicate right '"')) := by
        rw [expandFrom_closing (by simpa using visible), List.reverse_reverse, expandQuotes]
    _ = escapeLiteral (List.replicate left '"' ++ middle ++ List.replicate right '"') := by
        rw [expandQuotes_quotes, escapeLiteral_append, escapeLiteral_append, escapeLiteral_quotes,
          escapeLiteral_quotes, List.append_assoc]

end Pattern

/-! ## Matchers of texts -/

/-- The matcher finds one text wherever it stands, and nothing else. -/
def Matcher.Spells (m : Matcher) (cs : List Char) : Prop :=
  ∀ text place stop,
    m.endAt text place = some stop ↔ cs <+: text.toList.drop place ∧ stop = place + cs.length

/-- What such a matcher finds is the text. -/
theorem Matcher.Spells.piece_eq {m : Matcher} {cs : List Char} (h : m.Spells cs)
    {text : Array Char} {place stop : Nat} (hits : Lexer.Hits m text place stop) :
    Lexer.piece text place stop = cs := by
  obtain ⟨⟨rest, hrest⟩, rfl⟩ := (h text place stop).1 hits.1
  rw [Lexer.piece, Array.toList_extract, List.extract_eq_take_drop, ← hrest, Nat.add_sub_cancel_left,
    List.take_left]

/-- It finds one text only. -/
theorem Matcher.Spells.unique {m : Matcher} {cs ds : List Char} (h : m.Spells cs)
    (h' : m.Spells ds) : cs = ds := by
  have found : m.endAt cs.toArray 0 = some cs.length :=
    (h cs.toArray 0 cs.length).2 ⟨List.prefix_refl cs, (Nat.zero_add _).symm⟩
  obtain ⟨hbegins, hlength⟩ := (h' cs.toArray 0 cs.length).1 found
  rw [Nat.zero_add] at hlength
  exact (hbegins.eq_of_length hlength.symm).symm

/-! ## Compilers that know literal texts -/

/-- Without flags the compiler takes the notation of a literal text, and finds the text where it
stands, and nothing else. -/
def PatternCompiler.TakesLiterals (c : PatternCompiler) : Prop :=
  ∀ (flags : Datum) (cs : List Char), flags.int? = some 0 →
    ∃ find : EndFinder, c (Pattern.escapeLiteral cs) flags = .ok find ∧
      ∀ text place stop, find text place = some stop ↔
        cs <+: text.toList.drop place ∧ stop = place + cs.length

/-- The standard compiler knows literal texts, whatever names there are. -/
theorem Pattern.compiler_takesLiterals (names : CharacterNames) :
    (Pattern.compiler names).TakesLiterals := by
  intro flags cs zero
  have plain : PatternFlags.ofInt 0 = [] := by decide
  have small : PatternFlags.fits 0 = true := by decide
  refine ⟨(Pattern.ofText cs).matchAt, ?_, fun _ _ _ => Pattern.matchAt_ofText_eq_some_iff⟩
  rw [Pattern.compiler, zero]
  dsimp only
  rw [plain, Pattern.read_escapeLiteral, Pattern.compiled, if_pos small]

/-- The standard compiler, or another one that knows literal texts. -/
theorem PatternCompiler.takesLiterals_of_known {c : PatternCompiler}
    (known : (∃ names, c = Pattern.compiler names) ∨ c.TakesLiterals) : c.TakesLiterals := by
  rcases known with ⟨names, rfl⟩ | takes
  · exact Pattern.compiler_takesLiterals names
  · exact takes

/-! ## Rules of texts -/

theorem Symbol.toList_terminal (w : String) : (terminal w).toList = '"' :: w.toList ++ ['"'] := by
  rw [terminal, String.toList_ofList]

namespace LexicalRule

variable {c : PatternCompiler} {flags : Datum}

/-- A rule whose notation is a literal text finds that text. -/
theorem compile_of_written (takes : c.TakesLiterals) (zero : flags.int? = some 0)
    {r : LexicalRule} {cs : List Char} (h : r.written = Pattern.escapeLiteral cs) :
    ∃ m, r.compile c flags = .ok m ∧ m.name = r.name ∧ m.Spells cs := by
  obtain ⟨find, compiled, spells⟩ := takes flags cs zero
  refine ⟨⟨r.name, find⟩, ?_, rfl, spells⟩
  rw [compile, h, compiled]

/-- The rule of a terminal finds the text of the terminal. -/
theorem compile_terminal (takes : c.TakesLiterals) (zero : flags.int? = some 0) (name : Symbol)
    {w : String} (h : Pattern.QuotesAtEnds w.toList) :
    ∃ m, (LexicalRule.mk (Symbol.terminal w) name).compile c flags = .ok m ∧ m.name = name ∧
      m.Spells w.toList := by
  apply compile_of_written takes zero
  rw [written, Symbol.toList_terminal, Pattern.expandQuotes_quoted h]

end LexicalRule

end Predictive
