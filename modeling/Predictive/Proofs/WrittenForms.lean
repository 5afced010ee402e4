import Predictive.Datum

/-!
# Values are told by their written forms

A quoted text can be read back from any text that begins with it (`Text.eq_of_quote`), and a number
from any text in which no digit follows it. So the written form of a value, whatever follows but a
digit, tells the value and where it ends (`Datum.eq_of_render`). This holds of values made of numbers,
truth values, texts and collections; a production, a grammar or a file is not told by what is written
of it.
-/

set_option autoImplicit false

namespace Predictive

/-! ## Hexadecimal digits -/

namespace Text

/-- The number of a hexadecimal digit. -/
def hexDigitValue (c : Char) : Nat := if c.toNat < 58 then c.toNat - 48 else c.toNat - 87

/-- The number that hexadecimal digits stand for. -/
def hexValue (cs : List Char) : Nat := cs.foldl (fun n c => 16 * n + hexDigitValue c) 0

theorem hexDigitValue_hexDigit {n : Nat} (h : n < 16) : hexDigitValue (hexDigit n) = n := by
  revert n
  decide

@[simp] theorem length_hexDigits (width n : Nat) : (hexDigits width n).length = width := by
  induction width generalizing n with
  | zero => rfl
  | succ width ih => simp [hexDigits, ih]

/-- The digits of a number that has no more digits than are written. -/
theorem hexValue_hexDigits {width n : Nat} (h : n < Nat.pow 16 width) :
    hexValue (hexDigits width n) = n := by
  induction width generalizing n with
  | zero =>
      have hone : n < 1 := h
      simp [hexValue, hexDigits]; omega
  | succ width ih =>
      have hpow : n < Nat.pow 16 width * 16 := h
      have hdiv : n / 16 < Nat.pow 16 width := by omega
      have hlast : hexDigitValue (hexDigit (n % 16)) = n % 16 :=
        hexDigitValue_hexDigit (Nat.mod_lt _ (by decide))
      have hfront := ih hdiv
      rw [hexValue] at hfront ⊢
      rw [hexDigits, List.foldl_append, hfront]
      simp only [List.foldl_cons, List.foldl_nil, hlast]
      omega

/-! ## Quoted texts -/

/-- The character with a code point that stands in as many digits at the front, and the rest. -/
def readCode (width : Nat) (cs : List Char) : Char × List Char :=
  (Char.ofNat (hexValue (cs.take width)), cs.drop width)

/-- The character that stands at the front inside quotes, and the rest. -/
def readQuotedChar : List Char → Option (Char × List Char)
  | [] => none
  | '\\' :: 'n' :: cs => some ('\n', cs)
  | '\\' :: 'r' :: cs => some ('\r', cs)
  | '\\' :: 't' :: cs => some ('\t', cs)
  | '\\' :: 'x' :: cs => some (readCode 2 cs)
  | '\\' :: 'u' :: cs => some (readCode 4 cs)
  | '\\' :: 'U' :: cs => some (readCode 8 cs)
  | '\\' :: c :: cs => some (c, cs)
  | c :: cs => some (c, cs)

theorem readCode_hexDigits {width : Nat} {c : Char} (h : c.toNat < Nat.pow 16 width)
    (cs : List Char) :
    readCode width (hexDigits width c.toNat ++ cs) = (c, cs) := by
  have htake : (hexDigits width c.toNat ++ cs).take width = hexDigits width c.toNat :=
    List.take_left' (length_hexDigits _ _)
  have hdrop : (hexDigits width c.toNat ++ cs).drop width = cs :=
    List.drop_left' (length_hexDigits _ _)
  rw [readCode, htake, hdrop, hexValue_hexDigits h, Char.ofNat_toNat]

theorem readQuotedChar_escapeCode (c : Char) (cs : List Char) :
    readQuotedChar (escapeCode c ++ cs) = some (c, cs) := by
  have hvalid : c.toNat < 16 ^ 8 := by
    have hc := c.valid
    simp only [UInt32.isValidChar, Nat.isValidChar] at hc
    simp only [Char.toNat]
    omega
  rw [escapeCode]
  split
  · next h => exact congrArg some (readCode_hexDigits (show c.toNat < 16 ^ 2 from h) cs)
  · split
    · next h => exact congrArg some (readCode_hexDigits h cs)
    · exact congrArg some (readCode_hexDigits hvalid cs)

/-- A character inside quotes is read back, whatever follows. -/
theorem readQuotedChar_quoteChar {mark : Char} (hmark : mark = '\'' ∨ mark = '"') (c : Char)
    (cs : List Char) : readQuotedChar (quoteChar mark c ++ cs) = some (c, cs) := by
  rw [quoteChar]
  split
  · next h =>
      rcases h with rfl | rfl
      · rcases hmark with rfl | rfl <;> rfl
      · rfl
  · next h =>
      split
      · next hc => subst hc; rfl
      · split
        · next hc => subst hc; rfl
        · split
          · next hc => subst hc; rfl
          · split
            · -- a character that stands for itself is no backslash
              have hplain : c ≠ '\\' := fun hc => h (.inr hc)
              rw [List.singleton_append, readQuotedChar]
              all_goals simp [hplain]
            · exact readQuotedChar_escapeCode c cs

/-- No character inside quotes begins like the quote that closes them. -/
theorem head_quoteChar {mark : Char} (hmark : mark = '\'' ∨ mark = '"') (c : Char) :
    ∃ d ds, quoteChar mark c = d :: ds ∧ d ≠ mark := by
  have hslash : '\\' ≠ mark := by
    rcases hmark with rfl | rfl <;> decide
  rw [quoteChar]
  split
  · exact ⟨_, _, rfl, hslash⟩
  · next h =>
      split
      · exact ⟨_, _, rfl, hslash⟩
      · split
        · exact ⟨_, _, rfl, hslash⟩
        · split
          · exact ⟨_, _, rfl, hslash⟩
          · split
            · exact ⟨_, _, rfl, fun hc => h (.inl hc)⟩
            · rw [escapeCode]
              split
              · exact ⟨_, _, rfl, hslash⟩
              · split <;> exact ⟨_, _, rfl, hslash⟩

/-- What stands inside quotes is known up to the quote that closes them. -/
theorem eq_of_quoted {mark : Char} (hmark : mark = '\'' ∨ mark = '"') {cs ds r r' : List Char}
    (h : cs.flatMap (quoteChar mark) ++ mark :: r = ds.flatMap (quoteChar mark) ++ mark :: r') :
    cs = ds ∧ r = r' := by
  induction cs generalizing ds with
  | nil =>
      cases ds with
      | nil => exact ⟨rfl, (List.cons.inj h).2⟩
      | cons d ds =>
          obtain ⟨x, xs, hx, hne⟩ := head_quoteChar hmark d
          rw [List.flatMap_cons, hx] at h
          exact absurd (List.cons.inj h).1.symm hne
  | cons c cs ih =>
      cases ds with
      | nil =>
          obtain ⟨x, xs, hx, hne⟩ := head_quoteChar hmark c
          rw [List.flatMap_cons, hx] at h
          exact absurd (List.cons.inj h).1 hne
      | cons d ds =>
          rw [List.flatMap_cons, List.flatMap_cons, List.append_assoc, List.append_assoc] at h
          -- both texts are read from the front, so their first characters are the same
          have hread := congrArg readQuotedChar h
          rw [readQuotedChar_quoteChar hmark, readQuotedChar_quoteChar hmark] at hread
          obtain ⟨rfl, hrest⟩ := Prod.mk.inj (Option.some.inj hread)
          obtain ⟨rfl, hr⟩ := ih hrest
          exact ⟨rfl, hr⟩

theorem quoteFor_eq (cs : List Char) : quoteFor cs = '\'' ∨ quoteFor cs = '"' := by
  rw [quoteFor]
  split
  · exact .inr rfl
  · exact .inl rfl

theorem toList_quote (s : String) :
    (quote s).toList = quoteFor s.toList ::
      (s.toList.flatMap (quoteChar (quoteFor s.toList)) ++ [quoteFor s.toList]) := by
  rw [quote, String.toList_ofList]
  rfl

/-- A quoted text is known, whatever follows it. -/
theorem eq_of_quote {s t : String} {r r' : List Char}
    (h : (quote s).toList ++ r = (quote t).toList ++ r') : s = t ∧ r = r' := by
  rw [toList_quote, toList_quote, List.cons_append, List.cons_append] at h
  -- the quote depends on the text, but it stands in front, so it is the same for both
  obtain ⟨hmark, h⟩ := List.cons.inj h
  rw [← hmark, List.append_assoc, List.append_assoc] at h
  obtain ⟨htext, hr⟩ := eq_of_quoted (quoteFor_eq s.toList) h
  exact ⟨String.toList_injective htext, hr⟩

end Text

/-! ## Numbers -/

namespace Datum

/-- No digit comes next. -/
def NoDigitNext (r : List Char) : Prop := ∀ c ∈ r.head?, c.isDigit = false

theorem noDigitNext_cons {c : Char} {cs : List Char} (h : c.isDigit = false) :
    NoDigitNext (c :: cs) := by
  intro d hd
  obtain rfl := Option.some.inj hd
  exact h

theorem toList_natText (n : Nat) : (natText n).toList = Nat.toDigits 10 n := by
  rw [natText, String.toList_ofList]

theorem isDigit_of_mem_toDigits {n : Nat} {c : Char} (h : c ∈ Nat.toDigits 10 n) :
    c.isDigit = true :=
  Nat.isDigit_of_mem_toDigits (by decide) (by decide) h

/-- Digits are known if none follows them. -/
theorem takeWhile_toDigits {n : Nat} {r : List Char} (h : NoDigitNext r) :
    (Nat.toDigits 10 n ++ r).takeWhile Char.isDigit = Nat.toDigits 10 n := by
  rw [List.takeWhile_append_of_pos fun c hc => isDigit_of_mem_toDigits hc]
  have hnone : r.takeWhile Char.isDigit = [] := by
    cases r with
    | nil => rfl
    | cons c r => exact List.takeWhile_cons_of_neg (by simp [h c rfl])
  rw [hnone, List.append_nil]

theorem eq_of_natText {n m : Nat} {r r' : List Char} (hr : NoDigitNext r) (hr' : NoDigitNext r')
    (h : (natText n).toList ++ r = (natText m).toList ++ r') : n = m ∧ r = r' := by
  rw [toList_natText, toList_natText] at h
  have hdigits : Nat.toDigits 10 n = Nat.toDigits 10 m :=
    calc Nat.toDigits 10 n
        = (Nat.toDigits 10 n ++ r).takeWhile Char.isDigit := (takeWhile_toDigits hr).symm
      _ = (Nat.toDigits 10 m ++ r').takeWhile Char.isDigit := by rw [h]
      _ = Nat.toDigits 10 m := takeWhile_toDigits hr'
  refine ⟨?_, ?_⟩
  · have hvalue := congrArg (fun cs => Nat.ofDigitChars 10 cs 0) hdigits
    simpa only [Nat.ofDigitChars_ten_toDigits] using hvalue
  · rw [hdigits] at h
    exact List.append_cancel_left h

theorem exists_head_natText (n : Nat) :
    ∃ c cs, (natText n).toList = c :: cs ∧ c.isDigit = true := by
  rw [toList_natText]
  cases hdigits : Nat.toDigits 10 n with
  | nil => exact absurd hdigits Nat.toDigits_ne_nil
  | cons c cs =>
      refine ⟨c, cs, rfl, isDigit_of_mem_toDigits (n := n) ?_⟩
      rw [hdigits]
      exact List.mem_cons_self

theorem toList_intText (n : Int) :
    (intText n).toList = if n < 0 then '-' :: (natText n.natAbs).toList
      else (natText n.natAbs).toList := by
  rw [intText]
  split
  · rw [String.toList_append]
    rfl
  · rfl

theorem eq_of_intText {n m : Int} {r r' : List Char} (hr : NoDigitNext r) (hr' : NoDigitNext r')
    (h : (intText n).toList ++ r = (intText m).toList ++ r') : n = m ∧ r = r' := by
  have unsigned : ∀ {k : Nat} {x y : List Char},
      '-' :: x ≠ (natText k).toList ++ y := by
    intro k x y heq
    obtain ⟨c, cs, hc, hdigit⟩ := exists_head_natText k
    rw [hc] at heq
    obtain ⟨rfl, -⟩ := List.cons.inj heq
    exact absurd hdigit (by decide)
  rw [toList_intText, toList_intText] at h
  -- the signs are the same, since no number without one begins with it
  by_cases hn : n < 0 <;> by_cases hm : m < 0
  · rw [if_pos hn, if_pos hm] at h
    obtain ⟨habs, hr⟩ := eq_of_natText hr hr' (List.cons.inj h).2
    exact ⟨by omega, hr⟩
  · rw [if_pos hn, if_neg hm] at h
    exact absurd h unsigned
  · rw [if_neg hn, if_pos hm] at h
    exact absurd h.symm unsigned
  · rw [if_neg hn, if_neg hm] at h
    obtain ⟨habs, hr⟩ := eq_of_natText hr hr' h
    exact ⟨by omega, hr⟩

/-! ## Values -/

mutual

/-- The value is made of the absent value, truth values, integers, texts, and of lists, tuples and
dictionaries of these, so that its written form tells it. The members of a set have no order to be
told by. -/
def isTold : Datum → Bool
  | .null => true
  | .bool _ => true
  | .int _ => true
  | .text _ => true
  | .list items => areTold items
  | .tuple items => areTold items
  | .dict entries => areToldEntries entries
  | _ => false

/-- All items are told by their written forms. -/
def areTold : List Datum → Bool
  | [] => true
  | x :: xs => isTold x && areTold xs

/-- The keys and the values of all entries are told by their written forms. -/
def areToldEntries : List (Datum × Datum) → Bool
  | [] => true
  | e :: es => isToldEntry e && areToldEntries es

/-- The key and the value of the entry are told by their written forms. -/
def isToldEntry : Datum × Datum → Bool
  | (k, v) => isTold k && isTold v

end

/-- The kind of a value, numbered, for values that are told by their written forms. -/
def kindNumber : Datum → Nat
  | .null => 0
  | .bool _ => 1
  | .int _ => 2
  | .text _ => 3
  | .list _ => 4
  | .tuple _ => 5
  | .dict _ => 6
  | _ => 7

/-- The kind of the values whose written forms begin with a character. -/
def kindOfHead (c : Char) : Nat :=
  if c = 'N' then 0
  else if c = 'T' ∨ c = 'F' then 1
  else if c = '-' ∨ c.isDigit then 2
  else if c = '\'' ∨ c = '"' then 3
  else if c = '[' then 4
  else if c = '(' then 5
  else if c = '\x7b' then 6
  else 8

theorem kindOfHead_of_isDigit {c : Char} (h : c.isDigit = true) : kindOfHead c = 2 := by
  have hN : c ≠ 'N' := by
    rintro rfl
    exact absurd h (by decide)
  have hT : ¬ (c = 'T' ∨ c = 'F') := by
    rintro (rfl | rfl) <;> exact absurd h (by decide)
  rw [kindOfHead, if_neg hN, if_neg hT, if_pos (.inr h)]

/-- The forms of what comes after the first item, each with a separator before it. -/
def tailForm (forms : List String) : List Char :=
  forms.flatMap fun form => ',' :: ' ' :: form.toList

theorem toList_joinWith_cons (form : String) (forms : List String) :
    (joinWith ", " (form :: forms)).toList = form.toList ++ tailForm forms := by
  induction forms generalizing form with
  | nil => simp [joinWith, tailForm]
  | cons next forms ih =>
      rw [joinWith, String.intercalate_cons_cons, String.toList_append, String.toList_append]
      have hnext := ih next
      rw [joinWith] at hnext
      rw [hnext, List.append_assoc]
      rfl

theorem toList_tupleText (forms : List String) :
    (tupleText forms).toList = '(' :: ((joinWith ", " forms).toList ++
      if forms.length = 1 then [',', ')'] else [')']) := by
  match forms with
  | [] => rfl
  | [form] => simp [tupleText, joinWith]
  | form :: next :: rest => simp [tupleText]

theorem renderItems_eq_map (items : List Datum) : renderItems items = items.map render := by
  induction items with
  | nil => rfl
  | cons x items ih => rw [renderItems, ih, List.map_cons]

theorem renderEntries_eq_map (entries : List (Datum × Datum)) :
    renderEntries entries = entries.map renderEntry := by
  induction entries with
  | nil => rfl
  | cons e entries ih => rw [renderEntries, ih, List.map_cons]

theorem isTold_of_areTold {items : List Datum} (h : areTold items = true) :
    ∀ x ∈ items, isTold x = true := by
  induction items with
  | nil => simp
  | cons y items ih =>
      rw [areTold, Bool.and_eq_true] at h
      exact List.forall_mem_cons.2 ⟨h.1, ih h.2⟩

theorem isToldEntry_of_areToldEntries {entries : List (Datum × Datum)}
    (h : areToldEntries entries = true) : ∀ e ∈ entries, isToldEntry e = true := by
  induction entries with
  | nil => simp
  | cons f entries ih =>
      rw [areToldEntries, Bool.and_eq_true] at h
      exact List.forall_mem_cons.2 ⟨h.1, ih h.2⟩

theorem toList_render_list (items : List Datum) :
    (render (.list items)).toList =
      '[' :: ((joinWith ", " (items.map render)).toList ++ [']']) := by
  change ("[" ++ joinWith ", " (renderItems items) ++ "]").toList = _
  rw [renderItems_eq_map, String.toList_append, String.toList_append]
  rfl

theorem render_tuple (items : List Datum) : render (.tuple items) = tupleText (items.map render) :=
  congrArg tupleText (renderItems_eq_map items)

theorem toList_render_dict (entries : List (Datum × Datum)) :
    (render (.dict entries)).toList =
      '\x7b' :: ((joinWith ", " (entries.map renderEntry)).toList ++ ['\x7d']) := by
  change ("\x7b" ++ joinWith ", " (renderEntries entries) ++ "\x7d").toList = _
  rw [renderEntries_eq_map, String.toList_append, String.toList_append]
  rfl

/-- The first character of a written form tells the kind. -/
theorem exists_head_render {d : Datum} (h : isTold d = true) :
    ∃ c cs, (render d).toList = c :: cs ∧ kindOfHead c = kindNumber d := by
  cases d with
  | null => exact ⟨_, _, rfl, rfl⟩
  | bool b => cases b <;> exact ⟨_, _, rfl, rfl⟩
  | int n =>
      change ∃ c cs, (intText n).toList = c :: cs ∧ kindOfHead c = 2
      rw [toList_intText]
      split
      · exact ⟨_, _, rfl, rfl⟩
      · obtain ⟨c, cs, hc, hdigit⟩ := exists_head_natText n.natAbs
        exact ⟨c, cs, hc, kindOfHead_of_isDigit hdigit⟩
  | text s =>
      change ∃ c cs, (Text.quote s).toList = c :: cs ∧ kindOfHead c = 3
      rw [Text.toList_quote]
      refine ⟨_, _, rfl, ?_⟩
      rcases Text.quoteFor_eq s.toList with hmark | hmark <;> rw [hmark] <;> rfl
  | list items => exact ⟨_, _, toList_render_list items, rfl⟩
  | tuple items =>
      rw [render_tuple, toList_tupleText]
      exact ⟨'(', _, rfl, rfl⟩
  | dict entries => exact ⟨_, _, toList_render_dict entries, rfl⟩
  | real x => exact absurd h (by simp [isTold])
  | production number lhs rhs => exact absurd h (by simp [isTold])
  | set frozen members => exact absurd h (by simp [isTold])
  | grammar lines archive => exact absurd h (by simp [isTold])
  | file text => exact absurd h (by simp [isTold])

/-- Values with the same written form in front are of the same kind. -/
theorem kindNumber_eq {d d' : Datum} (hd : isTold d = true) (hd' : isTold d' = true)
    {r r' : List Char} (h : (render d).toList ++ r = (render d').toList ++ r') :
    kindNumber d = kindNumber d' := by
  obtain ⟨c, cs, hc, hkind⟩ := exists_head_render hd
  obtain ⟨c', cs', hc', hkind'⟩ := exists_head_render hd'
  rw [hc, hc'] at h
  obtain ⟨rfl, -⟩ := List.cons.inj h
  exact hkind.symm.trans hkind'

/-- A character that closes a collection. -/
def Closes (z : Char) : Prop := z = ']' ∨ z = ')' ∨ z = '\x7d'

theorem Closes.ne_comma {z : Char} (hz : Closes z) : z ≠ ',' := by
  rcases hz with rfl | rfl | rfl <;> decide

theorem Closes.noDigitNext {z : Char} (hz : Closes z) (r : List Char) : NoDigitNext (z :: r) := by
  apply noDigitNext_cons
  rcases hz with rfl | rfl | rfl <;> decide

/-- No written form begins with a character that closes a collection. -/
theorem Closes.not_head {z : Char} (hz : Closes z) {d : Datum} (hd : isTold d = true)
    (r r' : List Char) : z :: r ≠ (render d).toList ++ r' := by
  intro h
  obtain ⟨c, cs, hc, hkind⟩ := exists_head_render hd
  rw [hc] at h
  obtain ⟨rfl, -⟩ := List.cons.inj h
  -- no kind of value has the number of a closing character
  have hclose : kindOfHead z = 8 := by
    rcases hz with rfl | rfl | rfl <;> decide
  rw [hclose] at hkind
  cases d <;> simp [kindNumber] at hkind

theorem noDigitNext_tailForm (forms : List String) {r : List Char} (h : NoDigitNext r) :
    NoDigitNext (tailForm forms ++ r) := by
  cases forms with
  | nil => exact h
  | cons form forms => exact noDigitNext_cons (by decide)

/-! ### Collections -/

section Collections

variable {α : Type} {form : α → String} {known : α → Bool} {z : Char}

/-- The form of `x` tells it from the known ones, and where it ends, if no digit follows. -/
def Tells (form : α → String) (known : α → Bool) (x : α) : Prop :=
  ∀ ⦃y : α⦄ ⦃r r' : List Char⦄, known y = true → NoDigitNext r → NoDigitNext r' →
    (form x).toList ++ r = (form y).toList ++ r' → x = y ∧ r = r'

/-- What comes after the first item is known up to the character that closes the collection. -/
theorem eq_of_tailForm (hz : Closes z) {xs ys : List α} (tells : ∀ x ∈ xs, Tells form known x)
    (hys : ∀ y ∈ ys, known y = true) {r r' : List Char}
    (h : tailForm (xs.map form) ++ z :: r = tailForm (ys.map form) ++ z :: r') :
    xs = ys ∧ r = r' := by
  induction xs generalizing ys with
  | nil =>
      cases ys with
      | nil => exact ⟨rfl, (List.cons.inj h).2⟩
      | cons y ys =>
          -- a comma says that an item follows
          exact absurd (List.cons.inj h).1 hz.ne_comma
  | cons x xs ih =>
      cases ys with
      | nil => exact absurd (List.cons.inj h).1.symm hz.ne_comma
      | cons y ys =>
          rw [List.map_cons, List.map_cons, tailForm, tailForm, List.flatMap_cons,
            List.flatMap_cons, ← tailForm, ← tailForm] at h
          simp only [List.cons_append, List.append_assoc, List.cons.injEq, true_and] at h
          obtain ⟨rfl, htail⟩ := tells x List.mem_cons_self (hys y List.mem_cons_self)
            (noDigitNext_tailForm _ (hz.noDigitNext r))
            (noDigitNext_tailForm _ (hz.noDigitNext r')) h
          obtain ⟨rfl, hrest⟩ := ih (fun x hx => tells x (List.mem_cons_of_mem _ hx))
            (fun y hy => hys y (List.mem_cons_of_mem _ hy)) htail
          exact ⟨rfl, hrest⟩

/-- Items are known up to the character that closes the collection, which begins no item. -/
theorem eq_of_joinWith (hz : Closes z)
    (head : ∀ x, known x = true → ∀ r r', z :: r ≠ (form x).toList ++ r') {xs ys : List α}
    (tells : ∀ x ∈ xs, Tells form known x) (hxs : ∀ x ∈ xs, known x = true)
    (hys : ∀ y ∈ ys, known y = true) {r r' : List Char}
    (h : (joinWith ", " (xs.map form)).toList ++ z :: r =
      (joinWith ", " (ys.map form)).toList ++ z :: r') : xs = ys ∧ r = r' := by
  cases xs with
  | nil =>
      cases ys with
      | nil => exact ⟨rfl, (List.cons.inj h).2⟩
      | cons y ys =>
          rw [List.map_cons, toList_joinWith_cons, List.append_assoc] at h
          exact absurd h (head y (hys y List.mem_cons_self) _ _)
  | cons x xs =>
      cases ys with
      | nil =>
          rw [List.map_cons, toList_joinWith_cons, List.append_assoc] at h
          exact absurd h.symm (head x (hxs x List.mem_cons_self) _ _)
      | cons y ys =>
          -- the first items are told apart, then the tails from comma to comma
          rw [List.map_cons, List.map_cons, toList_joinWith_cons, toList_joinWith_cons,
            List.append_assoc, List.append_assoc] at h
          obtain ⟨rfl, htail⟩ := tells x List.mem_cons_self (hys y List.mem_cons_self)
            (noDigitNext_tailForm _ (hz.noDigitNext r))
            (noDigitNext_tailForm _ (hz.noDigitNext r')) h
          obtain ⟨rfl, hrest⟩ := eq_of_tailForm hz
            (fun x hx => tells x (List.mem_cons_of_mem _ hx))
            (fun y hy => hys y (List.mem_cons_of_mem _ hy)) htail
          exact ⟨rfl, hrest⟩

/-- The items of a tuple are known, though it is closed in another way if there is only one. -/
theorem eq_of_tupleText
    (head : ∀ x, known x = true → ∀ r r', ')' :: r ≠ (form x).toList ++ r') {xs ys : List α}
    (tells : ∀ x ∈ xs, Tells form known x) (hxs : ∀ x ∈ xs, known x = true)
    (hys : ∀ y ∈ ys, known y = true) {r r' : List Char}
    (h : (tupleText (xs.map form)).toList ++ r = (tupleText (ys.map form)).toList ++ r') :
    xs = ys ∧ r = r' := by
  have close : Closes ')' := .inr (.inl rfl)
  simp only [toList_tupleText, List.length_map, List.cons_append, List.append_assoc,
    List.cons.injEq, true_and] at h
  have next : ∀ (zs : List α) (t : List Char), NoDigitNext
      (tailForm (zs.map form) ++ ((if (zs.length + 1) = 1 then [',', ')'] else [')']) ++ t)) := by
    intro zs t
    apply noDigitNext_tailForm _
    split
    · exact noDigitNext_cons (by decide)
    · exact close.noDigitNext t
  cases xs with
  | nil =>
      cases ys with
      | nil => exact ⟨rfl, (List.cons.inj h).2⟩
      | cons y ys =>
          rw [List.map_cons, toList_joinWith_cons, List.append_assoc] at h
          exact absurd h (head y (hys y List.mem_cons_self) _ _)
  | cons x xs =>
      cases ys with
      | nil =>
          rw [List.map_cons, toList_joinWith_cons, List.append_assoc] at h
          exact absurd h.symm (head x (hxs x List.mem_cons_self) _ _)
      | cons y ys =>
          rw [List.map_cons, List.map_cons, toList_joinWith_cons, toList_joinWith_cons,
            List.append_assoc, List.append_assoc] at h
          obtain ⟨rfl, htail⟩ := tells x List.mem_cons_self (hys y List.mem_cons_self)
            (next xs r) (next ys r') h
          cases xs with
          | nil =>
              cases ys with
              | nil => exact ⟨rfl, (List.cons.inj (List.cons.inj htail).2).2⟩
              | cons y ys =>
                  -- the comma of a single item is followed by the end, that of others by a blank
                  exact absurd (List.cons.inj (List.cons.inj htail).2).1 (by decide)
          | cons x' xs =>
              cases ys with
              | nil => exact absurd (List.cons.inj (List.cons.inj htail).2).1 (by decide)
              | cons y ys =>
                  obtain ⟨hitems, hrest⟩ := eq_of_tailForm close
                    (fun x hx => tells x (List.mem_cons_of_mem _ hx))
                    (fun y hy => hys y (List.mem_cons_of_mem _ hy)) htail
                  rw [hitems]
                  exact ⟨rfl, hrest⟩

end Collections

theorem toList_renderEntry (k v : Datum) :
    (renderEntry (k, v)).toList = (render k).toList ++ ':' :: ' ' :: (render v).toList := by
  rw [renderEntry, String.toList_append, String.toList_append, List.append_assoc]
  rfl

theorem tells_renderEntry {k v : Datum} (hk : Tells render isTold k) (hv : Tells render isTold v) :
    Tells renderEntry isToldEntry (k, v) := by
  rintro ⟨l, w⟩ r r' hy hr hr' h
  rw [isToldEntry, Bool.and_eq_true] at hy
  simp only [toList_renderEntry, List.append_assoc, List.cons_append] at h
  obtain ⟨rfl, hvalue⟩ := hk hy.1 (noDigitNext_cons (by decide)) (noDigitNext_cons (by decide)) h
  simp only [List.cons.injEq, true_and] at hvalue
  obtain ⟨rfl, hrest⟩ := hv hy.2 hr hr' hvalue
  exact ⟨rfl, hrest⟩

theorem sizeOf_lt_of_mem {k v : Datum} {entries : List (Datum × Datum)} (h : (k, v) ∈ entries) :
    sizeOf k < sizeOf entries ∧ sizeOf v < sizeOf entries := by
  have hsize := List.sizeOf_lt_of_mem h
  simp only [Prod.mk.sizeOf_spec] at hsize
  constructor <;> omega

/-- No entry begins with a character that closes a collection. -/
theorem Closes.not_head_entry {z : Char} (hz : Closes z) {e : Datum × Datum}
    (he : isToldEntry e = true) (r r' : List Char) : z :: r ≠ (renderEntry e).toList ++ r' := by
  obtain ⟨k, v⟩ := e
  rw [isToldEntry, Bool.and_eq_true] at he
  rw [toList_renderEntry, List.append_assoc]
  exact hz.not_head he.1 r _

/-! ## Values of each kind -/

theorem tells_null : Tells render isTold .null := by
  intro d' r r' hd' hr hr' h
  have hkind := kindNumber_eq rfl hd' h
  cases d' with
  | null => exact ⟨rfl, List.append_cancel_left h⟩
  | _ => exact absurd hkind (by simp [kindNumber])

theorem tells_bool (b : Bool) : Tells render isTold (.bool b) := by
  intro d' r r' hd' hr hr' h
  have hkind := kindNumber_eq rfl hd' h
  cases d' with
  | bool b' =>
      cases b <;> cases b'
      · exact ⟨rfl, List.append_cancel_left h⟩
      · exact absurd (List.cons.inj h).1 (by decide)
      · exact absurd (List.cons.inj h).1 (by decide)
      · exact ⟨rfl, List.append_cancel_left h⟩
  | _ => exact absurd hkind (by simp [kindNumber])

theorem tells_int (n : Int) : Tells render isTold (.int n) := by
  intro d' r r' hd' hr hr' h
  have hkind := kindNumber_eq rfl hd' h
  cases d' with
  | int m =>
      obtain ⟨rfl, hrest⟩ := eq_of_intText hr hr' h
      exact ⟨rfl, hrest⟩
  | _ => exact absurd hkind (by simp [kindNumber])

theorem tells_text (s : String) : Tells render isTold (.text s) := by
  intro d' r r' hd' hr hr' h
  have hkind := kindNumber_eq rfl hd' h
  cases d' with
  | text t =>
      obtain ⟨rfl, hrest⟩ := Text.eq_of_quote h
      exact ⟨rfl, hrest⟩
  | _ => exact absurd hkind (by simp [kindNumber])

theorem tells_list {items : List Datum} (hd : isTold (.list items) = true)
    (tells : ∀ x ∈ items, Tells render isTold x) : Tells render isTold (.list items) := by
  intro d' r r' hd' hr hr' h
  have hkind := kindNumber_eq hd hd' h
  cases d' with
  | list items' =>
      have close : Closes ']' := .inl rfl
      simp only [toList_render_list, List.cons_append, List.append_assoc, List.cons.injEq,
        true_and] at h
      obtain ⟨rfl, hrest⟩ := eq_of_joinWith close (fun x hx => close.not_head hx) tells
        (isTold_of_areTold hd) (isTold_of_areTold hd') h
      exact ⟨rfl, hrest⟩
  | _ => exact absurd hkind (by simp [kindNumber])

theorem tells_tuple {items : List Datum} (hd : isTold (.tuple items) = true)
    (tells : ∀ x ∈ items, Tells render isTold x) : Tells render isTold (.tuple items) := by
  intro d' r r' hd' hr hr' h
  have hkind := kindNumber_eq hd hd' h
  cases d' with
  | tuple items' =>
      have close : Closes ')' := .inr (.inl rfl)
      simp only [render_tuple] at h
      obtain ⟨rfl, hrest⟩ := eq_of_tupleText (fun x hx => close.not_head hx) tells
        (isTold_of_areTold hd) (isTold_of_areTold hd') h
      exact ⟨rfl, hrest⟩
  | _ => exact absurd hkind (by simp [kindNumber])

theorem tells_dict {entries : List (Datum × Datum)} (hd : isTold (.dict entries) = true)
    (tells : ∀ e ∈ entries, Tells renderEntry isToldEntry e) :
    Tells render isTold (.dict entries) := by
  intro d' r r' hd' hr hr' h
  have hkind := kindNumber_eq hd hd' h
  cases d' with
  | dict entries' =>
      have close : Closes '\x7d' := .inr (.inr rfl)
      simp only [toList_render_dict, List.cons_append, List.append_assoc, List.cons.injEq,
        true_and] at h
      obtain ⟨rfl, hrest⟩ := eq_of_joinWith close (fun e he => close.not_head_entry he) tells
        (isToldEntry_of_areToldEntries hd) (isToldEntry_of_areToldEntries hd') h
      exact ⟨rfl, hrest⟩
  | _ => exact absurd hkind (by simp [kindNumber])

/-- A value and what follows it are known by the written form of the value, if no digit follows. -/
theorem eq_of_render : ∀ d : Datum, isTold d = true → Tells render isTold d
  | .null, _ => tells_null
  | .bool b, _ => tells_bool b
  | .int n, _ => tells_int n
  | .text s, _ => tells_text s
  | .list items, hd =>
      tells_list hd fun x hx => eq_of_render x (isTold_of_areTold hd x hx)
  | .tuple items, hd =>
      tells_tuple hd fun x hx => eq_of_render x (isTold_of_areTold hd x hx)
  | .dict entries, hd => by
      apply tells_dict hd
      rintro ⟨k, v⟩ he
      have hentry := isToldEntry_of_areToldEntries hd (k, v) he
      rw [isToldEntry, Bool.and_eq_true] at hentry
      obtain ⟨hkey, hvalue⟩ := sizeOf_lt_of_mem he
      exact tells_renderEntry (eq_of_render k hentry.1) (eq_of_render v hentry.2)
  | .real _, hd | .set _ _, hd | .production _ _ _, hd | .grammar _ _, hd | .file _, hd =>
      absurd hd (by simp [isTold])
termination_by d => sizeOf d

end Datum

end Predictive
