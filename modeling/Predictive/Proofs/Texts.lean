import Predictive.Grammar.RuleLine
import Mathlib.Data.List.TakeWhile

/-!
# Words and lines

A blank ends a word, so the words of two texts with a blank between them are those of the first and
then those of the second (`Text.words_append_blank`). Together with the words of a text without blanks
this says all about words, and `Text.words_induction` goes through a text in this way, word by word.

The lines of a notation are read without the blanks around them and without those that are nothing but
blanks (`RuleLine.map_numberFrom`).
-/

set_option autoImplicit false

namespace Predictive

namespace Text

variable {b c : Char} {cs ds : List Char}

/-! ## Texts as characters -/

theorem map_toList_ofList (css : List (List Char)) :
    (css.map String.ofList).map String.toList = css := by
  simp [Function.comp_def]

theorem map_ofList_toList (ss : List String) : (ss.map String.toList).map String.ofList = ss := by
  simp [Function.comp_def]

/-! ## Words -/

/-- No character of the text is blank. -/
def Visible (cs : List Char) : Prop := ∀ c ∈ cs, isBlank c = false

theorem visible_cons : Visible (c :: cs) ↔ isBlank c = false ∧ Visible cs := by
  simp [Visible]

@[simp] theorem words_nil : words [] = [] := rfl

theorem words_cons_blank (h : isBlank c = true) (cs : List Char) : words (c :: cs) = words cs := by
  rw [words.eq_def]
  simp only [h, if_true]

theorem words_singleton (h : isBlank c = false) : words [c] = [[c]] := by
  rw [words.eq_def]
  simp only [h, Bool.false_eq_true, if_false]
  rfl

/-- A character before a blank is the last one of its word. -/
theorem words_cons_cons_blank (hc : isBlank c = false) (hb : isBlank b = true) (cs : List Char) :
    words (c :: b :: cs) = [c] :: words (b :: cs) := by
  rw [words.eq_def]
  simp only [hc, Bool.false_eq_true, if_false]
  cases words (b :: cs) <;> simp only [hb, if_true]

/-- A character before another one belongs to the same word. -/
theorem words_cons_cons {d : Char} {w : List Char} {ws : List (List Char)} (hc : isBlank c = false)
    (hd : isBlank d = false) (h : words (d :: cs) = w :: ws) :
    words (c :: d :: cs) = (c :: w) :: ws := by
  rw [words.eq_def]
  simp only [hc, h, hd, Bool.false_eq_true, if_false]

theorem words_ne_nil (h : isBlank c = false) (cs : List Char) : words (c :: cs) ≠ [] := by
  rw [words.eq_def]
  simp only [h, Bool.false_eq_true, if_false]
  split
  · split <;> simp
  · simp

/-- What stands behind a blank begins a new word. -/
theorem words_append_blank (h : isBlank b = true) (cs ds : List Char) :
    words (cs ++ b :: ds) = words cs ++ words ds := by
  induction cs with
  | nil => exact words_cons_blank h ds
  | cons c cs ih =>
      rw [List.cons_append]
      cases hc : isBlank c with
      | true => rw [words_cons_blank hc, words_cons_blank hc, ih]
      | false =>
          cases cs with
          | nil =>
              rw [List.nil_append, words_cons_cons_blank hc h, words_cons_blank h, words_singleton hc]
              rfl
          | cons d cs =>
              rw [List.cons_append] at ih ⊢
              cases hd : isBlank d with
              | true => rw [words_cons_cons_blank hc hd, words_cons_cons_blank hc hd, ih]; rfl
              | false =>
                  obtain ⟨w, ws, hw⟩ := List.exists_cons_of_ne_nil (words_ne_nil hd cs)
                  rw [hw, List.cons_append] at ih
                  rw [words_cons_cons hc hd hw, words_cons_cons hc hd ih, List.cons_append]

/-- A text without blanks is one word. -/
theorem words_of_visible (hne : cs ≠ []) (h : Visible cs) : words cs = [cs] := by
  induction cs with
  | nil => exact absurd rfl hne
  | cons c cs ih =>
      obtain ⟨hc, hcs⟩ := visible_cons.1 h
      cases cs with
      | nil => exact words_singleton hc
      | cons d cs => exact words_cons_cons hc (visible_cons.1 hcs).1 (ih (by simp) hcs)

/-- A text is empty, or it begins with a blank, or with a word that a blank or the end of the text
follows. -/
theorem words_induction {motive : List Char → Prop} (nil : motive [])
    (blank : ∀ b cs, isBlank b = true → motive cs → motive (b :: cs))
    (last : ∀ w, w ≠ [] → Visible w → motive w)
    (word : ∀ w b cs, w ≠ [] → Visible w → isBlank b = true → motive cs → motive (w ++ b :: cs))
    (cs : List Char) : motive cs := by
  induction hn : cs.length using Nat.strongRecOn generalizing cs with
  | ind n ih =>
      cases cs with
      | nil => exact nil
      | cons c cs =>
          by_cases hc : isBlank c = true
          · exact blank c cs hc (ih cs.length (by simp [← hn]) cs rfl)
          · -- the word goes on up to the first blank
            obtain ⟨w, rest, hw, hcs, hrest⟩ : ∃ w rest, Visible w ∧ cs = w ++ rest ∧
                ∀ b ∈ rest.head?, isBlank b = true := by
              refine ⟨cs.takeWhile (!isBlank ·), cs.dropWhile (!isBlank ·), ?_, ?_, ?_⟩
              · intro d hd
                simpa using List.mem_takeWhile_imp hd
              · rw [List.takeWhile_append_dropWhile]
              · intro b hb
                have hnot := List.head?_dropWhile_not (!isBlank ·) cs
                rw [Option.mem_def] at hb
                rw [hb] at hnot
                simpa using hnot
            have hvisible : Visible (c :: w) := visible_cons.2 ⟨by simpa using hc, hw⟩
            subst hcs
            cases rest with
            | nil =>
                rw [List.append_nil]
                exact last (c :: w) (by simp) hvisible
            | cons b rest =>
                have hlength : rest.length < n := by
                  rw [← hn]
                  simp only [List.length_cons, List.length_append]
                  omega
                exact word (c :: w) b rest (by simp) hvisible (hrest b rfl)
                  (ih rest.length hlength rest rfl)

/-- A word holds something, and no blanks. -/
theorem visible_of_mem_words {w : List Char} (h : w ∈ words cs) : w ≠ [] ∧ Visible w := by
  induction cs using words_induction with
  | nil => exact absurd h (by simp)
  | blank b cs hb ih =>
      rw [words_cons_blank hb] at h
      exact ih h
  | last v hne hv =>
      rw [words_of_visible hne hv, List.mem_singleton] at h
      rw [h]
      exact ⟨hne, hv⟩
  | word v b cs hne hv hb ih =>
      rw [words_append_blank hb, words_of_visible hne hv, List.singleton_append, List.mem_cons] at h
      rcases h with rfl | h
      · exact ⟨hne, hv⟩
      · exact ih h

/-! ## Blanks at the ends -/

theorem dropBlanks_of_head (h : ∀ c ∈ cs.head?, isBlank c = false) : dropBlanks cs = cs := by
  cases cs with
  | nil => rfl
  | cons c cs => rw [dropBlanks, List.dropWhile_cons, if_neg (by simp [h c rfl])]

/-- A text without blanks at its ends stays as it is. -/
theorem strip_eq_self (first : ∀ c ∈ cs.head?, isBlank c = false)
    (last : ∀ c ∈ cs.getLast?, isBlank c = false) : strip cs = cs := by
  rw [strip, dropBlanks_of_head first, dropBlanks_of_head, List.reverse_reverse]
  rw [List.head?_reverse]
  exact last

theorem dropBlanks_append {gap : List Char} (h : ∀ b ∈ gap, isBlank b = true) (cs : List Char) :
    dropBlanks (gap ++ cs) = dropBlanks cs :=
  List.dropWhile_append_of_pos h

theorem dropBlanks_concat (h : isBlank c = false) (cs : List Char) :
    dropBlanks (cs ++ [c]) = dropBlanks cs ++ [c] := by
  have hlast : [c].dropWhile isBlank = [c] := by rw [List.dropWhile_cons, if_neg (by simp [h])]
  rw [dropBlanks, dropBlanks, List.dropWhile_append, hlast]
  cases cs.dropWhile isBlank <;> rfl

/-- The blanks around a text without blanks at its ends are dropped. -/
theorem strip_surrounded {lead trail : List Char} (hlead : ∀ b ∈ lead, isBlank b = true)
    (htrail : ∀ b ∈ trail, isBlank b = true) (first : ∀ c ∈ cs.head?, isBlank c = false)
    (last : ∀ c ∈ cs.getLast?, isBlank c = false) : strip (lead ++ cs ++ trail) = cs := by
  have hback : ∀ b ∈ trail.reverse, isBlank b = true := fun b hb => htrail b (List.mem_reverse.1 hb)
  rw [strip, List.append_assoc, dropBlanks_append hlead]
  cases cs with
  | nil =>
      have hnone : dropBlanks trail = [] := List.dropWhile_eq_nil_iff.2 htrail
      rw [List.nil_append, hnone]
      rfl
  | cons c cs =>
      have hfront : dropBlanks (c :: cs ++ trail) = c :: cs ++ trail := dropBlanks_of_head first
      rw [hfront, List.reverse_append, dropBlanks_append hback, dropBlanks_of_head,
        List.reverse_reverse]
      rw [List.head?_reverse]
      exact last

/-- A text whose first blanks are dropped begins with none. -/
theorem head_dropBlanks (cs : List Char) : ∀ c ∈ (dropBlanks cs).head?, isBlank c = false := by
  intro c hc
  have hhead := List.head?_dropWhile_not isBlank cs
  rw [Option.mem_def] at hc
  rw [← dropBlanks, hc] at hhead
  simpa using hhead

/-- A stripped text has no blanks at its ends. -/
theorem ends_strip (cs : List Char) :
    (∀ c ∈ (strip cs).head?, isBlank c = false) ∧ ∀ c ∈ (strip cs).getLast?, isBlank c = false := by
  constructor
  · -- its first character is that of the text without the blanks at the front
    obtain ⟨trail, htrail⟩ := List.dropWhile_suffix (l := (dropBlanks cs).reverse) isBlank
    have hfront : dropBlanks cs = strip cs ++ trail.reverse := by
      rw [strip, ← List.reverse_append, dropBlanks.eq_def (dropBlanks cs).reverse, htrail,
        List.reverse_reverse]
    intro c hc
    refine head_dropBlanks cs c ?_
    rw [hfront, List.head?_append, hc, Option.some_or]
    rfl
  · intro c hc
    rw [strip, List.getLast?_reverse] at hc
    exact head_dropBlanks _ c hc

theorem mem_of_mem_strip (h : c ∈ strip cs) : c ∈ cs := by
  rw [strip, List.mem_reverse] at h
  have inner := (List.dropWhile_sublist isBlank).subset h
  rw [List.mem_reverse] at inner
  exact (List.dropWhile_sublist isBlank).subset inner

/-! ## Lines -/

theorem lines_of_not_mem (h : '\n' ∉ cs) : lines cs = [cs] := by
  induction cs with
  | nil => rfl
  | cons c cs ih =>
      rcases not_or.1 (mt List.mem_cons.2 h) with ⟨hc, hcs⟩
      rw [lines, ih hcs]
      simp only [if_neg (Ne.symm hc)]

theorem lines_append_feed (h : '\n' ∉ cs) (ds : List Char) :
    lines (cs ++ '\n' :: ds) = cs :: lines ds := by
  induction cs with
  | nil =>
      obtain ⟨l, ls, hlines⟩ := List.exists_cons_of_ne_nil (lines_ne_nil ds)
      rw [List.nil_append, lines, hlines]
      simp only [if_true]
  | cons c cs ih =>
      rcases not_or.1 (mt List.mem_cons.2 h) with ⟨hc, hcs⟩
      rw [List.cons_append, lines, ih hcs]
      simp only [if_neg (Ne.symm hc)]

/-- The lines of joined lines are these lines. -/
theorem lines_unlines {ls : List (List Char)} (hne : ls ≠ []) (h : ∀ l ∈ ls, '\n' ∉ l) :
    lines (unlines ls) = ls := by
  induction ls with
  | nil => exact absurd rfl hne
  | cons l ls ih =>
      cases ls with
      | nil => exact lines_of_not_mem (h l List.mem_cons_self)
      | cons m ls =>
          have hrest : ∀ l' ∈ m :: ls, '\n' ∉ l' := fun l' hl' => h l' (List.mem_cons_of_mem l hl')
          rw [unlines, lines_append_feed (h l List.mem_cons_self), ih (by simp) hrest]
          exact List.cons_ne_nil m ls

theorem not_mem_of_mem_lines {l : List Char} (h : l ∈ lines cs) : '\n' ∉ l := by
  induction cs generalizing l with
  | nil =>
      rw [lines, List.mem_singleton] at h
      simp [h]
  | cons c cs ih =>
      obtain ⟨m, ms, hlines⟩ := List.exists_cons_of_ne_nil (lines_ne_nil cs)
      rw [lines, hlines] at h
      rw [hlines] at ih
      by_cases hc : c = '\n'
      · simp only [if_pos hc] at h
        rcases List.mem_cons.1 h with rfl | h
        · simp
        · exact ih h
      · simp only [if_neg hc] at h
        rcases List.mem_cons.1 h with rfl | h
        · rw [List.mem_cons]
          rintro (hfeed | hmem)
          · exact hc hfeed.symm
          · exact ih List.mem_cons_self hmem
        · exact ih (List.mem_cons_of_mem m h)

theorem unlines_eq_intercalate (ls : List (List Char)) : unlines ls = ['\n'].intercalate ls := by
  induction ls with
  | nil => rfl
  | cons l ls ih =>
      cases ls with
      | nil => simp [unlines]
      | cons m ls =>
          rw [unlines, ih, List.intercalate_cons_cons, List.append_assoc]
          · rfl
          · exact List.cons_ne_nil m ls

/-- Texts that are joined with line feeds are the lines of a text. -/
theorem toList_joinWith_feed (ss : List String) :
    (Datum.joinWith "\n" ss).toList = unlines (ss.map String.toList) := by
  rw [unlines_eq_intercalate, Datum.joinWith, String.toList_intercalate]
  rfl

end Text

/-! ## Lines of a notation -/

namespace RuleLine

/-- The lines that hold something, without the blanks at their ends. -/
def visibleLines (lines : List (List Char)) : List (List Char) :=
  (lines.map Text.strip).filter (· ≠ [])

theorem visibleLines_cons (line : List Char) (lines : List (List Char)) :
    visibleLines (line :: lines) =
      if Text.strip line = [] then visibleLines lines
      else Text.strip line :: visibleLines lines := by
  simp only [visibleLines, List.map_cons, List.filter_cons, decide_eq_true_eq, ite_not]

theorem visibleLines_append (lines more : List (List Char)) :
    visibleLines (lines ++ more) = visibleLines lines ++ visibleLines more := by
  rw [visibleLines, List.map_append, List.filter_append]
  rfl

theorem visibleLines_eq_nil_iff {lines : List (List Char)} :
    visibleLines lines = [] ↔ ∀ l ∈ lines, Text.strip l = [] := by
  simp [visibleLines]

/-- These are the lines that are read. -/
theorem map_numberFrom (first : Nat) (lines : List (List Char)) :
    (numberFrom first lines).map (·.2) = visibleLines lines := by
  induction lines generalizing first with
  | nil => rfl
  | cons line lines ih =>
      rw [visibleLines_cons, numberFrom]
      by_cases h : Text.strip line = []
      · simp only [h, if_true, ih]
      · simp only [h, if_false, List.map_cons, ih]

/-- The lines of a text of joined lines hold what these lines hold. -/
theorem visibleLines_unlines {ls : List (List Char)} (h : ∀ l ∈ ls, '\n' ∉ l) :
    visibleLines (Text.lines (Text.unlines ls)) = visibleLines ls := by
  cases ls with
  | nil => rfl
  | cons l ls => rw [Text.lines_unlines (List.cons_ne_nil l ls) h]

end RuleLine

end Predictive
