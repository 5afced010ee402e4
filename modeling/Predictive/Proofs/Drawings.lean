import Predictive.Drawing
import Predictive.Proofs.Texts
import Predictive.Text.Slice
import Mathlib.Data.List.DropRight
import Mathlib.Data.List.Forall2

/-!
# Drawn tables can be read

A drawn table has a border above the head, below it and below every row. Its columns are as wide as their
widest cells (`Drawing.Widest`), and the separators stand at the same places in all lines
(`Drawing.Ruled`): `Drawing.mark` says at which ones, by the widths of the columns alone.

The cells may hold any characters of the drawing themselves, so a separator cannot be told by looking at
a line of cells. But a border holds nothing except crosses and dashes, so it shows the widths, and these say
where every cell begins (`Drawing.read`). In this way all cells are read back, up to the blanks at their
ends, which look like those that a cell is filled up with (`Drawing.draw_lossless`).
-/

set_option autoImplicit false

namespace Predictive.Drawing

/-! ## Widths of columns -/

/-- Each column is as wide as its widest cell. -/
def Widest (table : List (List Cell)) (widths : List Nat) : Prop :=
  ∀ (j w : Nat), widths[j]? = some w →
    (∀ row ∈ table, ∀ cell : Cell, row[j]? = some cell → cell.length ≤ w) ∧
      ∃ row ∈ table, ∃ cell : Cell, row[j]? = some cell ∧ cell.length = w

/-- A row with a cell in every column widens the columns to its cells. -/
theorem widen_eq {widths : List Nat} {row : List Cell} (filled : row.length = widths.length) :
    widen widths row = some (List.zipWith (fun w cell => max w cell.length) widths row) := by
  induction widths generalizing row with
  | nil => rfl
  | cons w widths ih =>
      cases row with
      | nil => exact absurd filled (by simp)
      | cons cell row =>
          rw [widen, ih (by simpa using filled)]
          rfl

theorem Widest.of_head (head : List Cell) : Widest [head] (head.map List.length) := by
  intro j w hw
  rw [List.getElem?_map, Option.map_eq_some_iff] at hw
  obtain ⟨cell, hcell, rfl⟩ := hw
  refine ⟨?_, head, List.mem_singleton.2 rfl, cell, hcell, rfl⟩
  intro row hrow other hother
  rw [List.mem_singleton.1 hrow, hcell] at hother
  rw [Option.some.inj hother]

/-- One more row: a column stays as it is, or the cell of the row is its widest one. -/
theorem Widest.concat {table : List (List Cell)} {widths : List Nat} (h : Widest table widths)
    (row : List Cell) :
    Widest (table ++ [row]) (List.zipWith (fun w cell => max w cell.length) widths row) := by
  intro j w hw
  rw [List.getElem?_zipWith_eq_some] at hw
  obtain ⟨old, cell, hold, hcell, rfl⟩ := hw
  obtain ⟨bound, widest, hwidest, reached⟩ := h j old hold
  constructor
  · intro r hr c hc
    rcases List.mem_append.1 hr with hr | hr
    · exact (bound r hr c hc).trans (Nat.le_max_left _ _)
    · rw [List.mem_singleton.1 hr, hcell] at hc
      rw [← Option.some.inj hc]
      exact Nat.le_max_right _ _
  · -- the greater one of the two was reached by the new row or by an older one
    rcases Nat.le_total old cell.length with hle | hle
    · refine ⟨row, by simp, cell, hcell, ?_⟩
      exact (Nat.max_eq_right hle).symm
    · obtain ⟨c, hc, hlength⟩ := reached
      refine ⟨widest, List.mem_append_left _ hwidest, c, hc, ?_⟩
      rw [hlength, Nat.max_eq_left hle]

theorem Widest.widenAll {table rows : List (List Cell)} {widths : List Nat} (h : Widest table widths)
    (filled : ∀ row ∈ rows, row.length = widths.length) :
    ∃ all, Drawing.widenAll widths rows = some all ∧ Widest (table ++ rows) all ∧
      all.length = widths.length := by
  induction rows generalizing table widths with
  | nil => exact ⟨widths, rfl, by rwa [List.append_nil], rfl⟩
  | cons row rows ih =>
      obtain ⟨hrow, hrows⟩ := List.forall_mem_cons.1 filled
      have same : (List.zipWith (fun w (cell : Cell) => max w cell.length) widths row).length =
          widths.length := by
        rw [List.length_zipWith, hrow, Nat.min_self]
      obtain ⟨all, hall, widest, hlength⟩ := ih (h.concat row) (by rwa [same])
      refine ⟨all, ?_, by simpa using widest, hlength.trans same⟩
      rw [Drawing.widenAll, widen_eq hrow]
      exact hall

/-- The columns of a table without gaps are as wide as their widest cells. -/
theorem exists_widths {head : List Cell} {rows : List (List Cell)}
    (filled : ∀ row ∈ rows, row.length = head.length) :
    ∃ all, widths head rows = some all ∧ Widest (head :: rows) all ∧ all.length = head.length := by
  have wide : ∀ row ∈ rows, row.length = (head.map List.length).length := by
    intro row hrow
    rw [List.length_map]
    exact filled row hrow
  obtain ⟨all, hall, widest, hlength⟩ := (Widest.of_head head).widenAll wide
  rw [List.length_map] at hlength
  exact ⟨all, hall, widest, hlength⟩

/-- The cells of a row are no wider than their columns, and there is one in each. -/
abbrev Fits (widths : List Nat) (row : List Cell) : Prop :=
  List.Forall₂ (fun w (cell : Cell) => cell.length ≤ w) widths row

theorem Widest.fits {table : List (List Cell)} {widths : List Nat} (h : Widest table widths)
    {row : List Cell} (member : row ∈ table) (filled : row.length = widths.length) :
    Fits widths row := by
  apply List.forall₂_iff_get.2
  refine ⟨filled.symm, ?_⟩
  intro j hw hc
  apply (h j _ (List.getElem?_eq_getElem hw)).1 row member
  exact List.getElem?_eq_getElem hc

/-! ## Places of separators -/

/-- The place of the separator before a column: each column before it takes three characters more than
its width, for the separator and the blanks beside the cell. -/
def mark : List Nat → Nat → Nat
  | w :: widths, j + 1 => w + 3 + mark widths j
  | _, _ => 0

@[simp] theorem mark_zero (widths : List Nat) : mark widths 0 = 0 := by
  cases widths <;> rfl

@[simp] theorem mark_cons (w : Nat) (widths : List Nat) (j : Nat) :
    mark (w :: widths) (j + 1) = w + 3 + mark widths j := rfl

theorem mark_succ {widths : List Nat} {j w : Nat} (h : widths[j]? = some w) :
    mark widths (j + 1) = mark widths j + w + 3 := by
  induction widths generalizing j with
  | nil => exact absurd h (by simp)
  | cons v widths ih =>
      cases j with
      | zero =>
          obtain rfl : v = w := by simpa using h
          simp
      | succ j =>
          rw [mark_cons, ih (by simpa using h), mark_cons]
          omega

/-! ## Pieces between separators

A border and a line of cells are built alike: pieces as wide as the columns with the blanks beside them,
and a character before, between and behind them. -/

/-- Pieces, with a character before the first one and one behind each. -/
def fenced (first : Char) : List (List Char × Char) → List Char
  | [] => [first]
  | (piece, next) :: pieces => first :: piece ++ fenced next pieces

/-- The pieces fill columns of these widths and the blanks beside them. -/
abbrev Fills (pieces : List (List Char × Char)) (widths : List Nat) : Prop :=
  List.Forall₂ (fun (p : List Char × Char) w => p.1.length = w + 2) pieces widths

theorem head_fenced (first : Char) (pieces : List (List Char × Char)) :
    fenced first pieces = first :: (fenced first pieces).drop 1 := by
  cases pieces <;> rfl

theorem length_fenced {first : Char} {pieces : List (List Char × Char)} {widths : List Nat}
    (h : Fills pieces widths) : (fenced first pieces).length = mark widths widths.length + 1 := by
  induction h generalizing first with
  | nil => rfl
  | @cons p w pieces widths hp h ih =>
      rw [fenced, List.length_append, List.length_cons, hp, ih, List.length_cons, mark_cons]
      omega

/-- A piece stands between two marks. -/
theorem fenced_cut (first : Char) {pieces : List (List Char × Char)} {widths : List Nat} {j : Nat}
    {p : List Char × Char} (h : Fills pieces widths) (hp : pieces[j]? = some p) :
    ∃ front back, fenced first pieces = front ++ p.1 ++ p.2 :: back ∧
      front.length = mark widths j + 1 := by
  induction h generalizing first j with
  | nil => exact absurd hp (by simp)
  | @cons q w pieces widths hq h ih =>
      -- the piece is cut behind the first mark, or behind that of the pieces before it
      cases j with
      | zero =>
          obtain rfl : q = p := by simpa using hp
          refine ⟨[first], (fenced q.2 pieces).drop 1, ?_, by simp⟩
          rw [fenced, head_fenced q.2 pieces]
          rfl
      | succ j =>
          obtain ⟨front, back, hcut, hlength⟩ := ih q.2 (by simpa using hp)
          refine ⟨first :: q.1 ++ front, back, ?_, ?_⟩
          · rw [fenced, hcut]
            simp only [List.append_assoc]
          · rw [List.length_append, List.length_cons, hq, hlength, mark_cons]
            omega

/-- What stands between two marks and at the second one. -/
theorem fenced_at {first : Char} {pieces : List (List Char × Char)} {widths : List Nat} {j w : Nat}
    {p : List Char × Char} (h : Fills pieces widths) (hp : pieces[j]? = some p)
    (hw : widths[j]? = some w) :
    Text.slice (fenced first pieces) (mark widths j + 1 : Nat) (mark widths (j + 1) : Nat) = p.1 ∧
      (fenced first pieces)[mark widths (j + 1)]? = some p.2 := by
  obtain ⟨front, back, hcut, hfront⟩ := fenced_cut first h hp
  have hpiece : p.1.length = w + 2 := by
    have hlookup := List.forall₂_iff_get.1 h
    obtain ⟨hj, rfl⟩ := List.getElem?_eq_some_iff.1 hp
    obtain ⟨hj', rfl⟩ := List.getElem?_eq_some_iff.1 hw
    exact hlookup.2 j hj hj'
  have hend : mark widths (j + 1) = (front ++ p.1).length := by
    rw [mark_succ hw, List.length_append, hfront, hpiece]
    omega
  rw [hcut, hend]
  constructor
  · rw [Text.slice_ofNat, List.take_left, ← hfront, List.drop_left]
  · rw [List.getElem?_append_right (Nat.le_refl _), Nat.sub_self]
    rfl

theorem feed_not_mem_fenced {first : Char} {pieces : List (List Char × Char)} (hfirst : '\n' ≠ first)
    (h : ∀ p ∈ pieces, '\n' ∉ p.1 ∧ '\n' ≠ p.2) : '\n' ∉ fenced first pieces := by
  induction pieces generalizing first with
  | nil => simpa [fenced] using hfirst
  | cons p pieces ih =>
      obtain ⟨hp, hpieces⟩ := List.forall_mem_cons.1 h
      rw [fenced, List.mem_append, List.mem_cons, not_or, not_or]
      exact ⟨⟨hfirst, hp.1⟩, ih hp.2 hpieces⟩

/-! ## Borders -/

/-- The pieces of a border. -/
def dashes (widths : List Nat) : List (List Char × Char) :=
  widths.map fun w => (List.replicate (w + 2) '-', '+')

theorem border_eq {widths : List Nat} (columns : widths ≠ []) :
    border widths = fenced '+' (dashes widths) := by
  induction widths with
  | nil => exact absurd rfl columns
  | cons w widths ih =>
      cases widths with
      | nil => simp [border, fenced, dashes]
      | cons v widths =>
          have hrest := ih (by simp)
          simp only [border, List.map_cons, dashes, fenced] at hrest ⊢
          rw [List.intercalate_cons_cons, List.append_assoc, List.append_assoc, List.singleton_append,
            hrest]
          rfl

theorem fills_dashes (widths : List Nat) : Fills (dashes widths) widths := by
  rw [dashes, Fills, List.forall₂_map_left_iff]
  apply List.forall₂_same.2
  intro w _
  exact List.length_replicate

/-- The crosses of a border stand at the marks, and nowhere else. -/
theorem cross_iff {widths : List Nat} {i : Nat} :
    (fenced '+' (dashes widths))[i]? = some '+' ↔ ∃ j ≤ widths.length, i = mark widths j := by
  induction widths generalizing i with
  | nil => cases i <;> simp [fenced, dashes, mark]
  | cons w widths ih =>
      have hcons : fenced '+' (dashes (w :: widths)) =
          ('+' :: List.replicate (w + 2) '-') ++ fenced '+' (dashes widths) := rfl
      have hlength : ('+' :: List.replicate (w + 2) '-').length = w + 3 := by
        rw [List.length_cons, List.length_replicate]
      rw [hcons]
      rcases Nat.lt_or_ge i (w + 3) with hi | hi
      · -- the first cross and the dashes behind it
        rw [List.getElem?_append_left (by rw [hlength]; exact hi)]
        cases i with
        | zero =>
            simp only [List.getElem?_cons_zero, true_iff]
            exact ⟨0, by simp, by simp⟩
        | succ i =>
            rw [List.getElem?_cons_succ, List.getElem?_replicate_of_lt (by omega)]
            simp only [Option.some.injEq, Char.reduceEq, false_iff]
            rintro ⟨j, -, hj⟩
            cases j with
            | zero => simp at hj
            | succ j =>
                rw [mark_cons] at hj
                omega
      · rw [List.getElem?_append_right (by rw [hlength]; exact hi), ih, hlength]
        simp only [List.length_cons]
        constructor
        · rintro ⟨j, hj, hmark⟩
          refine ⟨j + 1, by omega, ?_⟩
          rw [mark_cons]
          omega
        · rintro ⟨j, hj, hmark⟩
          cases j with
          | zero =>
              rw [mark_zero] at hmark
              omega
          | succ j =>
              rw [mark_cons] at hmark
              exact ⟨j, by omega, by omega⟩

theorem mem_border {widths : List Nat} {c : Char} (h : c ∈ fenced '+' (dashes widths)) :
    c = '+' ∨ c = '-' := by
  induction widths with
  | nil => exact .inl (by simpa [fenced, dashes] using h)
  | cons w widths ih =>
      rcases List.mem_append.1 h with h | h
      · exact (List.mem_cons.1 h).imp_right List.eq_of_mem_replicate
      · exact ih h

/-! ## Lines of cells -/

/-- The pieces of a line of cells: each cell, filled up, between two blanks. -/
def fields : List Nat → List Cell → List (List Char × Char)
  | w :: widths, cell :: cells =>
      (' ' :: padded w cell ++ [' '], if widths = [] then '|' else '│') :: fields widths cells
  | _, _ => []

theorem line_eq {widths : List Nat} {cells : List Cell} (columns : widths ≠ [])
    (filled : cells.length = widths.length) : line widths cells = fenced '|' (fields widths cells) := by
  -- the line goes on in the same way behind any separator
  suffices general : ∀ first : Char,
      first :: ' ' :: List.intercalate [' ', '│', ' '] (List.zipWith padded widths cells) ++ [' ', '|'] =
        fenced first (fields widths cells) from general '|'
  induction widths generalizing cells with
  | nil => exact absurd rfl columns
  | cons w widths ih =>
      intro first
      cases cells with
      | nil => exact absurd filled (by simp)
      | cons cell cells =>
          cases widths with
          | nil =>
              obtain rfl : cells = [] := by simpa using filled
              simp [fields, fenced]
          | cons v widths =>
              cases cells with
              | nil => exact absurd filled (by simp)
              | cons next cells =>
                  have hfilled : (next :: cells).length = (v :: widths).length := by
                    simpa using filled
                  have hrest := ih (by simp) hfilled '│'
                  rw [fields, if_neg (by simp), fenced, ← hrest, List.zipWith_cons_cons,
                    List.zipWith_cons_cons, List.intercalate_cons_cons]
                  simp

theorem fills_fields {widths : List Nat} {cells : List Cell} (fits : Fits widths cells) :
    Fills (fields widths cells) widths := by
  induction fits with
  | nil => exact .nil
  | @cons w cell widths cells hle fits ih =>
      refine .cons ?_ ih
      simp [length_padded hle]

theorem getElem?_fields {widths : List Nat} {cells : List Cell} {j w : Nat} {cell : Cell}
    (hw : widths[j]? = some w) (hcell : cells[j]? = some cell) :
    (fields widths cells)[j]? =
      some (' ' :: padded w cell ++ [' '], if j + 1 = widths.length then '|' else '│') := by
  induction widths generalizing cells j with
  | nil => exact absurd hw (by simp)
  | cons v widths ih =>
      cases cells with
      | nil => exact absurd hcell (by simp)
      | cons c cells =>
          rw [fields]
          cases j with
          | zero =>
              obtain rfl : v = w := by simpa using hw
              obtain rfl : c = cell := by simpa using hcell
              cases widths <;> simp
          | succ j =>
              rw [List.getElem?_cons_succ, ih (by simpa using hw) (by simpa using hcell)]
              simp

theorem feed_not_mem_fields {widths : List Nat} {cells : List Cell} (single : ∀ c ∈ cells, '\n' ∉ c) :
    ∀ p ∈ fields widths cells, '\n' ∉ p.1 ∧ '\n' ≠ p.2 := by
  induction widths generalizing cells with
  | nil => simp [fields]
  | cons w widths ih =>
      cases cells with
      | nil => simp [fields]
      | cons cell cells =>
          obtain ⟨hcell, hcells⟩ := List.forall_mem_cons.1 single
          rw [fields, List.forall_mem_cons]
          refine ⟨⟨?_, ?_⟩, ih hcells⟩
          · simp [padded, hcell]
          · dsimp only
            split <;> decide

/-! ## Lines of a table -/

theorem lines_eq {head : List Cell} {rows : List (List Cell)} {all : List Nat}
    (h : widths head rows = some all) :
    lines head rows = some (border all :: body all (head :: rows)) := by
  rw [lines, h]
  rfl

section Lines

variable (widths : List Nat) (table : List (List Cell))

theorem length_body : (body widths table).length = 2 * table.length := by
  induction table with
  | nil => rfl
  | cons row table ih =>
      rw [body, List.length_cons, List.length_cons, ih, List.length_cons]
      omega

/-- The lines at even places are borders. -/
theorem getElem?_even {k : Nat} (h : k ≤ table.length) :
    (border widths :: body widths table)[2 * k]? = some (border widths) := by
  induction table generalizing k with
  | nil =>
      obtain rfl : k = 0 := by simpa using h
      rfl
  | cons row table ih =>
      cases k with
      | zero => rfl
      | succ k => exact ih (by simpa using h)

/-- The lines at odd places are those of the rows. -/
theorem getElem?_odd (k : Nat) :
    (border widths :: body widths table)[2 * k + 1]? = table[k]?.map (line widths) := by
  induction table generalizing k with
  | nil => rfl
  | cons row table ih =>
      cases k with
      | zero => rfl
      | succ k => exact ih k

theorem mem_body {widths table} {l : List Char} (h : l ∈ body widths table) :
    l = border widths ∨ ∃ row ∈ table, l = line widths row := by
  induction table with
  | nil => exact absurd h (by simp [body])
  | cons row table ih =>
      rcases List.mem_cons.1 h with h | h
      · exact .inr ⟨row, List.mem_cons_self, h⟩
      · rcases List.mem_cons.1 h with h | h
        · exact .inl h
        · apply (ih h).imp_right
          rintro ⟨r, hr, hl⟩
          exact ⟨r, List.mem_cons_of_mem _ hr, hl⟩

end Lines

/-- The line shows the row in columns of these widths: at the first and the last mark stands a bar, at the
others a separator, and between two marks nothing but a filled up cell and a blank on both sides. -/
structure ShowsRow (widths : List Nat) (row : List Cell) (l : List Char) : Prop where
  first : l[0]? = some '|'
  cells : ∀ j w cell, widths[j]? = some w → row[j]? = some cell →
    Text.slice l (mark widths j + 1 : Nat) (mark widths (j + 1) : Nat) =
        ' ' :: padded w cell ++ [' '] ∧
      l[mark widths (j + 1)]? = some (if j + 1 = widths.length then '|' else '│')

/-- The lines show the rows of a table in columns of these widths. All of them are of one length; those at
even places are borders, all of which are the same and have their crosses exactly at the marks, and the
others show the rows. -/
structure Ruled (widths : List Nat) (table : List (List Cell)) (ls : List (List Char)) : Prop where
  length : ∀ l ∈ ls, l.length = mark widths widths.length + 1
  border : ∃ ruler, (∀ k ≤ table.length, ls[2 * k]? = some ruler) ∧
    (∀ i, ruler[i]? = some '+' ↔ ∃ j ≤ widths.length, i = mark widths j) ∧
    ∀ c ∈ ruler, c = '+' ∨ c = '-'
  rows : ∀ (k : Nat) row, table[k]? = some row → ∃ l, ls[2 * k + 1]? = some l ∧ ShowsRow widths row l

theorem showsRow_line {widths : List Nat} {row : List Cell} (columns : widths ≠ [])
    (fits : Fits widths row) : ShowsRow widths row (line widths row) := by
  rw [line_eq columns fits.length_eq.symm]
  constructor
  · rw [head_fenced]
    rfl
  · intro j w cell hw hcell
    exact fenced_at (fills_fields fits) (getElem?_fields hw hcell) hw

theorem ruled_lines {widths : List Nat} {table : List (List Cell)} (columns : widths ≠ [])
    (fits : ∀ row ∈ table, Fits widths row) :
    Ruled widths table (Drawing.border widths :: body widths table) where
  length := by
    have hborder : (Drawing.border widths).length = mark widths widths.length + 1 := by
      rw [border_eq columns, length_fenced (fills_dashes widths)]
    intro l hl
    rcases List.mem_cons.1 hl with rfl | hl
    · exact hborder
    · rcases mem_body hl with rfl | ⟨row, hrow, rfl⟩
      · exact hborder
      · rw [line_eq columns (fits row hrow).length_eq.symm, length_fenced (fills_fields (fits row hrow))]
  border := by
    refine ⟨Drawing.border widths, fun k hk => getElem?_even widths table hk, ?_, ?_⟩
    · intro i
      rw [border_eq columns]
      exact cross_iff
    · intro c hc
      rw [border_eq columns] at hc
      exact mem_border hc
  rows k row hrow := by
    refine ⟨line widths row, ?_, showsRow_line columns (fits row (List.mem_of_getElem? hrow))⟩
    rw [getElem?_odd, hrow]
    rfl

/-! ## Reading a drawing -/

/-- The cell without the blanks at its end. -/
def trimmed (cell : Cell) : Cell := cell.rdropWhile (· == ' ')

theorem trimmed_padded (w : Nat) (cell : Cell) : trimmed (padded w cell) = trimmed cell := by
  rw [padded]
  induction w - cell.length with
  | zero => rw [List.replicate_zero, List.append_nil]
  | succ n ih =>
      rw [List.replicate_succ', ← List.append_assoc, trimmed, List.rdropWhile_concat_pos _ _ _ rfl]
      exact ih

/-- The lengths of the runs of characters before crosses, when `run` characters have been passed. -/
def runs (run : Nat) : List Char → List Nat
  | [] => []
  | c :: cs => if c = '+' then run :: runs 0 cs else runs (run + 1) cs

/-- The widths that a border shows: two dashes stand over the blanks beside a cell. -/
def shownWidths (border : List Char) : List Nat :=
  (runs 0 (border.drop 1)).map (· - 2)

/-- The cells that stand one after the other in columns of these widths, without the blanks at their
ends. -/
def shownCells : List Nat → List Char → List Cell
  | [], _ => []
  | w :: widths, cs => trimmed (cs.take w) :: shownCells widths (cs.drop (w + 3))

/-- Every second line, from the first one on. -/
def everySecond : List (List Char) → List (List Char)
  | l :: _ :: ls => l :: everySecond ls
  | ls => ls

/-- The rows that a drawing shows, the head first. Only the first border says how wide the columns are. -/
def read (drawn : String) : List (List Cell) :=
  match Text.lines drawn.toList with
  | [] => []
  | border :: ls => (everySecond ls).map fun l => shownCells (shownWidths border) (l.drop 2)

theorem runs_dashes (run n : Nat) (cs : List Char) :
    runs run (List.replicate n '-' ++ '+' :: cs) = (run + n) :: runs 0 cs := by
  induction n generalizing run with
  | zero => rfl
  | succ n ih =>
      rw [List.replicate_succ, List.cons_append, runs, if_neg (by decide), ih]
      congr 1
      omega

theorem shownWidths_border {widths : List Nat} (columns : widths ≠ []) :
    shownWidths (border widths) = widths := by
  have hruns : runs 0 ((fenced '+' (dashes widths)).drop 1) = widths.map (· + 2) := by
    clear columns
    induction widths with
    | nil => rfl
    | cons w widths ih =>
        have hcons : (fenced '+' (dashes (w :: widths))).drop 1 =
            List.replicate (w + 2) '-' ++ fenced '+' (dashes widths) := rfl
        rw [hcons, head_fenced, runs_dashes, ih, Nat.zero_add, List.map_cons]
  rw [shownWidths, border_eq columns, hruns, List.map_map]
  simp [Function.comp_def]

theorem shownCells_line {widths : List Nat} {cells : List Cell} (columns : widths ≠ [])
    (fits : Fits widths cells) :
    shownCells widths ((line widths cells).drop 2) = cells.map trimmed := by
  rw [line_eq columns fits.length_eq.symm]
  clear columns
  -- behind each cell stand a blank, a separator and a blank
  generalize '|' = first
  induction fits generalizing first with
  | nil => rfl
  | @cons w cell widths cells hle fits ih =>
      obtain ⟨next, hnext⟩ : ∃ next, fields (w :: widths) (cell :: cells) =
          (' ' :: padded w cell ++ [' '], next) :: fields widths cells := ⟨_, rfl⟩
      have hcut : (fenced first (fields (w :: widths) (cell :: cells))).drop 2 =
          padded w cell ++ ' ' :: fenced next (fields widths cells) := by
        rw [hnext, fenced]
        simp
      have hlength : (padded w cell).length = w := length_padded hle
      have hrest : (padded w cell ++ ' ' :: fenced next (fields widths cells)).drop (w + 3) =
          (fenced next (fields widths cells)).drop 2 := by
        rw [List.drop_append, hlength, List.drop_eq_nil_of_le (by omega), List.nil_append]
        have hthree : w + 3 - w = 2 + 1 := by omega
        rw [hthree, List.drop_succ_cons]
      rw [hcut, shownCells, hrest, ih, List.map_cons, List.take_left' hlength, trimmed_padded]

theorem everySecond_body (widths : List Nat) (table : List (List Cell)) :
    everySecond (body widths table) = table.map (line widths) := by
  induction table with
  | nil => rfl
  | cons row table ih => rw [body, everySecond, ih, List.map_cons]

/-! ## Tables -/

/-- A table without gaps: there are columns, and each row has one cell in each of them. No cell holds a line
feed. -/
structure IsTable (head : List String) (rows : List (List String)) : Prop where
  columns : head ≠ []
  filled : ∀ row ∈ rows, row.length = head.length
  single : ∀ row ∈ head :: rows, ∀ cell ∈ row, '\n' ∉ cell.toList

instance (head : List String) (rows : List (List String)) : Decidable (IsTable head rows) :=
  decidable_of_iff
    (head ≠ [] ∧ (∀ row ∈ rows, row.length = head.length) ∧
      ∀ row ∈ head :: rows, ∀ cell ∈ row, '\n' ∉ cell.toList)
    ⟨fun h => ⟨h.1, h.2.1, h.2.2⟩, fun h => ⟨h.columns, h.filled, h.single⟩⟩

/-- The cells of a table, row by row, with the head first. -/
def tableOf (head : List String) (rows : List (List String)) : List (List Cell) :=
  (head :: rows).map (·.map String.toList)

/-- The cells of a table without the blanks at their ends. -/
def trimmedTable (head : List String) (rows : List (List String)) : List (List Cell) :=
  (tableOf head rows).map (·.map trimmed)

namespace IsTable

variable {head : List String} {rows : List (List String)} {all : List Nat}

/-- A table without gaps has columns, and all its rows fit into them. -/
theorem exists_fits (table : IsTable head rows) :
    ∃ all, widths (head.map String.toList) (rows.map (·.map String.toList)) = some all ∧
      all.length = head.length ∧ Widest (tableOf head rows) all ∧ all ≠ [] ∧
      ∀ row ∈ tableOf head rows, Fits all row := by
  -- a table whose rows are filled has one width for each column
  have filled : ∀ row ∈ rows.map (·.map String.toList),
      row.length = (head.map String.toList).length := by
    intro row hrow
    obtain ⟨texts, htexts, rfl⟩ := List.mem_map.1 hrow
    rw [List.length_map, List.length_map, table.filled texts htexts]
  obtain ⟨all, hall, widest, hlength⟩ := exists_widths filled
  rw [List.length_map] at hlength
  refine ⟨all, hall, hlength, widest, ?_, ?_⟩
  · intro hnone
    rw [hnone] at hlength
    exact table.columns (List.length_eq_zero_iff.1 hlength.symm)
  · intro row hrow
    apply widest.fits hrow
    rcases List.mem_cons.1 hrow with rfl | hrow
    · rw [List.length_map, hlength]
    · rw [filled row hrow, List.length_map, hlength]

/-- No line of the drawing holds a line feed, for none comes from a cell. -/
theorem feed_not_mem (table : IsTable head rows) (columns : all ≠ [])
    (fits : ∀ row ∈ tableOf head rows, Fits all row) :
    ∀ l ∈ border all :: body all (tableOf head rows), '\n' ∉ l := by
  have hborder : '\n' ∉ border all := by
    rw [border_eq columns]
    intro hfeed
    rcases mem_border hfeed with hfeed | hfeed <;> exact absurd hfeed (by decide)
  intro l hl
  rcases List.mem_cons.1 hl with rfl | hl
  · exact hborder
  · rcases mem_body hl with rfl | ⟨row, hrow, rfl⟩
    · exact hborder
    · rw [line_eq columns (fits row hrow).length_eq.symm]
      apply feed_not_mem_fenced (by decide)
      apply feed_not_mem_fields
      obtain ⟨texts, htexts, rfl⟩ := List.mem_map.1 hrow
      intro cell hcell
      obtain ⟨text, htext, rfl⟩ := List.mem_map.1 hcell
      exact table.single texts htexts text htext

end IsTable

/-- The lines of a drawn table, and what is read of it. -/
theorem exists_draw {head : List String} {rows : List (List String)} (table : IsTable head rows) :
    ∃ drawn all, draw head rows = some drawn ∧ all.length = head.length ∧
      Widest (tableOf head rows) all ∧
      Text.lines drawn.toList = border all :: body all (tableOf head rows) ∧
      Ruled all (tableOf head rows) (Text.lines drawn.toList) ∧
      read drawn = trimmedTable head rows := by
  obtain ⟨all, hall, hlength, widest, columns, fits⟩ := table.exists_fits
  -- the lines are those that were joined
  have hlines : Text.lines (Text.unlines (border all :: body all (tableOf head rows))) =
      border all :: body all (tableOf head rows) :=
    Text.lines_unlines (by simp) (table.feed_not_mem columns fits)
  refine ⟨String.ofList (Text.unlines (border all :: body all (tableOf head rows))), all, ?_, hlength,
    widest, ?_, ?_, ?_⟩
  · rw [draw, lines_eq hall, Text.unlines_eq_intercalate]
    rfl
  · rw [String.toList_ofList, hlines]
  · rw [String.toList_ofList, hlines]
    exact ruled_lines columns fits
  · rw [read, String.toList_ofList, hlines]
    simp only [everySecond_body, List.map_map, trimmedTable, shownWidths_border columns]
    apply List.map_congr_left
    intro row hrow
    exact shownCells_line columns (fits row hrow)

/-- A table without gaps is drawn in two lines for each row and three more. Its columns are as wide as
their widest cells, and borders and separators stand where these widths put them. All cells are read back
without the blanks at their ends, whatever characters they hold; so tables with one drawing have the same
cells up to those blanks. -/
theorem draw_lossless {head : List String} {rows : List (List String)} (table : IsTable head rows) :
    ∃ drawn all, draw head rows = some drawn ∧
      (Text.lines drawn.toList).length = 2 * rows.length + 3 ∧ all.length = head.length ∧
      Widest (tableOf head rows) all ∧ Ruled all (tableOf head rows) (Text.lines drawn.toList) ∧
      read drawn = trimmedTable head rows ∧
      ∀ head' rows', IsTable head' rows' → draw head' rows' = some drawn →
        trimmedTable head' rows' = trimmedTable head rows := by
  obtain ⟨drawn, all, hdraw, hlength, widest, hlines, ruled, hread⟩ := exists_draw table
  refine ⟨drawn, all, hdraw, ?_, hlength, widest, ruled, hread, ?_⟩
  · rw [hlines, List.length_cons, length_body, tableOf, List.length_map, List.length_cons]
    omega
  · intro head' rows' table' hdraw'
    obtain ⟨drawn', _, hdrawn, -, -, -, -, hread'⟩ := exists_draw table'
    obtain rfl : drawn' = drawn := Option.some.inj (hdrawn.symm.trans hdraw')
    rw [← hread', hread]

/-- The drawing of a table whose cells hold all characters of drawings. -/
def barred : String :=
  "+----+-------+\n|    │ a │   |\n+----+-------+\n| +- │ |     |\n+----+-------+\n" ++
    "|    │ x | y |\n+----+-------+"

/-- A cell with a blank at its end is read without it; the bars and crosses in cells do no harm. -/
theorem draw_lossless_barred :
    IsTable ["", "a │"] [["+-", "| "], ["", "x | y"]] ∧
      draw ["", "a │"] [["+-", "| "], ["", "x | y"]] = some barred ∧
      (∃ all, all.length = 2 ∧ Widest (tableOf ["", "a │"] [["+-", "| "], ["", "x | y"]]) all ∧
        Ruled all (tableOf ["", "a │"] [["+-", "| "], ["", "x | y"]]) (Text.lines barred.toList)) ∧
      (read barred).map (·.map String.ofList) = [["", "a │"], ["+-", "|"], ["", "x | y"]] := by
  have table : IsTable ["", "a │"] [["+-", "| "], ["", "x | y"]] := by decide
  have hdrawn : draw ["", "a │"] [["+-", "| "], ["", "x | y"]] = some barred := by decide
  obtain ⟨drawn, all, hdraw, -, hlength, widest, ruled, hread, -⟩ := draw_lossless table
  obtain rfl := Option.some.inj (hdraw.symm.trans hdrawn)
  refine ⟨table, hdrawn, ⟨all, hlength, widest, ruled⟩, ?_⟩
  rw [hread]
  decide

end Predictive.Drawing
