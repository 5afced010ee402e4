import Predictive.Proofs.Revival
import Mathlib.Data.List.Basic

/-!
# What grammars of values answer

A grammar of values whose productions are those of a checked grammar answers every question about
them as the checked grammar does, though it looks at each part of each production for itself. Its
symbols are texts (`Unchecked.isTerminal_text`), and what it gathers step by step are the distinct
ones among them, in the order in which they come (`Unchecked.foldlM_distinct`).
-/

set_option autoImplicit false

namespace Predictive

open OrderedMap (lookupEntry)
open Unchecked.Grammar (productionDatum productionsDatum)

namespace Datum

theorem isKey_text (s : String) : (Datum.text s).isKey = true := by
  rw [isKey] <;> simp

theorem isKey_int (n : Int) : (Datum.int n).isKey = true := by
  rw [isKey] <;> simp

theorem beq_int (m n : Int) : (Datum.int m == Datum.int n) = (m == n) := by
  change same _ _ = _
  rw [same, whole?, Option.some_beq_some, Bool.eq_iff_iff, beq_iff_eq, beq_iff_eq, eq_comm]

theorem contains_map_text (ss : List String) (s : String) :
    (ss.map Datum.text).contains (.text s) = ss.contains s := by
  induction ss with
  | nil => rfl
  | cons t ss ih => rw [List.map_cons, List.contains_cons, List.contains_cons, ih, beq_text]

end Datum

namespace Unchecked

/-! ## Terminals -/

theorem itemAt_zero (x : Datum) (xs : List Datum) : itemAt (x :: xs) (.int 0) = .ok x := by
  have hplace : place? (x :: xs).length 0 = some 0 := by simp [place?]
  simp only [itemAt, Datum.int?, hplace]
  rfl

/-- The index below zero by one is that of the last item. -/
theorem itemAt_last {xs : List Datum} {x : Datum} (h : xs.getLast? = some x) :
    itemAt xs (.int (-1)) = .ok x := by
  obtain ⟨front, rfl⟩ := List.getLast?_eq_some_iff.1 h
  have hindex : (-1 : Int) + (front.length + 1 : Nat) = front.length := by omega
  have hplace : place? (front ++ [x]).length (-1) = some front.length := by
    rw [List.length_append, List.length_singleton]
    simp only [place?, if_pos (by decide : (-1 : Int) < 0), hindex]
    rw [if_pos ⟨by omega, by omega⟩, Int.toNat_natCast]
  simp only [itemAt, Datum.int?, hplace]
  simp

/-- A text is a terminal as a value just when it is one as a symbol. -/
theorem isTerminal_text (s : Symbol) : isTerminal (.text s) = .ok (Symbol.isTerminal s) := by
  have beq_quotation (c : Char) : (Datum.text (String.singleton c) == quotation) = (c == '"') := by
    rw [quotation, Datum.beq_text, Bool.eq_iff_iff, beq_iff_eq, beq_iff_eq, ← String.toList_inj]
    simp
  rw [isTerminal, length, Symbol.isTerminal, ← String.length_toList, item, item]
  rcases hs : s.toList with _ | ⟨c, cs⟩
  · rfl
  · rcases List.eq_nil_or_concat' cs with rfl | ⟨middle, d, rfl⟩
    · -- one quote does not both begin and end a terminal
      by_cases hc : c = '"'
      · subst hc
        rfl
      · simp [Symbol.quotedChars, bind, Except.bind, hc]
    · have long : ¬ (c :: (middle ++ [d])).length < 2 := by simp
      have last : ((c :: (middle ++ [d])).map fun c => Datum.text (String.singleton c)).getLast? =
          some (.text (String.singleton d)) := by
        simp [List.getLast?_cons]
      rw [itemAt_last last, List.map_cons, itemAt_zero]
      simp only [bind, Except.bind, if_neg long, beq_quotation]
      by_cases hc : c = '"'
      · subst hc
        simp [Symbol.quotedChars]
      · simp [Symbol.quotedChars, hc]

/-! ## Symbols one by one -/

theorem addSymbol_distinct (found : List Symbol) (s : Symbol) :
    addSymbol ((distinct found).map .text) (.text s) =
      .ok ((distinct (found ++ [s])).map .text) := by
  rw [addSymbol, if_pos (Datum.isKey_text s), Datum.contains_map_text, distinct_concat]
  by_cases hs : s ∈ found <;> simp [hs]

/-- One more symbol, if it is of the kind that is looked for. -/
theorem addSymbol_if (wanted : Symbol → Bool) (found : List Symbol) (s : Symbol) :
    (if wanted s then addSymbol ((distinct found).map .text) (.text s)
      else pure ((distinct found).map .text)) =
        .ok ((distinct (found ++ [s].filter wanted)).map .text) := by
  by_cases hs : wanted s = true
  · rw [if_pos hs, addSymbol_distinct, List.filter_singleton, hs]
    rfl
  · rw [if_neg hs, List.filter_singleton, eq_false_of_ne_true hs, cond_false, List.append_nil]
    rfl

/-- Steps that add some symbols each to the distinct ones found so far add up to a run that finds
all of them. -/
theorem foldlM_distinct {α : Type} {step : List Datum → α → Except Failure (List Datum)}
    {more : α → List Symbol} (xs : List α) (found : List Symbol)
    (adds : ∀ found x, step ((distinct found).map .text) x =
      .ok ((distinct (found ++ more x)).map .text)) :
    xs.foldlM step ((distinct found).map .text) =
      .ok ((distinct (found ++ xs.flatMap more)).map .text) := by
  induction xs generalizing found with
  | nil => simp [pure, Except.pure]
  | cons x xs ih =>
      rw [List.foldlM_cons, adds, List.flatMap_cons, ← List.append_assoc]
      exact ih (found ++ more x)

theorem flatMap_filter_singleton {α : Type} (wanted : α → Bool) (xs : List α) :
    (xs.flatMap fun x => [x].filter wanted) = xs.filter wanted := by
  induction xs with
  | nil => rfl
  | cons x xs ih =>
      rw [List.flatMap_cons, ih, ← List.filter_append]
      rfl

/-- Symbols of a kind that are gathered one by one. -/
theorem foldlM_addSymbol_if (wanted : Symbol → Bool) (ss found : List Symbol) :
    (ss.foldlM (fun found s => if wanted s then addSymbol found (.text s) else pure found)
      ((distinct found).map .text)) =
        .ok ((distinct (found ++ ss.filter wanted)).map .text) := by
  rw [← flatMap_filter_singleton]
  exact foldlM_distinct ss found (addSymbol_if wanted)

/-! ## Productions -/

namespace Grammar

variable {g : Grammar} {m : OrderedMap Int Production}

theorem productionList_eq (h : g.productions = productionsDatum m) :
    g.productionList = .ok (m.values.map productionDatum) := by
  rw [productionList, h, productionsDatum, values, OrderedMap.values, List.map_map]
  simp [entries, bind, Except.bind]

theorem size_eq (h : g.productions = productionsDatum m) : g.size = .ok m.values.length := by
  rw [size, h, productionsDatum, length, OrderedMap.values, List.length_map, List.length_map]

/-- A number is looked up among values as it is among numbers. -/
theorem lookupEntry_int (n : Int) (es : List (Int × Production)) :
    lookupEntry (.int n) (es.map fun e => (Datum.int e.1, productionDatum e.2)) =
      (lookupEntry n es).map productionDatum := by
  induction es with
  | nil => rfl
  | cons e es ih =>
      rw [List.map_cons, lookupEntry, lookupEntry, Datum.beq_int, ih]
      split <;> rfl

theorem findProduction_eq (h : g.productions = productionsDatum m) (n : Int) :
    g.findProduction (.int n) =
      match lookupEntry n m.entries with
      | some p => .ok (productionDatum p)
      | none => .error (.grammar (.noSuchProduction (.int n))) := by
  rw [findProduction, h, productionsDatum, item, if_pos (Datum.isKey_int n), lookupEntry_int]
  cases lookupEntry n m.entries <;> rfl

theorem terminals_eq (h : g.productions = productionsDatum m) :
    g.terminals =
      .ok ((distinct (m.values.flatMap fun p => p.rhs.filter Symbol.isTerminal)).map .text) := by
  rw [terminals, productionList_eq h]
  show (m.values.map productionDatum).foldlM _ _ = _
  rw [List.foldlM_map]
  refine foldlM_distinct m.values [] ?_
  intro found p
  -- the inner run goes through the symbols of one production
  show (p.rhs.map Datum.text).foldlM _ _ = _
  rw [List.foldlM_map]
  simp only [isTerminal_text]
  exact foldlM_addSymbol_if Symbol.isTerminal p.rhs found

theorem nonterminals_eq (h : g.productions = productionsDatum m) :
    g.nonterminals = .ok ((distinct (m.values.map (·.lhs))).map .text) := by
  rw [nonterminals, productionList_eq h]
  show (m.values.map productionDatum).foldlM _ _ = _
  rw [List.foldlM_map, List.map_eq_flatMap (f := fun p : Production => p.lhs)]
  refine foldlM_distinct m.values [] ?_
  intro found p
  exact addSymbol_distinct found p.lhs

/-- A search goes through the productions with what they are found by. -/
theorem bind_keyed {α : Type} {part : Datum → Except Failure α} (value : Production → α)
    (hpart : ∀ p, part (productionDatum p) = .ok (value p))
    (h : g.productions = productionsDatum m)
    (search : List (α × Datum) → Except Failure (List Datum)) :
    (do let keyed ← (← g.productionList).mapM fun d => do pure (← part d, d)
        search keyed) = search (m.values.map fun p => (value p, productionDatum p)) := by
  have keyed : ((m.values.map productionDatum).mapM fun d => do pure (← part d, d)) =
      .ok (m.values.map fun p => (value p, productionDatum p)) := by
    have one (p : Production) : ((fun d => do pure (← part d, d)) ∘ productionDatum) p =
        (pure (value p, productionDatum p) : Except Failure (α × Datum)) := by
      rw [Function.comp_apply, hpart]
      rfl
    rw [List.mapM_map, funext one]
    exact List.mapM_pure
  rw [productionList_eq h]
  exact congrArg (· >>= search) keyed

theorem productionsFor_eq (h : g.productions = productionsDatum m) (s : Symbol) :
    g.productionsFor (.text s) =
      .ok ((m.values.filter fun p => p.lhs = s).map productionDatum) := by
  have same : ((fun e : Datum × Datum => e.1 == .text s) ∘
      fun p : Production => (.text p.lhs, productionDatum p)) = fun p => decide (p.lhs = s) := by
    funext p
    rw [Function.comp_apply, Datum.beq_text]
    rfl
  rw [productionsFor, bind_keyed (fun p => .text p.lhs) (fun p => rfl) h,
    if_pos (Datum.isKey_text s), List.filter_map, List.map_map, same]
  rfl

theorem productionsWith_eq (h : g.productions = productionsDatum m) (s : Symbol) :
    g.productionsWith (.text s) =
      .ok ((m.values.filter fun p => s ∈ p.rhs).map productionDatum) := by
  have same : ((fun e : List Datum × Datum => e.1.contains (.text s)) ∘
      fun p : Production => (p.rhs.map .text, productionDatum p)) =
        fun p => decide (s ∈ p.rhs) := by
    funext p
    rw [Function.comp_apply, Datum.contains_map_text, List.contains_eq_mem]
  rw [productionsWith, bind_keyed (fun p => p.rhs.map .text) (fun p => rfl) h,
    if_pos (Datum.isKey_text s), List.filter_map, List.map_map, same]
  rfl

/-! ## Lexical names -/

/-- The names of lexical rules, if all of them are texts. -/
theorem lexicalVariables_eq {names : List Symbol}
    (h : (g.lexicalRules >>= values) = .ok (names.map .text)) :
    g.lexicalVariables =
      .ok ((distinct (names.filter fun s => !Symbol.isTerminal s)).map .text) := by
  have flipped (found : List Datum) (s : Symbol) :
      (do if ← isTerminal (.text s) then pure found else addSymbol found (.text s)) =
        if (!Symbol.isTerminal s) = true then addSymbol found (.text s) else pure found := by
    rw [isTerminal_text]
    show (if Symbol.isTerminal s = true then _ else _) = _
    cases Symbol.isTerminal s <;> rfl
  obtain ⟨rules, hrules, hvalues⟩ := exists_of_bind_eq_ok h
  rw [lexicalVariables, hrules]
  show values rules >>= _ = _
  rw [hvalues]
  show (names.map Datum.text).foldlM _ _ = _
  rw [List.foldlM_map]
  simp only [flipped]
  exact foldlM_addSymbol_if _ names []

end Grammar

end Unchecked

end Predictive
