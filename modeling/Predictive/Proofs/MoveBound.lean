import Mathlib.Algebra.GroupWithZero.Nat
import Mathlib.Data.List.Perm.Subperm
import Predictive.Proofs.Maps
import Predictive.Proofs.Moves

/-!
# The bound for the moves of a run

A run that ends at all ends within `Recognizer.moveBound` (`recognize_eq_run`). A trace notes, for each
symbol of the stack, the symbols that were expanded to get it there since the last token was passed,
nearest first. If a symbol to be expanded is among its own ancestors, the run does what it did before
again and again (`run_endless`). Otherwise (`Straight`) ancestors are distinct and have rows, so paths
are no longer than the number of rows, and each symbol can be weighed such that an expansion makes the
stack lighter, even though it may be longer (`Trace.Holds.expand`). Passing a token takes the paths
away, for which there is a fixed price; the tokens still to come pay for it (`Trace.Holds.pass`).
-/

set_option autoImplicit false

namespace Predictive

namespace Recognizer

variable {r : Recognizer} {c c' : Configuration}

/-! ## Going round in circles -/

/-- An expansion at the front of the stack, which does not depend on what stands below. -/
inductive Spreads (r : Recognizer) (lookahead : Symbol) (ahead : Prop) :
    List Symbol → List Symbol → Prop
  | intro {top : Symbol} {front : List Symbol} {n : Int} {p : Production}
      (expandable : r.grammar.isToken top = false) (cell : r.table.cell? top lookahead = some n)
      (numbered : r.grammar.production? n = some p) (before : ahead → top ≠ Symbol.endMarker) :
      Spreads r lookahead ahead (top :: front) (p.content ++ front)

theorem Spreads.moves {front front' below : List Symbol}
    (h : r.Spreads c.token.kind (c.rest ≠ []) front front') (hstack : c.stack = front ++ below)
    (hbelow : below ≠ []) :
    ∃ c', r.Moves c c' ∧ c'.token = c.token ∧ c'.rest = c.rest ∧ c'.stack = front' ++ below := by
  cases h with
  | @intro top front n p expandable cell numbered before =>
      refine ⟨c.expanded n p (front ++ below), .expand hstack expandable cell numbered before
        fun _ hnil => hbelow (List.append_eq_nil_iff.1 hnil).2, rfl, rfl, ?_⟩
      simp [Configuration.expanded]

/-- A run does not end if the symbol at the front leads to itself without a token being passed. -/
theorem run_endless {b lookahead : Symbol} {ahead : Prop} {more : List Symbol}
    (cycle : Relation.TransGen (r.Spreads lookahead ahead) [b] (b :: more)) (fuel : Nat)
    {front more' below : List Symbol} (hkind : c.token.kind = lookahead)
    (hrest : (c.rest ≠ []) = ahead) (hstack : c.stack = front ++ below) (hbelow : below ≠ [])
    (h : Relation.ReflTransGen (r.Spreads lookahead ahead) front (b :: more')) :
    (r.run fuel c).1 = .error .endless := by
  induction fuel generalizing c front more' below with
  | zero => rfl
  | succ fuel ih =>
      subst hkind hrest
      -- the next expansion on the way to `b`, or the first one of another round
      obtain ⟨first, next, more₁, below₁, hmove, hon, hstack₁, hbelow₁⟩ :
          ∃ first next more₁ below₁, r.Spreads c.token.kind (c.rest ≠ []) first next ∧
            Relation.ReflTransGen (r.Spreads c.token.kind (c.rest ≠ [])) next (b :: more₁) ∧
            c.stack = first ++ below₁ ∧ below₁ ≠ [] := by
        rcases Relation.ReflTransGen.cases_head h with rfl | ⟨next, hmove, hon⟩
        · obtain ⟨next, hmove, hon⟩ := Relation.TransGen.head'_iff.1 cycle
          exact ⟨[b], next, more, more' ++ below, hmove, hon, hstack, by simp [hbelow]⟩
        · exact ⟨front, next, more', below, hmove, hon, hstack, hbelow⟩
      obtain ⟨d, hmoves, htoken, hrest, hd⟩ := hmove.moves hstack₁ hbelow₁
      rw [run, step_eq_next_iff.2 hmoves]
      exact ih (by rw [htoken]) (by rw [hrest]) hd hbelow₁ hon

/-- The symbol on top of the stack does not lead to itself without a token being passed. -/
def Straight (r : Recognizer) (c : Configuration) : Prop :=
  ∀ top below more, c.stack = top :: below → below ≠ [] →
    ¬ Relation.TransGen (r.Spreads c.token.kind (c.rest ≠ [])) [top] (top :: more)

/-- No symbol leads to itself on a run that ends. -/
theorem straight_of_ends {fuel : Nat} (ends : (r.run fuel c).1 ≠ .error .endless) (d : Configuration)
    (h : Relation.ReflTransGen r.Moves c d) : r.Straight d := by
  induction h using Relation.ReflTransGen.head_induction_on generalizing fuel with
  | refl =>
      intro top below more hstack hbelow cycle
      have honly : d.stack = [top] ++ below := hstack
      exact ends (run_endless cycle fuel rfl rfl honly hbelow .refl)
  | head hmove _ ih =>
      cases fuel with
      | zero => exact absurd rfl ends
      | succ fuel =>
          rw [run, step_eq_next_iff.2 hmove] at ends
          exact ih ends

/-! ## Traces -/

/-- The stack above the end marker, each symbol with its ancestors since the last token was passed. -/
abbrev Trace := List (Symbol × List Symbol)

namespace Trace

/-- The number of symbols that have ancestors. -/
def young (trace : Trace) : Nat := trace.countP fun e => !e.2.isEmpty

/-- From each symbol down, no more symbols have ancestors than `width` for each ancestor of it. -/
def Slim (width : Nat) : Trace → Prop
  | [] => True
  | e :: below => young (e :: below) ≤ width * e.2.length ∧ Slim width below

/-- Each ancestor of a symbol has led to where the symbol stands now. -/
def Leads (r : Recognizer) (c : Configuration) (trace : Trace) : Prop :=
  ∀ above e below, trace = above ++ e :: below → ∀ b ∈ e.2, ∃ more,
    Relation.TransGen (r.Spreads c.token.kind (c.rest ≠ [])) [b] (above.map (·.1) ++ e.1 :: more)

/-- What a trace says about a state: its stack, distinct ancestors that have rows, and where they led.
Few enough symbols have ancestors. -/
structure Holds (r : Recognizer) (c : Configuration) (trace : Trace) : Prop where
  stack : c.stack = trace.map (·.1) ++ [Symbol.endMarker]
  paths : ∀ e ∈ trace, e.2.Nodup ∧ ∀ x ∈ e.2, x ∈ r.table.rows.keys
  slim : Slim (widest r.grammar) trace
  leads : Leads r c trace

/-- The trace in which no symbol has ancestors. -/
def fresh (symbols : List Symbol) : Trace := symbols.map fun s => (s, [])

theorem young_le_cons (e : Symbol × List Symbol) (below : Trace) :
    young below ≤ young (e :: below) := by
  rw [young, young, List.countP_cons]
  omega

theorem young_fresh (symbols : List Symbol) : young (fresh symbols) = 0 := by
  simp [young, fresh]

theorem slim_fresh (width : Nat) (symbols : List Symbol) : Slim width (fresh symbols) := by
  induction symbols with
  | nil => trivial
  | cons s symbols ih =>
      exact ⟨Nat.le_trans (Nat.le_of_eq (young_fresh (s :: symbols))) (Nat.zero_le _), ih⟩

theorem holds_fresh {symbols : List Symbol} (hstack : c.stack = symbols ++ [Symbol.endMarker]) :
    Holds r c (fresh symbols) := by
  have hpath : ∀ e ∈ fresh symbols, e.2 = [] := by
    intro e he
    obtain ⟨s, -, rfl⟩ := List.mem_map.1 he
    rfl
  refine ⟨?_, ?_, slim_fresh _ symbols, ?_⟩
  · simp [hstack, fresh, Function.comp_def]
  · intro e he
    rw [hpath e he]
    simp
  · intro above e below htrace b hb
    rw [hpath e (htrace ▸ List.mem_append_right _ List.mem_cons_self)] at hb
    exact absurd hb (by simp)

/-! ## Weights -/

/-- A symbol is the lighter the more ancestors it has. -/
def weight (r : Recognizer) (e : Symbol × List Symbol) : Nat :=
  (widest r.grammar + 2) ^ (r.table.rows.size + 1 - e.2.length)

/-- The weight of a symbol without ancestors. -/
def full (r : Recognizer) : Nat := (widest r.grammar + 2) ^ (r.table.rows.size + 1)

/-- What the passing of one token costs at most. -/
def price (r : Recognizer) : Nat := (r.table.rows.size * widest r.grammar + 1) * full r

/-- The weight of the stack, and the price for all tokens still to come. -/
def potential (r : Recognizer) (c : Configuration) (trace : Trace) : Nat :=
  (trace.map (weight r)).sum + c.rest.length * price r

theorem weight_of_nil (r : Recognizer) (s : Symbol) : weight r (s, []) = full r := rfl

theorem sum_fresh (r : Recognizer) (symbols : List Symbol) :
    ((fresh symbols).map (weight r)).sum = symbols.length * full r := by
  induction symbols with
  | nil => simp [fresh]
  | cons s symbols ih =>
      rw [fresh, List.map_cons, List.map_cons, List.sum_cons, ← fresh, ih, weight_of_nil,
        List.length_cons, Nat.succ_mul, Nat.add_comm]

/-- Without their ancestors, only the symbols that had some get heavier. -/
theorem length_mul_full_le (r : Recognizer) (trace : Trace) :
    trace.length * full r ≤ (trace.map (weight r)).sum + young trace * full r := by
  induction trace with
  | nil => simp
  | cons e trace ih =>
      obtain ⟨s, path⟩ := e
      rw [List.length_cons, Nat.succ_mul, List.map_cons, List.sum_cons]
      cases path with
      | nil =>
          have hyoung : young ((s, []) :: trace) = young trace := by simp [young]
          rw [hyoung, weight_of_nil]
          omega
      | cons x path =>
          have hyoung : young ((s, x :: path) :: trace) = young trace + 1 := by simp [young]
          rw [hyoung, Nat.succ_mul]
          omega

/-! ## Expansions -/

theorem mem_keys_of_cell {s t : Symbol} {n : Int} (h : r.table.cell? s t = some n) :
    s ∈ r.table.rows.keys := by
  refine OrderedMap.mem_keys_iff.2 ?_
  cases hrow : r.table.rows.get? s with
  | some row => exact ⟨row, rfl⟩
  | none =>
      rw [ParseTable.cell?, ParseTable.row, hrow, Option.getD_none, OrderedMap.get?_empty] at h
      exact absurd h (by simp)

/-- Distinct symbols with rows are no more than there are rows. -/
theorem length_le_rows {path : List Symbol} (hnodup : path.Nodup)
    (hrows : ∀ x ∈ path, x ∈ r.table.rows.keys) : path.length ≤ r.table.rows.size := by
  have := (List.subperm_of_subset hnodup hrows).length_le
  rwa [OrderedMap.keys, List.length_map] at this

theorem le_foldl_max (xs : List Nat) (m : Nat) :
    m ≤ xs.foldl max m ∧ ∀ x ∈ xs, x ≤ xs.foldl max m := by
  induction xs generalizing m with
  | nil => exact ⟨Nat.le_refl m, by simp⟩
  | cons y ys ih =>
      obtain ⟨hm, hys⟩ := ih (max m y)
      rw [List.foldl_cons]
      refine ⟨by omega, ?_⟩
      intro x hx
      rcases List.mem_cons.1 hx with rfl | hx
      · omega
      · exact hys x hx

theorem length_content_le {g : Grammar} {n : Int} {p : Production}
    (h : g.production? n = some p) : p.content.length ≤ widest g := by
  have hmem : p.rhs.length ∈ g.productionList.map fun p => p.rhs.length :=
    List.mem_map_of_mem (OrderedMap.mem_values_iff.2 ⟨n, h⟩)
  exact Nat.le_trans (List.length_filter_le _ _) ((le_foldl_max _ 0).2 _ hmem)

/-- The symbols of a content with the path of the symbol that they come from. -/
def children (p : Production) (e : Symbol × List Symbol) : Trace :=
  p.content.map fun s => (s, e.1 :: e.2)

theorem map_fst_children (p : Production) (e : Symbol × List Symbol) :
    (children p e).map (·.1) = p.content := by
  simp [children, Function.comp_def]

theorem path_of_mem_children {p : Production} {e e' : Symbol × List Symbol}
    (h : e' ∈ children p e) : e'.2 = e.1 :: e.2 := by
  obtain ⟨s, -, rfl⟩ := List.mem_map.1 h
  rfl

theorem slim_children {width : Nat} {symbols : List Symbol} {path path' : List Symbol}
    {below : Trace} (hlength : symbols.length ≤ width) (hpath : path'.length = path.length + 1)
    (hyoung : young below ≤ width * path.length) (hbelow : Slim width below) :
    Slim width (symbols.map (fun s => (s, path')) ++ below) ∧
      young (symbols.map (fun s => (s, path')) ++ below) ≤
        symbols.length + width * path.length := by
  induction symbols with
  | nil => exact ⟨hbelow, by simpa using hyoung⟩
  | cons s symbols ih =>
      rw [List.length_cons] at hlength
      obtain ⟨hslim, hcount⟩ := ih (by omega)
      have hcons : young ((s, path') :: (symbols.map (fun s => (s, path')) ++ below)) ≤
          symbols.length + 1 + width * path.length := by
        have hstep : young ((s, path') :: (symbols.map (fun s => (s, path')) ++ below)) ≤
            young (symbols.map (fun s => (s, path')) ++ below) + 1 := by
          rw [young, List.countP_cons, young]
          split <;> omega
        omega
      refine ⟨⟨Nat.le_trans hcons ?_, hslim⟩, hcons⟩
      rw [hpath, Nat.mul_succ]
      omega

section Expand

variable {e : Symbol × List Symbol} {below : Trace} {n : Int} {p : Production}

/-- The path of the symbols that come from an expansion. -/
theorem Holds.path_expand (holds : Holds r c (e :: below))
    (cell : r.table.cell? e.1 c.token.kind = some n) (new : e.1 ∉ e.2) :
    (e.1 :: e.2).Nodup ∧ ∀ x ∈ e.1 :: e.2, x ∈ r.table.rows.keys := by
  obtain ⟨hnodup, hrows⟩ := holds.paths e List.mem_cons_self
  refine ⟨List.nodup_cons.2 ⟨new, hnodup⟩, ?_⟩
  intro x hx
  rcases List.mem_cons.1 hx with rfl | hx
  · exact mem_keys_of_cell cell
  · exact hrows x hx

/-- An ancestor leads to the symbols that come from an expansion, and to those below it, by one
expansion more. -/
theorem Leads.expand (leads : Leads r c (e :: below)) (expandable : r.grammar.isToken e.1 = false)
    (cell : r.table.cell? e.1 c.token.kind = some n) (numbered : r.grammar.production? n = some p)
    (before : c.rest ≠ [] → e.1 ≠ Symbol.endMarker) (stack : List Symbol) :
    Leads r (c.expanded n p stack) (children p e ++ below) := by
  intro above e' rest htrace b hb
  have onward : ∀ front, Relation.TransGen (r.Spreads c.token.kind (c.rest ≠ [])) [b]
      (e.1 :: front) → Relation.TransGen (r.Spreads c.token.kind (c.rest ≠ [])) [b]
        (p.content ++ front) := by
    intro front h
    exact h.tail (.intro expandable cell numbered before)
  rcases cut_of_append_cons_eq htrace.symm with
    ⟨between, hchildren, hrest⟩ | ⟨between, habove, hbelow⟩
  · -- the symbol is new: its ancestors are the expanded symbol and the ancestors of that
    have hcontent : p.content = above.map (·.1) ++ e'.1 :: between.map (·.1) := by
      rw [← map_fst_children p e, hchildren, List.map_append, List.map_cons]
    have hpath : e'.2 = e.1 :: e.2 :=
      path_of_mem_children (hchildren ▸ List.mem_append_right _ List.mem_cons_self)
    rw [hpath] at hb
    rcases List.mem_cons.1 hb with rfl | hb
    · refine ⟨between.map (·.1), ?_⟩
      have hone : r.Spreads c.token.kind (c.rest ≠ []) [e.1] (p.content ++ []) :=
        .intro expandable cell numbered before
      rw [List.append_nil, hcontent] at hone
      exact .single hone
    · obtain ⟨more, hlead⟩ := leads [] e below rfl b hb
      refine ⟨between.map (·.1) ++ more, ?_⟩
      have hon := onward more hlead
      rw [hcontent, List.append_assoc] at hon
      exact hon
  · -- the symbol stands below the expanded one
    have hold : e :: below = (e :: between) ++ e' :: rest := by
      rw [hbelow, List.cons_append]
    obtain ⟨more, hlead⟩ := leads (e :: between) e' rest hold b hb
    refine ⟨more, ?_⟩
    rw [habove, List.map_append, map_fst_children, List.append_assoc]
    exact onward _ hlead

theorem Holds.expand (holds : Holds r c (e :: below))
    (expandable : r.grammar.isToken e.1 = false)
    (cell : r.table.cell? e.1 c.token.kind = some n) (numbered : r.grammar.production? n = some p)
    (before : c.rest ≠ [] → e.1 ≠ Symbol.endMarker) (new : e.1 ∉ e.2) :
    Holds r (c.expanded n p (below.map (·.1) ++ [Symbol.endMarker])) (children p e ++ below) := by
  obtain ⟨hyoung, hslim⟩ := holds.slim
  refine ⟨?_, ?_, ?_, holds.leads.expand expandable cell numbered before _⟩
  · simp [Configuration.expanded, children, Function.comp_def]
  · intro e' he'
    rcases List.mem_append.1 he' with he' | he'
    · rw [path_of_mem_children he']
      exact holds.path_expand cell new
    · exact holds.paths e' (List.mem_cons_of_mem _ he')
  · have hbelow := Nat.le_trans (young_le_cons e below) hyoung
    exact (slim_children (length_content_le numbered) rfl hbelow hslim).1

theorem potential_expand (holds : Holds r c (e :: below))
    (cell : r.table.cell? e.1 c.token.kind = some n) (numbered : r.grammar.production? n = some p)
    (new : e.1 ∉ e.2) (stack : List Symbol) :
    potential r (c.expanded n p stack) (children p e ++ below) < potential r c (e :: below) := by
  obtain ⟨hnodup, hrows⟩ := holds.path_expand cell new
  have hdepth := length_le_rows hnodup hrows
  rw [List.length_cons] at hdepth
  have hchildren : ((children p e).map (weight r)).sum =
      p.content.length * (widest r.grammar + 2) ^ (r.table.rows.size - e.2.length) := by
    have hone : ∀ s, weight r (s, e.1 :: e.2) =
        (widest r.grammar + 2) ^ (r.table.rows.size - e.2.length) := by
      intro s
      rw [weight, List.length_cons, Nat.add_sub_add_right]
    simp [children, Function.comp_def, hone]
  have hparent : weight r e = (widest r.grammar + 2) *
      (widest r.grammar + 2) ^ (r.table.rows.size - e.2.length) := by
    rw [weight, show r.table.rows.size + 1 - e.2.length = r.table.rows.size - e.2.length + 1 by omega,
      Nat.pow_succ, Nat.mul_comm]
  -- there are fewer children than one of their weights goes into that of their parent
  have hless : ((children p e).map (weight r)).sum < weight r e := by
    rw [hchildren, hparent]
    have := length_content_le numbered
    exact Nat.mul_lt_mul_of_pos_right (by omega) (Nat.pow_pos (by omega))
  rw [potential, potential, List.map_append, List.sum_append, List.map_cons, List.sum_cons]
  show _ + c.rest.length * price r < _
  omega

end Expand

/-! ## Tokens -/

section Pass

variable {e : Symbol × List Symbol} {below : Trace} {next : Token} {rest : List Token}

theorem Holds.pass (stack : List Symbol) (hstack : stack = below.map (·.1) ++ [Symbol.endMarker]) :
    Holds r (c.passed next rest stack) (fresh (below.map (·.1))) :=
  holds_fresh hstack

theorem potential_pass (holds : Holds r c (e :: below)) (ahead : c.rest = next :: rest)
    (stack : List Symbol) :
    potential r (c.passed next rest stack) (fresh (below.map (·.1))) <
      potential r c (e :: below) := by
  obtain ⟨hnodup, hrows⟩ := holds.paths e List.mem_cons_self
  have hyoung : young below ≤ r.table.rows.size * widest r.grammar := by
    calc young below ≤ young (e :: below) := young_le_cons e below
      _ ≤ widest r.grammar * e.2.length := holds.slim.1
      _ ≤ widest r.grammar * r.table.rows.size :=
          Nat.mul_le_mul_left _ (length_le_rows hnodup hrows)
      _ = r.table.rows.size * widest r.grammar := Nat.mul_comm _ _
  have hheavy := length_mul_full_le r below
  -- a token passed makes the stack young again, and the price of a token is enough for that
  have hcost : young below * full r + full r ≤ price r := by
    rw [price, Nat.succ_mul]
    exact Nat.add_le_add_right (Nat.mul_le_mul_right _ hyoung) _
  have hpos : 0 < full r := Nat.pow_pos (by omega)
  rw [potential, sum_fresh, List.length_map, potential, List.map_cons, List.sum_cons, ahead,
    List.length_cons, Nat.succ_mul]
  show _ + rest.length * price r < _
  omega

end Pass

/-! ## All moves -/

/-- Each move makes the potential smaller, if the symbol on top does not lead to itself. -/
theorem Holds.moves {trace : Trace} (holds : Holds r c trace) (h : r.Moves c c')
    (straight : r.Straight c) :
    ∃ trace', Holds r c' trace' ∧ potential r c' trace' < potential r c trace := by
  cases trace with
  | nil =>
      -- only the end marker is left, which does not move
      have hstack := holds.stack
      cases h with
      | expand onTop expandable cell numbered before atEnd =>
          obtain ⟨rfl, rfl⟩ := List.cons.inj (hstack.symm.trans onTop)
          exact absurd rfl (before fun hrest => atEnd hrest rfl)
      | pass ahead onTop token before =>
          exact absurd (List.cons.inj (hstack.symm.trans onTop)).1.symm before
  | cons e below =>
      have hstack := holds.stack
      rw [List.map_cons, List.cons_append] at hstack
      cases h with
      | expand onTop expandable cell numbered before atEnd =>
          obtain ⟨rfl, rfl⟩ := List.cons.inj (hstack.symm.trans onTop)
          -- a symbol that is its own ancestor would lead to itself
          have new : e.1 ∉ e.2 := by
            intro hmem
            obtain ⟨more, hlead⟩ := holds.leads [] e below rfl e.1 hmem
            exact straight e.1 _ more hstack (by simp) hlead
          exact ⟨_, holds.expand expandable cell numbered before new,
            potential_expand holds cell numbered new _⟩
      | pass ahead onTop token before =>
          obtain ⟨-, rfl⟩ := List.cons.inj (hstack.symm.trans onTop)
          exact ⟨_, Holds.pass _ rfl, potential_pass holds ahead _⟩

end Trace

open Trace

/-- A run on which no symbol leads to itself ends within the potential of its state. -/
theorem run_potential {trace : Trace} (holds : Trace.Holds r c trace)
    (straight : ∀ d, Relation.ReflTransGen r.Moves c d → r.Straight d) :
    (r.run (potential r c trace + 1) c).1 ≠ .error .endless := by
  induction hp : potential r c trace using Nat.strongRecOn generalizing c trace with
  | ind p ih =>
      subst hp
      rw [run]
      cases hstep : r.step c with
      | stop outcome d => exact (step_stops hstep).ne_endless
      | next d =>
          -- what is left of the potential is enough for the run from the next state
          have hmove := step_eq_next_iff.1 hstep
          obtain ⟨trace', holds', hless⟩ := holds.moves hmove (straight c .refl)
          have hd := ih _ hless holds' (fun e he => straight e (.head hmove he)) rfl
          have hsplit : potential r c trace = potential r d trace' + 1 +
              (potential r c trace - (potential r d trace' + 1)) := by
            omega
          show (r.run (potential r c trace) d).1 ≠ .error .endless
          rw [hsplit, r.run_add _ hd]
          exact hd

theorem run_eq_run {fuel fuel' : Nat} (h : (r.run fuel c).1 ≠ .error .endless)
    (h' : (r.run fuel' c).1 ≠ .error .endless) : r.run fuel c = r.run fuel' c := by
  rcases Nat.le_total fuel fuel' with hle | hle
  · obtain ⟨extra, rfl⟩ := Nat.exists_eq_add_of_le hle
    exact (r.run_add extra h).symm
  · obtain ⟨extra, rfl⟩ := Nat.exists_eq_add_of_le hle
    exact r.run_add extra h'

theorem potential_fresh_lt_moveBound {symbols : List Symbol}
    (hstack : c.stack = symbols ++ [Symbol.endMarker]) :
    potential r c (fresh symbols) + 1 ≤ r.moveBound c := by
  have hbound : r.moveBound c = (symbols.length + 1 + c.rest.length *
      (r.table.rows.size * widest r.grammar + 1)) * full r + 1 := by
    rw [moveBound, hstack, List.length_append]
    rfl
  rw [hbound, potential, sum_fresh, price, ← Nat.mul_assoc, ← Nat.add_mul]
  exact Nat.succ_le_succ (Nat.mul_le_mul_right _ (by omega))

/-- A run on which no symbol leads to itself ends within the bound. -/
theorem run_moveBound {symbols : List Symbol} (hstack : c.stack = symbols ++ [Symbol.endMarker])
    (straight : ∀ d, Relation.ReflTransGen r.Moves c d → r.Straight d) :
    (r.run (r.moveBound c) c).1 ≠ .error .endless := by
  have hend := run_potential (holds_fresh hstack) straight
  obtain ⟨extra, hextra⟩ := Nat.exists_eq_add_of_le (potential_fresh_lt_moveBound (r := r) hstack)
  rw [hextra, r.run_add extra hend]
  exact hend

/-- The bound is large enough: recognition gives what a run of any length gives that ends. -/
theorem recognize_eq_run {symbols : List Symbol}
    (hstack : c.stack = symbols ++ [Symbol.endMarker]) {fuel : Nat}
    (ends : (r.run fuel c).1 ≠ .error .endless) : r.recognize c = r.run fuel c :=
  run_eq_run (run_moveBound hstack (straight_of_ends ends)) ends

end Recognizer

end Predictive
